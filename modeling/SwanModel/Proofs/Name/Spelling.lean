import SwanModel.Proofs.Language.Transitions
import SwanModel.Proofs.Printing.Words

/-!
# The spelling of names

A recogniser accepts the texts of its grammar and, because it passes over a line feed at the end,
these texts with a line feed behind them.
-/

namespace SwanModel.Name

open Text Printing

/-! ### The grammar -/

def IsWord : List Char → Prop
  | [] => False
  | c :: rest => c.isAlpha = true ∧ ∀ d ∈ rest, isAsciiWord d = true

instance : DecidablePred IsWord
  | [] => inferInstanceAs (Decidable False)
  | c :: rest => decidable_of_iff (c.isAlpha = true ∧
      rest.all isAsciiWord = true) (and_congr_right' List.all_eq_true)

def Hyphen (gap : List Char) : Prop := gap = ['-']

/-- The separator of paths: two colons, with ASCII white space before and behind them or without. -/
def Colons (gap : List Char) : Prop :=
  ∃ before behind, (∀ c ∈ before, isAsciiBlank c = true) ∧ (∀ c ∈ behind, isAsciiBlank c = true) ∧
    gap = before ++ [':', ':'] ++ behind

/-- Identifiers, in order, and a text that has them with separators between them and nothing
else. -/
inductive Spells (separates : List Char → Prop) : List String → List Char → Prop
  | last {name : String} (word : IsWord name.toList) : Spells separates [name] name.toList
  | next {name : String} {names : List String} {gap rest : List Char} (word : IsWord name.toList)
      (separator : separates gap) (others : Spells separates names rest) :
      Spells separates (name :: names) (name.toList ++ (gap ++ rest))

/-- A text is another one, or this one with a line feed behind it. -/
def Ends (front cs : List Char) : Prop := cs = front ∨ cs = front ++ ['\n']

variable {separates : List Char → Prop} {names : List String} {front feed cs rest : List Char}

theorem atEnd_iff : atEnd feed = true ↔ feed = [] ∨ feed = ['\n'] := by
  unfold atEnd
  split
  · simp
  · simp
  · rename_i notEmpty notFeed
    simpa using ⟨notEmpty, notFeed⟩

theorem ends_iff : Ends front cs ↔ ∃ feed, atEnd feed = true ∧ cs = front ++ feed := by
  simp [Ends, atEnd_iff, or_and_right, exists_or]

theorem isAsciiWord_of_isAsciiBlank {c : Char} (blank : isAsciiBlank c = true) :
    isAsciiWord c = false := by
  rw [Bool.eq_false_iff]
  intro word
  have range := Numeral.isAsciiWord_range word
  simp only [isAsciiBlank, Bool.or_eq_true, beq_iff_eq, Bool.and_eq_true, decide_eq_true_eq] at blank
  rcases blank with rfl | control
  · exact absurd range (by decide)
  · omega

theorem IsWord.starts {word : List Char} (isWord : IsWord word) :
    ∃ c rest, word = c :: rest ∧ c.isAlpha = true := by
  cases word with
  | nil => exact isWord.elim
  | cons c rest => exact ⟨c, rest, rfl, isWord.1⟩

theorem IsWord.all {word : List Char} (isWord : IsWord word) : ∀ c ∈ word, isAsciiWord c = true := by
  cases word with
  | nil => exact isWord.elim
  | cons c rest => exact List.forall_mem_cons.mpr ⟨Numeral.isAsciiWord_of_isAlpha isWord.1, isWord.2⟩

theorem Spells.starts (spells : Spells separates names front) :
    ∃ c cs, front = c :: cs ∧ c.isAlpha = true := by
  cases spells with
  | last word => exact word.starts
  | next word =>
    obtain ⟨c, cs, text, letter⟩ := word.starts
    exact ⟨c, _, by rw [text, List.cons_append], letter⟩

theorem Spells.ends (spells : Spells separates names front) :
    ∃ cs c, front = cs ++ [c] ∧ isAsciiWord c = true := by
  induction spells with
  | @last name word =>
    have filled : name.toList ≠ [] := by
      obtain ⟨c, rest, text, -⟩ := word.starts
      simp [text]
    exact ⟨_, _, (List.dropLast_append_getLast filled).symm, word.all _ (List.getLast_mem filled)⟩
  | @next name _ gap _ _ _ _ ih =>
    obtain ⟨cs, c, rfl, word⟩ := ih
    exact ⟨name.toList ++ (gap ++ cs), c, by simp, word⟩

/-! ### Identifiers -/

theorem dropIdentifier_eq_some_iff :
    dropIdentifier cs = some rest ↔
      ∃ word, IsWord word ∧ cs = word ++ rest ∧ Stops isAsciiWord rest := by
  constructor
  · intro dropped
    cases cs with
    | nil => cases dropped
    | cons c cs =>
      rw [dropIdentifier] at dropped
      split at dropped
      case isFalse => cases dropped
      case isTrue letter =>
        cases dropped
        refine ⟨c :: cs.takeWhile isAsciiWord, ⟨letter, List.all_eq_true.mp List.all_takeWhile⟩, ?_,
          stops_dropWhile _ _⟩
        rw [List.cons_append, List.takeWhile_append_dropWhile]
  · rintro ⟨word, isWord, rfl, stops⟩
    cases word with
    | nil => exact isWord.elim
    | cons c word => rw [List.cons_append, dropIdentifier, if_pos isWord.1, (cut isWord.2 stops).2]

theorem length_of_dropIdentifier (dropped : dropIdentifier cs = some rest) :
    rest.length < cs.length := by
  obtain ⟨word, isWord, rfl, -⟩ := dropIdentifier_eq_some_iff.mp dropped
  obtain ⟨c, more, rfl, -⟩ := isWord.starts
  simp only [List.cons_append, List.length_cons, List.length_append]
  omega

theorem stops_of_atEnd (ended : atEnd feed = true) : Stops isAsciiWord feed := by
  rcases atEnd_iff.mp ended with rfl | rfl
  · trivial
  · rfl

theorem isIdentifier_iff (s : String) : isIdentifier s = true ↔
    ∃ word, IsWord word ∧ Ends word s.toList := by
  simp only [isIdentifier, Option.any_eq_true, dropIdentifier_eq_some_iff, ends_iff]
  constructor
  · rintro ⟨rest, ⟨word, isWord, text, -⟩, ended⟩
    exact ⟨word, isWord, rest, ended, text⟩
  · rintro ⟨word, isWord, feed, ended, text⟩
    exact ⟨feed, ⟨word, isWord, text, stops_of_atEnd ended⟩, ended⟩

/-! ### Identifiers with separators between them -/

/-- A function that drops the separators of a grammar: what it drops is a separator, and it drops a
separator that stands in front of a letter. No separator begins like an identifier. -/
structure Drops (separates : List Char → Prop) (drop : List Char → Option (List Char)) : Prop where
  sound : ∀ {cs rest}, drop cs = some rest → ∃ gap, separates gap ∧ cs = gap ++ rest
  complete : ∀ {gap c rest}, separates gap → c.isAlpha = true →
    drop (gap ++ c :: rest) = some (c :: rest)
  stops : ∀ {gap}, separates gap → ∀ rest, Stops isAsciiWord (gap ++ rest)

/-- What stands behind an identifier: the end of the text, or a separator and more of the grammar
before the end. -/
def Behind (separates : List Char → Prop) (feed cs : List Char) : Prop :=
  cs = feed ∨ ∃ gap names front, separates gap ∧ Spells separates names front ∧
    cs = gap ++ (front ++ feed)

section
variable {drop : List Char → Option (List Char)} (drops : Drops separates drop)
include drops

theorem spells_iff_dropIdentifier (ended : atEnd feed = true) :
    (∃ names front, Spells separates names front ∧ cs = front ++ feed) ↔
      ∃ rest, dropIdentifier cs = some rest ∧ Behind separates feed rest := by
  simp only [dropIdentifier_eq_some_iff]
  constructor
  · rintro ⟨names, front, spells, rfl⟩
    cases spells with
    | last word => exact ⟨feed, ⟨_, word, rfl, stops_of_atEnd ended⟩, .inl rfl⟩
    | @next name names gap more word separator others =>
      have first : Behind separates feed (gap ++ (more ++ feed)) :=
        .inr ⟨gap, names, more, separator, others, rfl⟩
      exact ⟨_, ⟨_, word, by simp, drops.stops separator _⟩, first⟩
  · rintro ⟨rest, ⟨word, isWord, rfl, -⟩, behind⟩
    rw [← String.toList_ofList (l := word)] at isWord
    rcases behind with rfl | ⟨gap, names, front, separator, spells, rfl⟩
    · exact ⟨_, _, .last isWord, by rw [String.toList_ofList]⟩
    · exact ⟨_, _, .next isWord separator spells, by simp⟩

/-- The recogniser of what stands behind an identifier, with a bound that no text of this length
reaches. -/
theorem isPathTail_iff {fuel : Nat} (enough : cs.length < fuel) :
    isPathTail drop fuel cs = true ↔ ∃ feed, atEnd feed = true ∧ Behind separates feed cs := by
  induction fuel generalizing cs with
  | zero => omega
  | succ fuel ih =>
    have step : isPathTail drop (fuel + 1) cs = true ↔ atEnd cs = true ∨
        ∃ first rest, drop cs = some first ∧ dropIdentifier first = some rest ∧
          isPathTail drop fuel rest = true := by
      rw [isPathTail, Bool.or_eq_true]
      cases found : (drop cs).bind dropIdentifier with
      | none =>
        simp only [Option.bind_eq_none_iff] at found
        simp +contextual [found]
      | some rest =>
        obtain ⟨first, dropped, next⟩ := Option.bind_eq_some_iff.mp found
        simp [dropped, next]
    rw [step]
    have shorter {gap first rest : List Char} (fits : (gap ++ first).length < fuel + 1)
        (next : dropIdentifier first = some rest) : rest.length < fuel := by
      have less := length_of_dropIdentifier next
      rw [List.length_append] at fits
      omega
    constructor
    · rintro (ended | ⟨first, rest, dropped, next, tail⟩)
      · exact ⟨cs, ended, .inl rfl⟩
      · obtain ⟨gap, separator, rfl⟩ := drops.sound dropped
        obtain ⟨feed, ended, behind⟩ := (ih (shorter enough next)).mp tail
        obtain ⟨names, front, spells, same⟩ :=
          (spells_iff_dropIdentifier drops ended).mpr ⟨rest, next, behind⟩
        exact ⟨feed, ended, .inr ⟨gap, names, front, separator, spells, by rw [same]⟩⟩
    · rintro ⟨feed, ended, rfl | ⟨gap, names, front, separator, spells, rfl⟩⟩
      · exact .inl ended
      · obtain ⟨rest, next, behind⟩ :=
          (spells_iff_dropIdentifier drops ended).mp ⟨names, front, spells, rfl⟩
        have tail := (ih (shorter enough next)).mpr ⟨feed, ended, behind⟩
        obtain ⟨c, more, rfl, letter⟩ := spells.starts
        exact .inr ⟨c :: more ++ feed, rest, drops.complete separator letter, next, tail⟩

/-- A recogniser of separated identifiers accepts its grammar, with or without a line feed behind
it. -/
theorem isSeparated_iff :
    isSeparated drop cs = true ↔ ∃ names front, Spells separates names front ∧ Ends front cs := by
  simp only [isSeparated, Option.any_eq_true, ends_iff]
  constructor
  · rintro ⟨rest, next, tail⟩
    have fits : rest.length < cs.length + 1 := Nat.lt_succ_of_lt (length_of_dropIdentifier next)
    obtain ⟨feed, ended, behind⟩ := (isPathTail_iff drops fits).mp tail
    obtain ⟨names, front, spells, same⟩ :=
      (spells_iff_dropIdentifier drops ended).mpr ⟨rest, next, behind⟩
    exact ⟨names, front, spells, feed, ended, same⟩
  · rintro ⟨names, front, spells, feed, ended, same⟩
    obtain ⟨rest, next, behind⟩ :=
      (spells_iff_dropIdentifier drops ended).mp ⟨names, front, spells, same⟩
    have fits : rest.length < cs.length + 1 := Nat.lt_succ_of_lt (length_of_dropIdentifier next)
    exact ⟨rest, next, (isPathTail_iff drops fits).mpr ⟨feed, ended, behind⟩⟩

end

theorem drops_hyphen : Drops Hyphen (dropWord ['-']) where
  sound dropped := ⟨['-'], rfl, dropWord_eq_some_iff.mp dropped⟩
  complete := by
    rintro _ c rest rfl -
    exact dropWord_eq_some_iff.mpr rfl
  stops := by
    rintro _ rfl rest
    rfl

theorem drops_colons : Drops Colons dropColons where
  sound {cs rest} dropped := by
    obtain ⟨behind, found, rfl⟩ := Option.map_eq_some_iff.mp dropped
    have text := dropWord_eq_some_iff.mp found
    refine ⟨cs.takeWhile isAsciiBlank ++ [':', ':'] ++ behind.takeWhile isAsciiBlank,
      ⟨_, _, ?_, ?_, rfl⟩, ?_⟩
    · exact List.all_eq_true.mp List.all_takeWhile
    · exact List.all_eq_true.mp List.all_takeWhile
    · calc cs = cs.takeWhile isAsciiBlank ++ cs.dropWhile isAsciiBlank :=
          List.takeWhile_append_dropWhile.symm
        _ = _ := by rw [text]; simp [List.takeWhile_append_dropWhile]
  complete := by
    rintro _ c rest ⟨before, behind, blanks, blanks', rfl⟩ letter
    have word : Stops isAsciiBlank (c :: rest) := by
      cases blank : isAsciiBlank c with
      | false => exact blank
      | true => simpa [Numeral.isAsciiWord_of_isAlpha letter] using isAsciiWord_of_isAsciiBlank blank
    have colons : Stops isAsciiBlank ([':', ':'] ++ (behind ++ c :: rest)) := rfl
    have found : dropWord [':', ':'] ([':', ':'] ++ (behind ++ c :: rest)) =
        some (behind ++ c :: rest) :=
      dropWord_eq_some_iff.mpr rfl
    rw [dropColons, List.append_assoc, List.append_assoc, (cut blanks colons).2, found, Option.map_some,
      (cut blanks' word).2]
  stops := by
    rintro _ ⟨before, behind, blanks, -, rfl⟩ rest
    cases before with
    | nil => rfl
    | cons c before => exact isAsciiWord_of_isAsciiBlank (blanks c (by simp))

/-! ### What the recognisers accept -/

/-- An identifier is valid, and a text is a path or the name of a file, exactly if the text is of
the grammar or a text of the grammar with a line feed behind it. -/
theorem recognisers_accept_grammar (s : String) :
    (∀ pragmas comment isName : Term, ∃ t valid,
      (Form.name .identifier).build [.text s, pragmas, comment, isName] = .ok t ∧
        t.shown "is_valid" = .ok (.truth valid) ∧
          (valid = true ↔ ∃ word, IsWord word ∧ Ends word s.toList)) ∧
    (isPath s = true ↔ ∃ names front, Spells Colons names front ∧ Ends front s.toList) ∧
    (isFilePath s = true ↔ ∃ names front, Spells Hyphen names front ∧ Ends front s.toList) := by
  refine ⟨fun pragmas comment isName => ?_, isSeparated_iff drops_colons, isSeparated_iff drops_hyphen⟩
  exact ⟨_, isIdentifier s, rfl, rfl, isIdentifier_iff s⟩

/-- A line feed behind a letter is no part of the grammar, and all recognisers accept it. -/
theorem line_feed_is_accepted :
    (Term.node (.name .identifier) [.text "a\n", .list [], .absent, .truth false]).shown "is_valid" =
        .ok (.truth true) ∧
      isPath "a\n" = true ∧ isFilePath "a\n" = true ∧
      ¬ IsWord "a\n".toList ∧ (∀ names, ¬ Spells Colons names "a\n".toList) ∧
        ∀ names, ¬ Spells Hyphen names "a\n".toList := by
  have text : "a\n".toList = ['a'] ++ ['\n'] := by decide
  have outside {separates : List Char → Prop} {names : List String} :
      ¬ Spells separates names "a\n".toList := by
    intro spells
    obtain ⟨cs, c, same, word⟩ := spells.ends
    obtain ⟨-, rfl⟩ := List.append_singleton_inj.mp (text.symm.trans same)
    cases word
  have valid : isIdentifier "a\n" = true := by decide +kernel
  refine ⟨congrArg (Except.ok ∘ Term.truth) valid, by decide +kernel, by decide +kernel, fun word => ?_,
    fun _ => outside, fun _ => outside⟩
  exact absurd (word.all '\n' (by simp [text])) (by decide)

end SwanModel.Name
