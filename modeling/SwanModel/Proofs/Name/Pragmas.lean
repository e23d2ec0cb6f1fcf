import Mathlib.Data.List.Induction
import SwanModel.Proofs.Name.ModuleNames
import SwanModel.Store.Show

/-!
# Decoding pragmas

`IsPragma` is the grammar of the texts that are decoded. A pragma as it is written has a mark in
front of the opening word, and so it is never decoded.
-/

namespace SwanModel.Text

/-! ### White space and words -/

theorem CharClass.contains_pair (low high : Nat) (bounds : List Nat) (c : Char) :
    CharClass.contains ⟨low :: high :: bounds⟩ c = true ↔
      low ≤ c.toNat ∧ (c.toNat < high ∨ CharClass.contains ⟨bounds⟩ c = true) := by
  by_cases above : low ≤ c.toNat
  · by_cases beyond : high ≤ c.toNat
    · simp [CharClass.contains, above, beyond, Nat.not_lt.mpr beyond, Nat.add_assoc]
    · simp [CharClass.contains, above, beyond, Nat.lt_of_not_le beyond]
  · simp [CharClass.contains, above]

/-- Whether the members from `low` on and below `high` are apart from those of another class. The
boundaries of the other class come in pairs; `next` tells of the first pair that begins at `high` or
behind it, and of those that follow. -/
def CharClass.passes (low high : Nat) (next : List Nat → Bool) : List Nat → Bool
  | [] => true
  | [_] => false
  | low' :: high' :: others =>
    if high ≤ low' then next (low' :: high' :: others) else decide (high' ≤ low) &&
      passes low high next others

/-- Whether the boundaries of two classes come in pairs and no pair of one overlaps with a pair of
the other. -/
def CharClass.areApart : List Nat → List Nat → Bool
  | [], _ => true
  | [_], _ => false
  | low :: high :: bounds, others => passes low high (areApart bounds) others

theorem CharClass.not_contains_of_passes {low high : Nat} {next : List Nat → Bool}
    {bounds others : List Nat} {c : Char}
    (behind : ∀ others, next others = true → CharClass.contains ⟨bounds⟩ c = true →
      CharClass.contains ⟨others⟩ c = false)
    (inside : CharClass.contains ⟨low :: high :: bounds⟩ c = true)
    (passed : passes low high next others = true) :
    CharClass.contains ⟨others⟩ c = false := by
  obtain ⟨above, below⟩ := (contains_pair low high bounds c).mp inside
  fun_induction passes low high next others with
  | case1 => rfl
  | case2 => cases passed
  | case3 low' high' others before =>
    by_contra other
    obtain ⟨above', -⟩ := (contains_pair low' high' others c).mp (Bool.of_not_eq_false other)
    have later := below.resolve_left (by omega)
    exact other (behind _ passed later)
  | case4 low' high' others _ ih =>
    rw [Bool.and_eq_true, decide_eq_true_eq] at passed
    rw [Bool.eq_false_iff, Ne, contains_pair, ih passed.2]
    simp only [Bool.false_eq_true, or_false]
    omega

theorem CharClass.not_contains_of_apart {bounds others : List Nat} {c : Char}
    (apart : areApart bounds others = true) (inside : CharClass.contains ⟨bounds⟩ c = true) :
    CharClass.contains ⟨others⟩ c = false := by
  induction bounds using List.twoStepInduction generalizing others with
  | nil => cases inside
  | singleton => cases apart
  | cons_cons low high bounds ih => exact not_contains_of_passes (fun _ => ih) inside apart

theorem isBlank_of_isWord {c : Char} (word : isWord c = true) : isBlank c = false := by
  by_cases small : c.toNat < 128
  · rw [isWord_of_isAsciiWord small] at word
    exact Name.isBlank_of_isAsciiWord word
  · rw [isWord, if_neg small] at word
    exact CharClass.not_contains_of_apart (by decide +kernel) word

theorem isWord_of_isBlank {c : Char} (blank : isBlank c = true) : isWord c = false := by
  rw [Bool.eq_false_iff]
  intro word
  rw [isBlank_of_isWord word] at blank
  cases blank

end SwanModel.Text

namespace SwanModel.Name

open Text Printing

variable {word cs front : List Char}

/-! ### The last occurrence of a word -/

def StandsAt (word cs front : List Char) : Prop := ∃ rest, cs = front ++ (word ++ rest)

theorem StandsAt.infix (stands : StandsAt word cs front) : word <:+: cs := by
  obtain ⟨rest, rfl⟩ := stands
  exact ⟨front, rest, by simp⟩

theorem beforeLast_eq_none_iff : beforeLast word cs = none ↔ ¬word <:+: cs := by
  induction cs with
  | nil => cases word <;> simp [beforeLast]
  | cons c cs ih =>
    rw [beforeLast, List.infix_cons_iff, ← List.isPrefixOf_iff_prefix, not_or, ← ih]
    cases beforeLast word cs with
    | some front => simp
    | none => cases word.isPrefixOf (c :: cs) <;> simp

/-- A word stands behind the text before its last occurrence, and behind no longer one. -/
theorem standsAt_of_beforeLast (found : beforeLast word cs = some front) :
    StandsAt word cs front ∧ ∀ other, StandsAt word cs other → other.length ≤ front.length := by
  induction cs generalizing front with
  | nil =>
    cases word with
    | cons => cases found
    | nil =>
      cases found
      refine ⟨⟨[], rfl⟩, ?_⟩
      rintro other ⟨rest, same⟩
      simp [(List.append_eq_nil_iff.mp same.symm).1]
  | cons c cs ih =>
    rw [beforeLast] at found
    -- Another place is at the front, or it is one of the rest of the text.
    split at found
    case h_1 later inRest =>
      cases found
      obtain ⟨⟨rest, stands⟩, longest⟩ := ih inRest
      refine ⟨⟨rest, congrArg (List.cons c) stands⟩, ?_⟩
      rintro (_ | ⟨d, other⟩) ⟨behind, same⟩
      · exact Nat.zero_le _
      · exact Nat.succ_le_succ (longest other ⟨behind, (List.cons.inj same).2⟩)
    case h_2 nowhere =>
      split at found
      case isFalse => cases found
      case isTrue starts =>
        cases found
        obtain ⟨rest, same⟩ := List.isPrefixOf_iff_prefix.mp starts
        refine ⟨⟨rest, same.symm⟩, ?_⟩
        rintro (_ | ⟨d, other⟩) ⟨behind, same⟩
        · exact Nat.zero_le _
        · have inRest : StandsAt word cs other := ⟨behind, (List.cons.inj same).2⟩
          exact absurd inRest.infix (beforeLast_eq_none_iff.mp nowhere)

theorem beforeLast_eq_some_iff : beforeLast word cs = some front ↔
    StandsAt word cs front ∧ ∀ other, StandsAt word cs other → other.length ≤ front.length := by
  refine ⟨standsAt_of_beforeLast, ?_⟩
  rintro ⟨stands, longest⟩
  cases found : beforeLast word cs with
  | none => exact absurd stands.infix (beforeLast_eq_none_iff.mp found)
  | some other =>
    obtain ⟨there, longest'⟩ := standsAt_of_beforeLast found
    have sameLength := Nat.le_antisymm (longest other there) (longest' front stands)
    obtain ⟨rest, text⟩ := stands
    obtain ⟨rest', text'⟩ := there
    rw [(List.append_inj (text'.symm.trans text) sameLength).1]

/-! ### The grammar -/

def EndsValue (cs value : List Char) : Prop := '\n' ∉ value ∧ StandsAt pragmaEnd cs value

/-- A text that is decoded, its key and its value. The value ends at the last end mark of its
line. -/
inductive IsPragma : List Char → List Char → List Char → Prop where
  | mk {blanks key value rest : List Char} {blank : Char} (someBlank : blanks ≠ [])
      (areBlanks : ∀ c ∈ blanks, isBlank c = true) (filled : key ≠ []) (isKey : ∀ c ∈ key,
        isWord c = true)
      (separates : isBlank blank = true) (ends : EndsValue rest value)
      (last : ∀ other, EndsValue rest other → other.length ≤ value.length) :
      IsPragma (pragmaWord ++ (blanks ++ (key ++ blank :: rest))) key value

/-- An end mark has no line feed in it, so it is looked for behind a value of one line. -/
theorem standsAt_line (cs value : List Char) :
    StandsAt pragmaEnd (cs.takeWhile (· != '\n')) value ↔ EndsValue cs value := by
  have plain : ∀ c ∈ pragmaEnd, (c != '\n') = true := List.all_eq_true.mp (by decide +kernel)
  constructor
  · rintro ⟨rest, line⟩
    refine ⟨fun feed => ?_, rest ++ cs.dropWhile (· != '\n'), ?_⟩
    · have inLine : '\n' ∈ cs.takeWhile (· != '\n') := line ▸ List.mem_append_left _ feed
      exact absurd (List.mem_takeWhile_imp inLine) (by decide)
    · calc cs = cs.takeWhile (· != '\n') ++ cs.dropWhile (· != '\n') :=
          List.takeWhile_append_dropWhile.symm
        _ = _ := by rw [line]; simp
  · rintro ⟨oneLine, rest, rfl⟩
    have inLine : ∀ c ∈ value, (c != '\n') = true := fun c inside => by
      simpa using fun same : c = '\n' => oneLine (same ▸ inside)
    exact ⟨rest.takeWhile (· != '\n'),
      by rw [List.takeWhile_append_of_pos inLine, List.takeWhile_append_of_pos plain]⟩

theorem pragmaBody_eq_some_iff {s : String} {body : List Char} : pragmaBody s = some body ↔
    ∃ blanks, blanks ≠ [] ∧ (∀ c ∈ blanks, isBlank c = true) ∧
      s.toList = pragmaWord ++ (blanks ++ body) ∧ Stops isBlank body := by
  unfold pragmaBody
  constructor
  · intro found
    split at found
    case h_2 => cases found
    case h_1 c cs opened =>
      split at found
      case isFalse => cases found
      case isTrue blank =>
        cases found
        refine ⟨c :: cs.takeWhile isBlank, by simp, List.forall_mem_cons.mpr ⟨blank, ?_⟩, ?_,
          stops_dropWhile _ _⟩
        · exact List.all_eq_true.mp List.all_takeWhile
        · rw [dropWord_eq_some_iff.mp opened, List.cons_append, List.takeWhile_append_dropWhile]
  · rintro ⟨blanks, someBlank, areBlanks, text, stops⟩
    obtain ⟨c, blanks, rfl⟩ := List.exists_cons_of_ne_nil someBlank
    rw [List.forall_mem_cons] at areBlanks
    have opened : dropWord pragmaWord s.toList = some (c :: (blanks ++ body)) :=
      dropWord_eq_some_iff.mpr text
    simp only [opened, areBlanks.1, if_true, (cut areBlanks.2 stops).2]

theorem pragmaKey_eq_some_iff {key rest : List Char} : pragmaKey cs = some (key, rest) ↔
    key ≠ [] ∧ (∀ c ∈ key, isWord c = true) ∧ ∃ blank, isBlank blank = true ∧
      cs = key ++ blank :: rest := by
  unfold pragmaKey
  constructor
  · intro found
    split at found
    case h_1 => cases found
    case h_3 => cases found
    case h_2 c behind next filled =>
      split at found
      case isFalse => cases found
      case isTrue blank =>
        cases found
        refine ⟨filled, List.all_eq_true.mp List.all_takeWhile, c, blank, ?_⟩
        rw [← next, List.takeWhile_append_dropWhile]
  · rintro ⟨filled, isKey, blank, separates, rfl⟩
    have stops : Stops isWord (blank :: rest) := isWord_of_isBlank separates
    have row := cut isKey stops
    obtain ⟨c, key, rfl⟩ := List.exists_cons_of_ne_nil filled
    simp only [row.1, row.2, separates, if_true]

theorem readPragma_of_isPragma {s : String} {key value : List Char}
    (isPragma : IsPragma s.toList key value) :
    readPragma s = some ⟨String.ofList key, String.ofList (strip value)⟩ := by
  generalize text : s.toList = cs at isPragma
  cases isPragma with
  | @mk blanks _ _ rest blank someBlank areBlanks filled isKey separates ends last =>
    have stops : Stops isBlank (key ++ blank :: rest) :=
      stops_of_none (fun c inside => isBlank_of_isWord (isKey c inside)) filled _
    have opened := pragmaBody_eq_some_iff.mpr ⟨blanks, someBlank, areBlanks, text, stops⟩
    have keyed : pragmaKey (key ++ blank :: rest) = some (key, rest) :=
      pragmaKey_eq_some_iff.mpr ⟨filled, isKey, blank, separates, rfl⟩
    have ended : beforeLast pragmaEnd (rest.takeWhile (· != '\n')) = some value := by
      simp only [beforeLast_eq_some_iff, standsAt_line]
      exact ⟨ends, last⟩
    rw [readPragma, opened]
    change (pragmaKey _ >>= _) = _
    rw [keyed]
    change (beforeLast pragmaEnd (rest.takeWhile (· != '\n')) >>= _) = _
    rw [ended]
    rfl

/-- The texts of the grammar are decoded, and no others. -/
theorem readPragma_eq_some_iff {s : String} {parts : PragmaParts} : readPragma s = some parts ↔
    ∃ value, IsPragma s.toList parts.key.toList value ∧ parts.value = String.ofList (strip value) := by
  constructor
  · intro found
    obtain ⟨body, opened, found⟩ := Option.bind_eq_some_iff.mp found
    obtain ⟨⟨key, rest⟩, keyed, found⟩ := Option.bind_eq_some_iff.mp found
    obtain ⟨value, ended, found⟩ := Option.bind_eq_some_iff.mp found
    cases found
    obtain ⟨blanks, someBlank, areBlanks, text, -⟩ := pragmaBody_eq_some_iff.mp opened
    obtain ⟨filled, isKey, blank, separates, rfl⟩ := pragmaKey_eq_some_iff.mp keyed
    obtain ⟨ends, last⟩ := beforeLast_eq_some_iff.mp ended
    simp only [standsAt_line] at ends last
    refine ⟨value, ?_, rfl⟩
    rw [text, String.toList_ofList]
    exact .mk someBlank areBlanks filled isKey separates ends last
  · rintro ⟨value, isPragma, same⟩
    rw [readPragma_of_isPragma isPragma, String.ofList_toList, ← same]

/-! ### Pragmas as they are written -/

structure WrittenPragma where
  key : String
  value : String
  filled : key.toList ≠ []
  isKey : ∀ c ∈ key.toList, isWord c = true
  oneLine : '\n' ∉ value.toList

namespace WrittenPragma

variable (pragma : WrittenPragma)

def unmarked : String := "pragma " ++ pragma.key ++ " " ++ pragma.value ++ "#end"

def text : String := "#" ++ pragma.unmarked

theorem isPragma_unmarked : IsPragma pragma.unmarked.toList pragma.key.toList pragma.value.toList := by
  have text : pragma.unmarked.toList =
      pragmaWord ++
        ([' '] ++ (pragma.key.toList ++ ' ' :: (pragma.value.toList ++ (pragmaEnd ++ [])))) := by
    have opening : "pragma ".toList = pragmaWord ++ [' '] := by decide +kernel
    have blank : " ".toList = [' '] := by decide
    have ending : "#end".toList = pragmaEnd := rfl
    simp only [unmarked, String.toList_append, opening, blank, ending, List.append_assoc,
      List.append_nil, List.cons_append, List.nil_append]
  rw [text]
  refine .mk (by simp) (List.forall_mem_singleton.mpr rfl) pragma.filled pragma.isKey rfl
    ⟨pragma.oneLine, [], rfl⟩ ?_
  rintro other ⟨-, rest, same⟩
  -- No end mark stands behind the one that ends the text.
  have lengths := congrArg List.length same
  simp only [List.length_append, List.length_nil] at lengths
  omega

theorem readPragma_text : readPragma pragma.text = none := by
  rw [Option.eq_none_iff_forall_ne_some]
  intro parts found
  obtain ⟨value, isPragma, -⟩ := readPragma_eq_some_iff.mp found
  have marked : pragma.text.toList = '#' :: pragma.unmarked.toList := by
    rw [text, String.toList_append]
    rfl
  rw [marked] at isPragma
  cases isPragma

end WrittenPragma

/-- A text gives a key and a value exactly if it is of the grammar. A pragma as it is written gives
none, whatever its key and its value are, and neither does the construct made of it. The same text
without the mark gives its key, and its value without the blanks around it. -/
theorem written_pragmas_are_not_decoded (s : String) (parts : PragmaParts) (pragma : WrittenPragma) :
    (readPragma s = some parts ↔
      ∃ value, IsPragma s.toList parts.key.toList value ∧ parts.value = String.ofList (strip value)) ∧
    Work.showAtom (.pragma (.text pragma.text)) = .ok (.pragma pragma.text none) ∧
    Work.showAtom (.pragma (.text pragma.unmarked)) =
      .ok (.pragma pragma.unmarked (some ⟨pragma.key, String.ofList (strip pragma.value.toList)⟩)) := by
  refine ⟨readPragma_eq_some_iff, ?_, ?_⟩
  · rw [Work.showAtom, pragma.readPragma_text]
  · rw [Work.showAtom, readPragma_of_isPragma pragma.isPragma_unmarked, String.ofList_toList]

/-- The pragma with the key `k` and the value `v` is not decoded. -/
theorem written_pragma_is_missed :
    (∃ pragma : WrittenPragma, pragma.text = "#pragma k v#end" ∧ pragma.key = "k" ∧ pragma.value = "v") ∧
      Work.showAtom (.pragma (.text "#pragma k v#end")) = .ok (.pragma "#pragma k v#end" none) := by
  refine ⟨⟨⟨"k", "v", by decide, List.all_eq_true.mp (by decide +kernel), by decide⟩, ?_, rfl, rfl⟩, ?_⟩
  · decide +kernel
  · have missed : readPragma "#pragma k v#end" = none := by decide +kernel
    rw [Work.showAtom, missed]

end SwanModel.Name
