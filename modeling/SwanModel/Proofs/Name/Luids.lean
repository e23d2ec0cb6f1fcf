import SwanModel.Proofs.Name.Spelling
import SwanModel.Session.Step

/-!
# The luids of equations

The recogniser of luids passes over one more number sign and over a line feed at the end, so that
some luids without markups are no words.
-/

namespace SwanModel

namespace Name

open Text Printing

/-! ### The grammar of luids -/

def isLuidChar (c : Char) : Bool := isWord c || c == '-'

def IsLuidWord : List Char → Prop
  | [] => False
  | c :: rest => isWord c = true ∧ ∀ d ∈ rest, isLuidChar d = true

instance : DecidablePred IsLuidWord
  | [] => inferInstanceAs (Decidable False)
  | c :: rest => decidable_of_iff (isWord c = true ∧
      rest.all isLuidChar = true) (and_congr_right' List.all_eq_true)

variable {cs word feed : List Char}

theorem stops_luidChar (ended : atEnd feed = true) : Stops isLuidChar feed := by
  rcases atEnd_iff.mp ended with rfl | rfl
  · trivial
  · exact (by decide : isLuidChar '\n' = false)

theorem isLuidBody_iff : isLuidBody cs = true ↔ ∃ word, IsLuidWord word ∧ Ends word cs := by
  simp only [ends_iff]
  constructor
  · intro accepted
    cases cs with
    | nil => cases accepted
    | cons c rest =>
      obtain ⟨first, ended⟩ := Bool.and_eq_true_iff.mp accepted
      refine ⟨c :: rest.takeWhile isLuidChar, ⟨first, List.all_eq_true.mp List.all_takeWhile⟩, _,
        ended, ?_⟩
      rw [List.cons_append]
      exact congrArg (c :: ·) List.takeWhile_append_dropWhile.symm
  · rintro ⟨word, isWord, feed, ended, rfl⟩
    cases word with
    | nil => exact isWord.elim
    | cons c word =>
      have rest : (word ++ feed).dropWhile isLuidChar = feed := (cut isWord.2 (stops_luidChar ended)).2
      exact Bool.and_eq_true_iff.mpr ⟨isWord.1, by rw [← rest] at ended; exact ended⟩

/-- No word begins with a number sign, so that dropping one from a word leaves the word. -/
theorem IsLuidWord.ne_hash (isWord : IsLuidWord word) : word.head? ≠ some '#' := by
  cases word with
  | nil => exact isWord.elim
  | cons c word =>
    rintro ⟨⟩
    exact absurd isWord.1 (by decide)

theorem dropHash_cases (cs : List Char) : cs = '#' :: dropHash cs ∨ dropHash cs = cs := by
  unfold dropHash
  split
  · exact .inl rfl
  · exact .inr rfl

theorem dropHash_of_ne (other : cs.head? ≠ some '#') : dropHash cs = cs := by
  rcases dropHash_cases cs with same | same
  · rw [same] at other
    exact absurd rfl other
  · exact same

theorem IsLuidWord.head?_of_ends (isWord : IsLuidWord word) (ends : Ends word cs) :
    cs.head? ≠ some '#' := by
  have first := isWord.ne_hash
  cases word with
  | nil => exact isWord.elim
  | cons c word =>
    rcases ends with rfl | rfl
    · exact first
    · exact first

/-- A text is taken for a luid if it is a word, or if it becomes one when a number sign in front of
it, a line feed behind it, or both are taken off. -/
theorem isLuid_ofList_iff :
    isLuid (String.ofList cs) = true ↔
      ∃ word, IsLuidWord word ∧ (Ends word cs ∨ Ends ('#' :: word) cs) := by
  rw [isLuid, String.toList_ofList, isLuidBody_iff]
  refine exists_congr fun word => and_congr_right fun isWord => ?_
  have signed (rest : List Char) : Ends ('#' :: word) ('#' :: rest) ↔ Ends word rest := by simp [Ends]
  constructor
  · intro ends
    rcases dropHash_cases cs with same | same
    · rw [same]
      exact .inr ((signed _).mpr ends)
    · exact .inl (same ▸ ends)
  · rintro (ends | ends)
    · rwa [dropHash_of_ne (isWord.head?_of_ends ends)]
    · rcases ends with rfl | rfl
      · exact .inl rfl
      · exact .inr rfl

/-! ### The texts of luids -/

def stem (name : String) : String := String.ofList (dropHash name.toList)

theorem luidText_eq (name : String) :
    luidText name = if isLuid (stem name) then "#" ++ stem name else enclose "" ("#" ++ stem name) := by
  change protect (!isLuid (stem name)) "" ("#" ++ stem name) = _
  cases isLuid (stem name) <;> rfl

theorem toList_luidText (name : String) :
    (luidText name).toList = if isLuid (stem name) then '#' :: (stem name).toList
      else '\x7b' :: '%' :: '#' :: ((stem name).toList ++ ['%', '\x7d']) := by
  rw [luidText_eq]
  split
  · simp
  · simp [enclose]

/-- The luid tells the name, but for a number sign in front of it. -/
theorem luidText_eq_iff (name other : String) : luidText name = luidText other ↔
    stem name = stem other := by
  constructor
  · intro same
    have same := congrArg String.toList same
    rw [toList_luidText, toList_luidText] at same
    split at same <;> split at same
    · exact String.toList_injective (List.cons.inj same).2
    · cases same
    · cases same
    · exact String.toList_injective (by simpa using same)
  · intro same
    rw [luidText_eq, luidText_eq, same]

/-- What the recogniser takes for a word: a word, with one more number sign in front of it or
without, and with a line feed behind it or without. -/
def PassesForWord (cs : List Char) : Prop :=
  ∃ word, IsLuidWord word ∧ (Ends word cs ∨ Ends ('#' :: word) cs)

theorem isLuid_stem_iff (name : String) : isLuid (stem name) = true ↔
    PassesForWord (stem name).toList := by
  rw [stem, String.toList_ofList]
  exact isLuid_ofList_iff

/-- The luid of a name is a number sign and a word, or stands between markups, unless the name only
passes for a word. -/
theorem luidText_sound_iff (name : String) :
    ((∃ word, IsLuidWord word ∧ luidText name = "#" ++ String.ofList word) ∨
        luidText name = enclose "" ("#" ++ stem name)) ↔
      (PassesForWord (stem name).toList → IsLuidWord (stem name).toList) := by
  by_cases passes : PassesForWord (stem name).toList
  · have text : luidText name = "#" ++ stem name := by
      rw [luidText_eq, if_pos ((isLuid_stem_iff name).mpr passes)]
    have bare : "#" ++ stem name ≠ enclose "" ("#" ++ stem name) := by
      intro same
      simpa [enclose] using congrArg String.toList same
    simp only [text, bare, or_false, passes, true_imp_iff]
    constructor
    · rintro ⟨word, isWord, same⟩
      have same : '#' :: (stem name).toList = '#' :: word := by simpa using congrArg String.toList same
      rwa [(List.cons.inj same).2]
    · intro isWord
      exact ⟨_, isWord, by rw [String.ofList_toList]⟩
  · have text : luidText name = enclose "" ("#" ++ stem name) := by
      rw [luidText_eq, if_neg (fun accepted => passes ((isLuid_stem_iff name).mp accepted))]
    simp [text, passes]

end Name

/-! ### The luids of equations in a store -/

inductive NamedEquation : Form → List Term → String → Prop
  | byCase {lhs : Term} {name : String} : NamedEquation (.equation .byCase) [lhs, .text name] name
  | machine {lhs items : Term} {name : String} :
    NamedEquation (.equation .machine) [lhs, items, .text name] name
  | activateIf {activation lhs : Term} {name : String} :
      NamedEquation (.equation .activateIf) [activation, lhs, .text name] name
  | activateWhen {condition branches lhs : Term} {name : String} :
      NamedEquation (.equation .activateWhen) [condition, branches, lhs, .text name] name

variable {w v : Workspace} {id other : Nat} {form form' : Form} {parts parts' : List Term}
  {name name' : String}

theorem Store.form?_of_view {store : Store} (shown : store.view (.ref id) = .ok (.node form parts)) :
    store.form? (.ref id) = some form := by
  unfold Store.view Store.viewInside at shown
  rw [if_neg (by simp)] at shown
  simp only [Store.form?]
  split at shown
  · rename_i items found
    cases viewed : items.mapM (store.viewInside store.cells.size [id]) <;> rw [viewed] at shown <;>
      cases shown
  · rename_i form' slots owner found
    rw [found]
    obtain ⟨views, -, same⟩ := ok_of_bind shown
    cases same
    rfl
  · cases shown

theorem luidLayout_text (filled : name ≠ "") :
    luidLayout (Term.text name).printed = .ok (" " ++ luidText name) := by
  have truthy : (Term.text name).printed.isTruthy = true := by
    change (!name.isEmpty) = true
    simpa using filled
  rw [luidLayout, if_pos truthy]
  rfl

theorem NamedEquation.luidOf (named : NamedEquation form parts name) (filled : name ≠ "") :
    Work.luidOf form (Term.printedAll parts) [] = .ok (.text (" " ++ luidText name)) := by
  have layout := luidLayout_text filled
  cases named <;> exact congrArg (Except.map Term.text) layout

theorem NamedEquation.call_luid (named : NamedEquation form parts name) (filled : name ≠ "")
    (shown : w.store.view (.ref id) = .ok (.node form parts)) (reader : Reader) :
    perform (Work.call (.ref id) .luid []) reader w = (.ok (.text (" " ++ luidText name)), w) := by
  have isNode := Store.form?_of_view shown
  have asked : perform (Work.perform id .luid []) reader w =
      (.ok (.text (" " ++ luidText name)), w) := by
    refine observe_ok ?_
    simp only [List.mapM_nil, pure_bind, shown]
    exact named.luidOf filled
  have stored : perform Work.store reader w = (.ok w.store, w) := rfl
  unfold Work.call
  rw [perform_bind_ok stored, isNode]
  exact asked

open Name in
/-- A state machine or an activation with a name answers its luid. Names have the same luid exactly
if they are the same but for a number sign in front. The luid has no markups exactly if the rest of
the name passes for a word; so it is a number sign and a word, or stands between markups, exactly if
the rest of the name does not pass for a word without being one. -/
theorem luids_of_equations (named : NamedEquation form parts name) (filled : name ≠ "")
    (shown : w.store.view (.ref id) = .ok (.node form parts)) (named' : NamedEquation form' parts' name')
    (filled' : name' ≠ "") (shown' : v.store.view (.ref other) = .ok (.node form' parts'))
    (reader : Reader) :
    ∃ text text', perform (Work.call (.ref id) .luid []) reader w = (.ok (.text text), w) ∧
      perform (Work.call (.ref other) .luid []) reader v = (.ok (.text text'), v) ∧
      (text = text' ↔ stem name = stem name') ∧
      (PassesForWord (stem name).toList → text = " #" ++ stem name) ∧
      (¬ PassesForWord (stem name).toList → text = " " ++ enclose "" ("#" ++ stem name)) ∧
      (((∃ word, IsLuidWord word ∧ text = " #" ++ String.ofList word) ∨
        text = " " ++ enclose "" ("#" ++ stem name)) ↔
          (PassesForWord (stem name).toList → IsLuidWord (stem name).toList)) := by
  have blank (a b : String) : " " ++ a = " " ++ b ↔ a = b := by simp
  refine ⟨_, _, named.call_luid filled shown reader, named'.call_luid filled' shown' reader, ?_, ?_,
    ?_, ?_⟩
  · rw [blank]
    exact luidText_eq_iff name name'
  · intro passes
    rw [luidText_eq, if_pos ((isLuid_stem_iff name).mpr passes)]
    rfl
  · intro other
    rw [luidText_eq, if_neg (fun accepted => other ((isLuid_stem_iff name).mp accepted))]
  · rw [← luidText_sound_iff name, blank]
    refine or_congr_left (exists_congr fun word => and_congr_right fun _ => ?_)
    exact blank (luidText name) ("#" ++ String.ofList word)

def automata (names : List String) : Workspace where
  store := ⟨(names.map fun name =>
    .node (.equation .machine) [.atom .absent, .atom (.list []), .atom (.text name)] .none).toArray⟩

/-- A name with two number signs and a name with a blank have different luids. -/
theorem luids_of_two_automata :
    (automata ["##a", "a b"]).store.view (.ref 0) =
      .ok (.node (.equation .machine) [.absent, .list [], .text "##a"]) ∧
        (automata ["##a", "a b"]).store.view (.ref 1) =
          .ok (.node (.equation .machine) [.absent, .list [], .text "a b"]) ∧
      ∃ text text', perform (Work.call (.ref 0) .luid []) Reader.none (automata ["##a", "a b"]) =
          (.ok (.text text), automata ["##a", "a b"]) ∧
        perform (Work.call (.ref 1) .luid []) Reader.none (automata ["##a", "a b"]) =
          (.ok (.text text'), automata ["##a", "a b"]) ∧ text ≠ text' := by
  have shown : (automata ["##a", "a b"]).store.view (.ref 0) =
      .ok (.node (.equation .machine) [.absent, .list [], .text "##a"]) := rfl
  have shown' : (automata ["##a", "a b"]).store.view (.ref 1) =
      .ok (.node (.equation .machine) [.absent, .list [], .text "a b"]) := rfl
  obtain ⟨text, text', answer, answer', same, -⟩ :=
    luids_of_equations .machine (by decide) shown .machine (by decide) shown' Reader.none
  exact ⟨shown, shown', text, text', answer, answer', fun equal => absurd (same.mp equal) (by decide)⟩

open Name in
/-- Of two number signs one is left in a luid without markups, and so is a line feed, though neither
is part of a word. -/
theorem automaton_luid_is_no_word :
    perform (Work.call (.ref 0) .luid []) Reader.none (automata ["##a"]) =
      (.ok (.text " ##a"), automata ["##a"]) ∧
        perform (Work.call (.ref 0) .luid []) Reader.none (automata ["a\n"]) =
          (.ok (.text " #a\n"), automata ["a\n"]) ∧
      ¬ IsLuidWord "#a".toList ∧ ¬ IsLuidWord "a\n".toList := by
  have signs : luidText "##a" = "##a" := by decide +kernel
  have feed : luidText "a\n" = "#a\n" := by decide +kernel
  have answer (name : String) (filled : name ≠ "") :
      perform (Work.call (.ref 0) .luid []) Reader.none (automata [name]) =
        (.ok (.text (" " ++ luidText name)), automata [name]) :=
          NamedEquation.machine.call_luid filled rfl Reader.none
  refine ⟨?_, ?_, by decide, by decide⟩
  · rw [answer "##a" (by decide), signs]
    rfl
  · rw [answer "a\n" (by decide), feed]
    rfl

end SwanModel
