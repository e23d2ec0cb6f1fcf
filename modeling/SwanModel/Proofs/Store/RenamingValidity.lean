import Mathlib.Data.Set.List
import SwanModel.Proofs.Numeral.Classification
import SwanModel.Proofs.Store.ActivationValidity

/-!
# Whether renamings are valid

The check of a renaming compares the index with the new name by members that neither has, so that it
breaks down where there is something to compare.
-/

namespace SwanModel

open Work SwanModel.Convert

/-! ### Renamings as they are written -/

/-- What is renamed: a position, as a number or by its digits, or a name. -/
inductive RenamedIndex where
  | number (n : Int)
  | numeral (digits : String)
  | name (id : Ident)

structure WrittenRenaming where
  index : RenamedIndex
  isShortcut : Bool
  new : Option Ident

def Ident.text (id : Ident) : String :=
  (if id.pragmas.isEmpty then "" else " ".intercalate id.pragmas ++ " ") ++ id.name

namespace RenamedIndex

def tag : RenamedIndex → String
  | number _ | numeral _ => "RenamingByPos"
  | name _ => "RenamingByName"

def tree : RenamedIndex → ParseTree
  | number n => .number n
  | numeral digits => .text digits
  | name id => id.tree

def term : RenamedIndex → Term
  | number n => .node (.expr .literal) [.number n, .constant (.literalKind .numeric)]
  | numeral digits => .node (.expr .literal) [.text digits, .constant (.literalKind .numeric)]
  | name id => id.term

def text : RenamedIndex → String
  | number n => Numeral.textOfInt n
  | numeral digits => digits
  | name id => id.text

end RenamedIndex

namespace WrittenRenaming

def tree (r : WrittenRenaming) (fields : List (String × ParseTree)) : ParseTree :=
  .node (some r.index.tag) [r.index.tree, .truth r.isShortcut, Ident.treeOf? r.new] fields

/-- Whether a renaming is kept as a short form: by position as it is marked, by name as it is marked
or, if there is a new name, by whether it is the old one. -/
def keptShort (r : WrittenRenaming) : Bool :=
  match r.index, r.new with
  | .name old, some new => old.name == new.name
  | _, _ => r.isShortcut

def term (r : WrittenRenaming) : Term :=
  .node (.part .groupRenaming) [r.index.term, Ident.termOf? r.new, .truth r.keptShort]

def text (r : WrittenRenaming) : String :=
  match r.new, r.isShortcut with
  | some new, _ => r.index.text ++ ": " ++ new.text
  | none, true => r.index.text ++ ":"
  | none, false => r.index.text

/-- What the check says: it breaks down for a new name in what is kept as a short form. -/
def verdict (r : WrittenRenaming) : Except Error Bool :=
  if r.new.isSome && r.keptShort then .error .missingMember else .ok true

end WrittenRenaming

/-! ### The grammar of renamings -/

variable {tree : ParseTree} {known : Rule → ParseTree → Bool}

theorem isName_iff : tree.isName = true ↔ ∃ id : Ident, tree = id.tree := by
  constructor
  · intro isName
    unfold ParseTree.isName at isName
    split at isName
    · rename_i name pragmas
      have texts : ∀ p ∈ pragmas, p ∈ Set.range ParseTree.text := by
        intro p inside
        have isText := List.all_eq_true.mp isName p inside
        cases p with
        | text s => exact ⟨s, rfl⟩
        | _ => cases isText
      obtain ⟨ss, rfl⟩ : pragmas ∈ Set.range (List.map ParseTree.text) := Set.range_list_map _ ▸ texts
      exact ⟨⟨name, ss⟩, rfl⟩
    · cases isName
  · rintro ⟨id, rfl⟩
    simp [Ident.tree, ParseTree.isName, ParseTree.isText]

theorem describedUpTo_identifier {n : Nat}
    (described : ParseTree.describedUpTo n .identifier tree = true) : ∃ id : Ident, tree = id.tree := by
  cases n with
  | zero => cases described
  | succ n => exact isName_iff.mp (hasOne_of_any described).only

theorem accepts_identifier {n : Nat}
    (accepted : (Grammar.maybe .identifier).accepts (ParseTree.describedUpTo n) tree = true) :
    ∃ id, tree = Ident.treeOf? id := by
  rcases TreeShape.accepts_option accepted with rfl | ⟨value, rfl, -, described⟩
  · exact ⟨none, rfl⟩
  · obtain ⟨id, rfl⟩ := describedUpTo_identifier described
    exact ⟨some id, rfl⟩

theorem describedUpTo_tree (id : Ident) (n : Nat) :
    ParseTree.describedUpTo (n + 1) .identifier id.tree = true := by
  have isName := isName_iff.mpr ⟨id, rfl⟩
  exact List.any_eq_true.mpr ⟨_, List.mem_cons_self, isName⟩

/-- The renamings that the grammar describes are those that can be written. -/
theorem describedBy_groupRenaming_iff :
    tree.describedBy .groupRenaming = true ↔
      ∃ (r : WrittenRenaming) (fields : List (String × ParseTree)), tree = r.tree fields := by
  constructor
  · intro described
    unfold ParseTree.describedBy at described
    cases height : tree.height with
    | zero =>
      rw [height] at described
      cases described
    | succ n =>
      rw [height] at described
      rcases hasOne_of_any described with accepted | accepted | ⟨⟨⟩⟩
      · obtain ⟨_, fields, rfl, isNumeral, isShortcut, isNew, ⟨⟩⟩ := TreeShape.accepts_case accepted
        obtain ⟨b, rfl⟩ := isFlag_eq isShortcut
        obtain ⟨new, rfl⟩ := accepts_identifier isNew
        rename_i position
        cases position with
        | number n => exact ⟨⟨.number n, b, new⟩, fields, rfl⟩
        | text digits => exact ⟨⟨.numeral digits, b, new⟩, fields, rfl⟩
        | _ => cases isNumeral
      · obtain ⟨_, fields, rfl, isOld, isShortcut, isNew, ⟨⟩⟩ := TreeShape.accepts_case accepted
        obtain ⟨b, rfl⟩ := isFlag_eq isShortcut
        obtain ⟨new, rfl⟩ := accepts_identifier isNew
        obtain ⟨old, rfl⟩ := describedUpTo_identifier isOld
        exact ⟨⟨.name old, b, new⟩, fields, rfl⟩
  · rintro ⟨⟨index, b, new⟩, fields, rfl⟩
    have isNew : (Grammar.maybe .identifier).accepts (ParseTree.describedUpTo 1)
        (Ident.treeOf? new) = true := by
      cases new with
      | none => rfl
      | some id =>
        simp only [Grammar.maybe, Ident.treeOf?, TreeShape.accepts, describedUpTo_tree, Bool.and_true]
        rfl
    have isFlag : Grammar.flag.accepts (ParseTree.describedUpTo 1) (.truth b) = true := rfl
    refine ParseTree.describedBy_of_upTo (n := 2) ?_
    rw [ParseTree.describedUpTo, List.any_eq_true]
    cases index with
    | number | numeral =>
      refine ⟨_, List.mem_cons_self, ?_⟩
      simp [WrittenRenaming.tree, RenamedIndex.tag, RenamedIndex.tree, TreeShape.accepts,
        TreeShape.acceptsItems, isNew, isFlag, ParseTree.isNumeral]
    | name old =>
      refine ⟨_, List.mem_cons_of_mem _ List.mem_cons_self, ?_⟩
      simp [WrittenRenaming.tree, RenamedIndex.tag, RenamedIndex.tree, TreeShape.accepts,
        TreeShape.acceptsItems, isNew, isFlag, describedUpTo_tree]

/-! ### Conversion -/

theorem convert_renaming (r : WrittenRenaming) (fields : List (String × ParseTree))
    (reader : Reader) (state : Reading) :
    perform (convert .groupRenaming (r.tree fields)) reader state = (.ok r.term, state) := by
  obtain ⟨index, isShortcut, new⟩ := r
  cases index with
  | number n => exact Numeral.groupRenaming_position (.number n) isShortcut new fields reader state
  | numeral digits =>
    exact Numeral.groupRenaming_position (.text digits) isShortcut new fields reader state
  | name old =>
    rw [convert, perform_bind_ok (perform_read reader state)]
    change perform (groupRenaming
      (.node (some "RenamingByName") [old.tree, .truth isShortcut, Ident.treeOf? new] fields))
        reader state = _
    simp only [groupRenaming, tag_node, itemAt_first, itemAt_second, itemAt_third, pure_bind,
      identifier_tree, optional_identifier]
    cases new <;> rfl

/-! ### Printing -/

theorem Ident.print_term (id : Ident) : id.term.print = .ok id.text := by
  have texts (ss : List String) : (Term.list (ss.map .text)).printed.texts = .ok ss := by
    rw [Printed.texts, items_printed, ok_bind, List.map_map]
    induction ss with
    | nil => rfl
    | cons s ss ih =>
      rw [List.map_cons, List.mapM_cons, ih]
      rfl
  obtain ⟨name, pragmas⟩ := id
  have front : pragmasLayout (Term.list (pragmas.map .text)).printed =
      .ok (if pragmas.isEmpty then "" else " ".intercalate pragmas ++ " ") := by
    cases pragmas with
    | nil => rfl
    | cons s ss =>
      have filled : (Term.list ((s :: ss).map .text)).printed.isTruthy = true := rfl
      rw [pragmasLayout, if_pos filled, Printed.join, texts]
      rfl
  rw [Ident.term, Term.print_node, Form.text, if_neg (by decide)]
  simp only [Form.layout, List.map_cons, List.map_nil, NameForm.layout, front, ok_bind]
  simp [Term.printed, Term.atomText, Ident.text, Printed.isTruthy, Printed.term, Printed.text,
    Term.isTruthy]

theorem RenamedIndex.print_term (index : RenamedIndex) : index.term.print = .ok index.text := by
  cases index with
  | number | numeral => rfl
  | name id => exact id.print_term

theorem WrittenRenaming.print_term (r : WrittenRenaming) : r.term.print = .ok r.text := by
  obtain ⟨index, isShortcut, new⟩ := r
  have source : index.term.printed.text = .ok index.text := index.print_term
  rw [term, Term.print_node, Form.text, if_neg (by decide)]
  simp only [Form.layout, List.map_cons, List.map_nil, PartForm.layout, source, ok_bind]
  cases new with
  | none =>
    -- Without a new name the mark is kept as it is.
    have kept : keptShort ⟨index, isShortcut, none⟩ = isShortcut := by cases index <;> rfl
    rw [kept]
    cases isShortcut <;> rfl
  | some new =>
    have given : (Ident.termOf? (some new)).printed.isTruthy = true := rfl
    have renamed : (Ident.termOf? (some new)).printed.text = .ok new.text := new.print_term
    rw [if_pos given, renamed]
    rfl

/-! ### The check -/

/-- No index has the member that the check asks it for. -/
theorem RenamedIndex.idIndex_term (index : RenamedIndex) :
    Renaming.idIndex index.term = .error .missingMember := by
  cases index <;> rfl

theorem WrittenRenaming.isValid_term (r : WrittenRenaming) :
    Renaming.isValid [r.index.term, Ident.termOf? r.new, .truth r.keptShort] =
      r.verdict.map fun b => .made (.truth b) := by
  have asked := r.index.idIndex_term
  have first : partAt [r.index.term, Ident.termOf? r.new, .truth r.keptShort] 0 = r.index.term := rfl
  have second : (partAt [r.index.term, Ident.termOf? r.new, .truth r.keptShort] 1).isTruthy =
      r.new.isSome := by
    cases r.new <;> rfl
  have third : (partAt [r.index.term, Ident.termOf? r.new, .truth r.keptShort] 2).isTruthy =
      r.keptShort := rfl
  rw [Renaming.isValid, first, second, third, verdict, asked]
  cases r.new.isSome && r.keptShort <;> rfl

theorem WrittenRenaming.verdict_definite (r : WrittenRenaming) (k : Nat) :
    r.verdict ≠ .error (.pending k) := by
  unfold verdict
  split <;> simp

theorem WrittenRenaming.fits (r : WrittenRenaming) : Fits (.part .groupRenaming) r.term := by
  have described := describedBy_groupRenaming_iff.mpr ⟨r, [], rfl⟩
  obtain ⟨t, converted, fits⟩ := convert_gives described Reader.none {}
  rw [convert_renaming] at converted
  cases converted
  exact fits

theorem WrittenRenaming.checked (r : WrittenRenaming) (fields : List (String × ParseTree))
    (reader : Reader) (w : Workspace) : ∃ id w',
      perform (do load (← ofConversion (convert .groupRenaming (r.tree fields)))) reader w =
        (.ok (.ref id), w') ∧ w'.store.form? (.ref id) = some (.part .groupRenaming) ∧
          AnswersIsValid reader id w' r.verdict ∧
        perform (print (.ref id)) reader w' = (.ok r.text, w') := by
  have converted := convert_renaming r fields reader w.reading
  obtain ⟨slot, w', loaded, lasts, -⟩ := (load_spec r.term reader w).ok r.fits.isLoadable
  have held := lasts (.refl _)
  obtain ⟨id, rfl⟩ := held.eq_ref
  have shown := held.view r.fits.isSettled
  have known : (Form.part .groupRenaming).property? "is_valid" = some Renaming.isValid := rfl
  refine ⟨id, w', ?_, held.form?_eq, ?_, ?_⟩
  · rw [perform_bind_ok (ofConversion_ok converted), loaded]
  · exact (perform_property reader held.form?_eq known (by decide)).trans
      (readProperty_truth reader shown r.isValid_term r.verdict_definite)
  · refine observe_ok ?_
    rw [shown]
    exact r.print_term

/-- The renamings of the grammar are those that can be written. Each is converted; the check says
that it is valid, but for the renamings kept as a short form with a new name, at which it breaks
down; and the text is the index alone, the index with a colon, or the index with the new name.
Neither the check nor printing changes anything. -/
theorem renamings_are_checked (reader : Reader) (w : Workspace) :
    (∀ tree : ParseTree, tree.describedBy .groupRenaming = true ↔
      ∃ (r : WrittenRenaming) (fields : List (String × ParseTree)), tree = r.tree fields) ∧
    ∀ (r : WrittenRenaming) (fields : List (String × ParseTree)), ∃ id w',
      perform (do load (← ofConversion (convert .groupRenaming (r.tree fields)))) reader w =
        (.ok (.ref id), w') ∧ w'.store.form? (.ref id) = some (.part .groupRenaming) ∧
          AnswersIsValid reader id w' r.verdict ∧
        perform (print (.ref id)) reader w' = (.ok r.text, w') :=
  ⟨fun _ => describedBy_groupRenaming_iff, fun r fields => r.checked fields reader w⟩

def renamedToItself : WrittenRenaming := ⟨.name ⟨"a", []⟩, false, some ⟨"a", []⟩⟩

/-- The check breaks down for a name that is renamed to itself, though it has a text. -/
theorem renaming_to_itself_is_refused :
    ∃ id w', perform (do load (← ofConversion (convert .groupRenaming (renamedToItself.tree []))))
        Reader.none {} = (.ok (.ref id), w') ∧
      AnswersIsValid Reader.none id w' (.error .missingMember) ∧
      perform (print (.ref id)) Reader.none w' = (.ok "a: a", w') := by
  obtain ⟨id, w', converted, -, answers, printed⟩ := renamedToItself.checked [] Reader.none {}
  exact ⟨id, w', converted, answers, printed⟩

end SwanModel
