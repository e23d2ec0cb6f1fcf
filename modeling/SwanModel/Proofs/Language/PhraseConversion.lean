import Mathlib.Data.List.Forall2
import SwanModel.Proofs.Language.Phrases

/-!
# Phrases are converted to their constructs

`Head.convert_tree` is the step and `Phrases.converted` the run, by induction on phrases.
-/

namespace SwanModel

open SwanModel.Convert

/-! ### New constructs -/

theorem make_expr (form : ExprForm) (args : List Term) :
    make (.expr form) args = pure (.node (.expr form) args) :=
  make_direct args rfl rfl

theorem make_type (form : TypeForm) (args : List Term) :
    make (.type form) args = pure (.node (.type form) args) :=
  make_direct args rfl rfl

theorem make_pattern (form : PatternForm) (args : List Term) :
    make (.pattern form) args = pure (.node (.pattern form) args) :=
  make_direct args rfl rfl

theorem make_operator (form : OperatorForm) (args : List Term) :
    make (.operator form) args = pure (.node (.operator form) args) :=
  make_direct args rfl rfl

theorem make_part {form : PartForm} (args : List Term) (other : form ≠ .clock) :
    make (.part form) args = pure (.node (.part form) args) := by
  refine make_direct args ?_ rfl
  cases form with
  | clock => contradiction
  | _ => rfl

theorem make_path (args : List Term) : make (.name .path) args = pure (.node (.name .path) args) :=
  make_direct args rfl rfl

theorem make_identifier (s : String) (pragmas : List Term) (isName : Bool) :
    make (.name .identifier) [.text s, .list pragmas, .absent, .truth isName] =
      pure (.node (.name .identifier) [.text s, .list pragmas, .absent, .truth isName]) := by
  cases pragmas <;> rfl

theorem make_luid {s : String} (filled : s ≠ "") :
    make (.name .luid) [.text s] = pure (luidTerm (withoutSign s)) := by
  have characters : s.toList ≠ [] := by simpa using filled
  simp only [make, Form.build, Form.fill, fillLuid, partAt, List.getD_cons_zero, withoutSign]
  split
  · contradiction
  · rename_i same
    simp only [same]
    rfl
  · rename_i other
    split
    · rename_i same
      exact absurd same (other _)
    · rfl

/-! ### Names and patterns -/

theorem each_map {α : Type} {f : ParseTree → Conversion Term} {tree : α → ParseTree} {term : α → Term}
    (member : ∀ a, f (tree a) = pure (term a)) (items : List α) :
    each f (.list (items.map tree)) = pure (.list (items.map term)) := by
  have members : (items.map tree).mapM f = (pure (items.map term) : Conversion (List Term)) := by
    induction items with
    | nil => rfl
    | cons a items ih => simp only [List.map_cons, List.mapM_cons, member, ih, pure_bind]
  simp only [each, ParseTree.members, Convert.ofExcept, pure_bind, members]

theorem identifier_tree (id : Ident) : Convert.identifier id.tree = pure id.term := by
  have texts : (id.pragmas.map ParseTree.text).map Term.ofTree = id.pragmas.map Term.text := by
    rw [List.map_map]
    rfl
  simp only [Ident.tree, Convert.identifier, ParseTree.members, Convert.ofExcept, pure_bind, texts]
  exact make_identifier id.name _ false

theorem optional_identifier (id : Option Ident) :
    optional Convert.identifier (Ident.treeOf? id) = pure (Ident.termOf? id) := by
  cases id with
  | none => rfl
  | some id => exact identifier_tree id

theorem path_tree (ids : List Ident) : Convert.path (pathTree ids) = pure (pathTerm ids) := by
  simp only [Convert.path, pathTree, each_map identifier_tree, pure_bind, make_path, pathTerm]

theorem nameIdentifier_tree (name : String) : nameIdentifier (nameTree name) = pure (nameTerm name) := by
  have text : nameText (nameTree name) = pure (.text name) := by
    simp [nameText, nameTree, locatedText, ParseTree.textData, Convert.ofExcept, Term.ofTree]
  simp only [nameIdentifier, text, pure_bind]
  rfl

theorem luid_tree {luid : String} (source : LuidText luid) :
    Convert.luid (.located (.text source.1)) = pure (luidTerm luid) := by
  obtain ⟨s, filled, rfl⟩ := source
  exact make_luid filled

theorem pathOrText_tree (p : PathOrText) (place : p.Place) (lost : p.Lost) :
    Convert.pathOrText (PathOrText.tree p place lost) = pure (PathOrText.term p) := by
  cases p with
  | read ids => exact path_tree ids
  | text s => rfl

theorem readPattern_tree (p : Pattern) : readPattern p.tree = pure p.term := by
  cases p with
  | path ids | variant ids =>
    simp only [Pattern.tree, readPattern, ↓tag_bind, item_node, pure_bind, path_tree, make_pattern,
      Pattern.term]
  | capture ids captured =>
    simp only [Pattern.tree, readPattern, ↓tag_bind, itemAt_first, itemAt_second, pure_bind, path_tree]
    cases captured with
    | none => rfl
    | some id =>
      have truthy : id.tree.isTruthy = true := rfl
      simp only [Ident.treeOf?, ParseTree.value, Convert.ofExcept, pure_bind, truthy, if_true,
        identifier_tree, make_pattern, Pattern.term, Ident.termOf?]
  | char s => rfl
  | int isNegative digits => rfl
  | bool b => rfl
  | underscore => rfl
  | otherwise => rfl

theorem pattern_tree (p : PatternOrText) (place : p.Place) (lost : p.Lost) :
    Convert.pattern (PatternOrText.tree p place lost) = pure (PatternOrText.term p) := by
  cases p with
  | read p => exact readPattern_tree p
  | text s => rfl

theorem transposeIndex_tree {n : Nat} (source : IndexText n) :
    transposeIndex (.text source.1) = pure (.number n) := by
  obtain ⟨s, isIndex, rfl⟩ := source
  simp only [ParseTree.isIndex, Bool.and_eq_true, Bool.not_eq_true', decide_eq_true_eq] at isIndex
  obtain ⟨⟨filled, digits⟩, short⟩ := isIndex
  simp only [transposeIndex, intOfText_digits filled digits, Nat.not_lt.mpr short, if_false,
    Convert.ofExcept, pure_bind]

/-! ### Converters of phrases -/

namespace PhraseKind

/-- The converter of the phrases of a kind, given the converter of parts. -/
def convert (inner : Convert) : PhraseKind → ParseTree → Conversion Term
  | index => transposeIndex
  | indices => transposeIndices
  | clock => Convert.clock
  | groupRenaming => Convert.groupRenaming
  | expr => Convert.expr inner
  | exprOrText => Convert.exprOrText inner
  | label => labelOrIndex inner
  | item => groupItem inner
  | group => Convert.group inner
  | modifier => Convert.modifier inner
  | branch => caseBranch inner
  | left => forwardLeft inner
  | element => forwardElement inner
  | dimension => Convert.dimension inner
  | body => forwardBody inner
  | lastDefault => Convert.lastDefault inner
  | arrayClause => Convert.arrayClause inner
  | result => forwardReturn inner
  | type => Convert.type inner
  | typeOrText => Convert.typeOrText inner
  | field => structField inner
  | operator => Convert.operator inner
  | operatorExpr => Convert.operatorExpr inner
  | optionalItem => Convert.optionalItem inner
  | list k => each (k.convert inner)

/-- The rule for the phrases of a kind, if they are converted by a rule of their own. -/
def rule? : PhraseKind → Option Rule
  | expr => some .expr
  | left => some .forwardLeft
  | arrayClause => some .arrayClause
  | type => some .type
  | operator => some .operator
  | operatorExpr => some .operatorExpr
  | _ => none

theorem step_rule {k : PhraseKind} {rule : Rule} (own : k.rule? = some rule) (inner : Convert) :
    Convert.step inner rule = k.convert inner := by
  cases k <;> cases own <;> rfl

/-- Whether a term can be the construct of a phrase of a kind; it tells apart what is read from what
is kept as text. -/
def admits : PhraseKind → Term → Bool
  | expr, .node (.expr form) _ => form != .verbatim
  | exprOrText, .node (.expr _) _ => true
  | type, .node (.type form) _ => form != .verbatim
  | item, .node .. | lastDefault, .node .. => true
  | left, .node form _ => form == .forward .left
  | arrayClause, .node form _ => form == .forward .arrayClause
  | list _, .list _ => true
  | expr, _ | exprOrText, _ | left, _ | lastDefault, _ | arrayClause, _ | type, _ | item, _
  | list _, _ => false
  | _, _ => true

end PhraseKind

/-- A tree is converted to a term that is a construct of a kind: by the converter of the kind, and
by the converter of parts. -/
structure ConvertedPart (inner : Convert) (k : PhraseKind) (tree : ParseTree) (t : Term) : Prop where
  now : k.convert inner tree = pure t
  later : ∀ rule, k.rule? = some rule → inner rule tree = pure t
  admitted : k.admits t = true

inductive ConvertedParts (inner : Convert) : List PhraseKind → List ParseTree → List Term → Prop where
  | nil : ConvertedParts inner [] [] []
  | cons {k ks tree trees t terms} (first : ConvertedPart inner k tree t)
    (rest : ConvertedParts inner ks trees terms) :
    ConvertedParts inner (k :: ks) (tree :: trees) (t :: terms)

variable {inner : Convert} {k l m : PhraseKind} {tree a b c : ParseTree} {t x y z : Term}
  {trees : List ParseTree} {terms : List Term}

namespace ConvertedPart

theorem exprOrText (part : ConvertedPart inner .exprOrText tree t) :
    Convert.exprOrText inner tree = pure t := part.now

theorem group (part : ConvertedPart inner .group tree t) : Convert.group inner tree = pure t := part.now

theorem clock (part : ConvertedPart inner .clock tree t) : Convert.clock tree = pure t := part.now

theorem typeOrText (part : ConvertedPart inner .typeOrText tree t) :
    Convert.typeOrText inner tree = pure t := part.now

theorem expr (part : ConvertedPart inner .expr tree t) : inner .expr tree = pure t := part.later _ rfl

theorem type (part : ConvertedPart inner .type tree t) : inner .type tree = pure t := part.later _ rfl

theorem operator (part : ConvertedPart inner .operator tree t) : inner .operator tree = pure t :=
  part.later _ rfl

end ConvertedPart

namespace ConvertedParts

theorem one (parts : ConvertedParts inner [k] trees terms) :
    ∃ a x, trees = [a] ∧ terms = [x] ∧ ConvertedPart inner k a x := by
  obtain _ | ⟨first, _ | _⟩ := parts
  exact ⟨_, _, rfl, rfl, first⟩

theorem two (parts : ConvertedParts inner [k, l] trees terms) :
    ∃ a b x y, trees = [a, b] ∧ terms = [x, y] ∧ ConvertedPart inner k a x ∧
      ConvertedPart inner l b y := by
  obtain _ | ⟨first, rest⟩ := parts
  obtain ⟨b, y, rfl, rfl, second⟩ := rest.one
  exact ⟨_, b, _, y, rfl, rfl, first, second⟩

theorem three (parts : ConvertedParts inner [k, l, m] trees terms) :
    ∃ a b c x y z, trees = [a, b, c] ∧ terms = [x, y, z] ∧ ConvertedPart inner k a x ∧
      ConvertedPart inner l b y ∧ ConvertedPart inner m c z := by
  obtain _ | ⟨first, rest⟩ := parts
  obtain ⟨b, c, y, z, rfl, rfl, second, third⟩ := rest.two
  exact ⟨_, b, c, _, y, z, rfl, rfl, first, second, third⟩

theorem each_replicate {length : Nat}
    (parts : ConvertedParts inner (List.replicate length k) trees terms) :
    each (k.convert inner) (.list trees) = pure (.list terms) := by
  have members : trees.mapM (k.convert inner) = (pure terms : Conversion (List Term)) := by
    induction length generalizing trees terms with
    | zero =>
      cases parts
      rfl
    | succ length ih =>
      obtain _ | ⟨first, rest⟩ := parts
      simp only [List.mapM_cons, first.now, ih rest, pure_bind]
  simp only [each, ParseTree.members, Convert.ofExcept, pure_bind, members]

end ConvertedParts

/-- The phrases of a kind are converted to their constructs if their parts are. -/
def PhraseKind.IsConverted (k : PhraseKind) (inner : Convert) : Prop :=
  ∀ {trees : List ParseTree} {terms : List Term} (h : Head k) (place : h.Place) (lost : h.Lost),
    ConvertedParts inner h.parts trees terms →
      k.convert inner (h.tree place lost trees) = pure (h.term terms)

/-! ### Expressions -/

theorem constantOf_case {table : List (String × Constant)} {tag : String} {c : Constant}
    (known : table.lookup tag = some c) : constantOf table (.case tag []) = pure (.constant c) := by
  change (pure (((table.lookup tag).map Term.constant).getD .absent) : Conversion Term) = _
  rw [known]
  rfl

theorem constantOf_unaryOp (op : UnaryOp) :
    constantOf unaryOps (.case (tagFor unaryOps (.unaryOp op)) []) = pure (.constant (.unaryOp op)) :=
  constantOf_case (by cases op <;> decide +kernel)

theorem constantOf_binaryOp (op : BinaryOp) :
    constantOf binaryOps (.case (tagFor binaryOps (.binaryOp op)) []) =
      pure (.constant (.binaryOp op)) :=
  constantOf_case (by cases op <;> decide +kernel)

theorem isIdentifier_of_admitted (admitted : PhraseKind.exprOrText.admits t = true) :
    t.isIdentifier = false := by
  cases t with
  | node form parts =>
    cases form with
    | expr form => rfl
    | _ => cases admitted
  | _ => cases admitted

theorem optional_absent (f : ParseTree → Conversion Term) : optional f .absent = pure .absent := rfl

theorem optional_luid {luid : String} (source : LuidText luid) :
    optional Convert.luid (.present (.located (.text source.1))) = pure (luidTerm luid) :=
  luid_tree source

theorem optional_pathOrText (p : PathOrText) (place : p.Place) (lost : p.Lost) :
    optional Convert.pathOrText (.present (PathOrText.tree p place lost)) =
      pure (PathOrText.term p) := by
  have truthy : (PathOrText.tree p place lost).isTruthy = true := by cases p <;> rfl
  simp only [Convert.optional, ParseTree.value, Convert.ofExcept, pure_bind, truthy, if_true,
    pathOrText_tree]

theorem adaptation_record (renamings : each Convert.groupRenaming tree = pure t) :
    adaptation (.record [("GRenaming", tree)]) = pure (.node (.part .adaptation) [t]) := by
  have field : Convert.field "GRenaming" (.record [("GRenaming", tree)]) = pure tree := field_node rfl
  simp only [adaptation, field, pure_bind, renamings]
  exact make_part _ (by decide)

theorem labelOrIndex_index (index : Convert.exprOrText inner tree = pure t) :
    labelOrIndex inner (.case "Index" [tree]) = pure (.node (.part .labelOrIndex) [t]) := by
  simp only [labelOrIndex, ↓tag_bind, item_node, pure_bind, index]
  exact make_part _ (by decide)

theorem labelOrIndex_label (id : Ident) :
    labelOrIndex inner (.case "Label" [id.tree]) = pure (.node (.part .labelOrIndex) [id.term]) := by
  change (do make (.part .labelOrIndex) [← Convert.identifier id.tree]) = _
  rw [identifier_tree, pure_bind]
  exact make_part _ (by decide)

theorem field_instance (luid operator : ParseTree) :
    Convert.field "OIInstance" (instanceRecord luid operator) = pure luid := field_node rfl

theorem field_instanceOperator (luid operator : ParseTree) :
    Convert.field "OIOperator" (instanceRecord luid operator) = pure operator := field_node rfl

/-! ### Loops -/

theorem make_forward {form : ForwardForm} (args : List Term)
    (other : form ≠ .lastDefault ∧ form ≠ .returnArray) :
    make (.forward form) args = pure (.node (.forward form) args) := by
  refine make_direct args ?_ rfl
  cases form with
  | lastDefault => exact absurd rfl other.1
  | returnArray => exact absurd rfl other.2
  | _ => rfl

theorem isTruthy_of_expr (admitted : PhraseKind.expr.admits t = true) : t.isTruthy = true := by
  cases t with
  | node form parts => rfl
  | _ => cases admitted

theorem converted_left : PhraseKind.IsConverted .left inner := by
  intro trees terms h place lost parts
  cases h with
  | leftName id =>
    change forwardLeft inner (.case "FId" [id.tree]) = _
    simp only [forwardLeft, ↓tag_bind, item_node, pure_bind, identifier_tree]
    exact make_forward _ (by decide)
  | leftArray =>
    obtain ⟨a, x, rfl, rfl, left⟩ := parts.one
    have nested : inner .forwardLeft a = pure x := left.later _ rfl
    change forwardLeft inner (.case "FLhsArray" [a]) = _
    simp only [forwardLeft, ↓tag_bind, item_node, pure_bind, nested]
    exact make_forward _ (by decide)

theorem converted_element : PhraseKind.IsConverted .element inner := by
  intro trees terms h place lost parts
  cases h with
  | element =>
    obtain ⟨a, b, x, y, rfl, rfl, left, e⟩ := parts.two
    have lhs : inner .forwardLeft a = pure x := left.later _ rfl
    change forwardElement inner (.tuple [a, b]) = _
    simp only [forwardElement, itemAt_first, itemAt_second, pure_bind, lhs, e.expr]
    exact make_forward _ (by decide)

theorem converted_dimension : PhraseKind.IsConverted .dimension inner := by
  intro trees terms h place lost parts
  cases h with
  | size =>
    obtain ⟨a, x, rfl, rfl, e⟩ := parts.one
    have converted (position : ParseTree) : Convert.dimension inner (.case "FDim" [a, position]) =
        pure (.node (.forward .dimension) [x, .absent, .absent, .absent]) := by
      simp only [Convert.dimension, ↓tag_bind, itemAt_first, pure_bind, e.expr]
      exact make_forward _ (by decide)
    exact converted place
  | sizeWith id =>
    obtain ⟨a, b, x, y, rfl, rfl, e, list⟩ := parts.two
    have elements : each (forwardElement inner) b = pure y := list.now
    have converted (position : ParseTree) :
        Convert.dimension inner (.case "FDimWith" [a, Ident.treeOf? id, b, position]) =
          pure (.node (.forward .dimension) [x, Ident.termOf? id, y, .absent]) := by
      simp only [Convert.dimension, ↓tag_bind, itemAt_first, itemAt_second, itemAt_third, pure_bind,
        e.expr, elements, optional_identifier]
      exact make_forward _ (by decide)
    exact converted place
  | dimensionText text => rfl

theorem converted_lastDefault : PhraseKind.IsConverted .lastDefault inner := by
  intro trees terms h place lost parts
  cases h with
  | onlyLast | onlyDefault | lastAndDefault =>
    obtain ⟨a, x, rfl, rfl, e⟩ := parts.one
    change Convert.lastDefault inner (.case _ [a]) = _
    simp only [Convert.lastDefault, ↓tag_bind, item_node, pure_bind, e.expr]
    exact make_lastDefault (by rw [isTruthy_of_expr e.admitted]; rfl)
  | lastPlusDefault =>
    obtain ⟨a, b, x, y, rfl, rfl, last, default⟩ := parts.two
    change Convert.lastDefault inner (.case "FLastPlusDefault" [a, b]) = _
    simp only [Convert.lastDefault, ↓tag_bind, itemAt_first, itemAt_second, pure_bind, last.expr,
      default.expr]
    exact make_lastDefault (by rw [isTruthy_of_expr last.admitted]; rfl)

/-- What is converted has a tag, so that it counts as given. -/
theorem isTruthy_of_lastDefault (converted : Convert.lastDefault inner tree = pure t) :
    tree.isTruthy = true := by
  cases tree with
  | node tag items fields => rfl
  | _ => cases congrArg (fun x => (perform x Reader.none {}).1) converted

theorem optional_lastDefault (part : ConvertedPart inner .lastDefault tree t) :
    optional (Convert.lastDefault inner) (.present tree) = pure t := by
  have converted : Convert.lastDefault inner tree = pure t := part.now
  simp only [Convert.optional, ParseTree.value, Convert.ofExcept, pure_bind,
    isTruthy_of_lastDefault converted, if_true, converted]

theorem itemClause_tree (tag : Option String) (id : Ident)
    (value : optional (Convert.lastDefault inner) tree = pure t) :
    itemClause inner (.node tag [id.tree, tree] []) = pure (clauseTerm id t) := by
  simp only [itemClause, itemAt_first, itemAt_second, pure_bind, identifier_tree, value]
  exact make_forward _ (by decide)

theorem converted_arrayClause : PhraseKind.IsConverted .arrayClause inner := by
  intro trees terms h place lost parts
  cases h with
  | arrayItem id =>
    change Convert.arrayClause inner (.case "FItemClause" [id.tree, .absent]) = _
    simp only [Convert.arrayClause, ↓tag_bind, itemClause_tree _ id (optional_absent _), pure_bind]
    exact make_forward _ (by decide)
  | arrayItemWith id =>
    obtain ⟨a, x, rfl, rfl, value⟩ := parts.one
    change Convert.arrayClause inner (.case "FItemClause" [id.tree, .present a]) = _
    simp only [Convert.arrayClause, ↓tag_bind, itemClause_tree _ id (optional_lastDefault value),
      pure_bind]
    exact make_forward _ (by decide)
  | arrayArray =>
    obtain ⟨a, x, rfl, rfl, clause⟩ := parts.one
    have nested : inner .arrayClause a = pure x := clause.later _ rfl
    change Convert.arrayClause inner (.case "FArrayClause" [a]) = _
    simp only [Convert.arrayClause, ↓tag_bind, item_node, pure_bind, nested]
    exact make_forward _ (by decide)

theorem forwardReturn_item (position : ParseTree) (id : Ident)
    (value : optional (Convert.lastDefault inner) tree = pure t) :
    forwardReturn inner (.case "FRetItemClause" [.tuple [id.tree, tree], position]) =
      pure (.node (.forward .returnItem) [clauseTerm id t]) := by
  simp only [forwardReturn, ↓tag_bind, itemAt_first, pure_bind, itemClause_tree none id value]
  exact make_forward _ (by decide)

/-- The name of a returned array is converted, but a new identifier takes its place. -/
theorem forwardReturn_array (position : ParseTree) (id : Ident)
    (clause : inner .arrayClause tree = pure t) :
      forwardReturn inner (.case "FRetArrayClause" [.present id.tree, tree, position]) =
        pure (.node (.forward .returnArray) [t, .anyIdentifier]) := by
  have named : id.tree.isTruthy = true := rfl
  simp only [forwardReturn, ↓tag_bind, itemAt_first, itemAt_second, pure_bind, ParseTree.value,
    Convert.ofExcept, named, if_true, identifier_tree, clause, make_returnArray]

theorem converted_result : PhraseKind.IsConverted .result inner := by
  intro trees terms h place lost parts
  cases h with
  | returnItem id => exact forwardReturn_item place id (optional_absent _)
  | returnItemWith id =>
    obtain ⟨a, x, rfl, rfl, value⟩ := parts.one
    exact forwardReturn_item place id (optional_lastDefault value)
  | returnArray =>
    obtain ⟨a, x, rfl, rfl, clause⟩ := parts.one
    exact forwardReturn_array place lost (clause.later _ rfl)
  | returnText text => rfl

theorem forwardState_tree (state : ForwardState) :
    forwardState (stateTree state) = pure (.constant (.forwardState state)) := by
  cases state <;> rfl

theorem forward_tree {luid : ParseTree} {name : Term} (state : ForwardState)
    (named : optional Convert.luid luid = pure name)
    (dimensions : ConvertedPart inner (.list .dimension) a x) (body : ConvertedPart inner .body b y)
    (results : ConvertedPart inner (.list .result) c z) :
    forward inner (.case "EForward" [luid, stateTree state, a, b, c]) =
      pure (.node (.expr .forward) [.constant (.forwardState state), x, y, z, name]) := by
  have dims : each (Convert.dimension inner) a = pure x := dimensions.now
  have inside : forwardBody inner b = pure y := body.now
  have returns : each (forwardReturn inner) c = pure z := results.now
  simp only [forward, itemAt_first, itemAt_second, itemAt_third, itemAt_fourth, itemAt_fifth,
    pure_bind, named, forwardState_tree, dims, inside, returns]
  exact make_expr _ _

variable {n : Nat}

/-- The sections of a body are converted by all the levels that there are. -/
theorem Head.convert_body (h : Head .body) (place : h.Place) (lost : h.Lost)
    (parts : ConvertedParts (convertUpTo n) h.parts trees terms)
    (enough : 3 * (h.tree place lost trees).height ≤ n + 1) :
    forwardBody (convertUpTo n) (h.tree place lost trees) = pure (h.term terms) := by
  have sectionsField (sections : List ParseTree) (stop : ParseTree) :
      Convert.field "FScopeSections" (bodyRecord sections stop) = pure (.list sections) := field_node rfl
  have stopField (sections : List ParseTree) (stop : ParseTree) :
      Convert.field "FStopCondition" (bodyRecord sections stop) = pure stop := field_node rfl
  have low (sections : List ParseTree) (stop : ParseTree)
      (enough : 3 * (bodyRecord sections stop).height ≤ n + 1) : 3 * ParseTree.heights sections ≤ n := by
    simp only [bodyRecord, ParseTree.height, ParseTree.fieldHeights] at enough
    omega
  cases h with
  | body sections =>
    change forwardBody _ (bodyRecord lost.1 (.case "FStopNone" [])) = _
    simp only [forwardBody, sectionsField, stopField, pure_bind, lost.2 n (low _ _ enough), ↓tag_bind]
    exact make_forward _ (by decide)
  | bodyUntil sections | bodyUnless sections =>
    obtain ⟨a, x, rfl, rfl, e⟩ := parts.one
    change forwardBody _ (bodyRecord lost.1 (.case _ [a])) = _
    simp only [forwardBody, sectionsField, stopField, pure_bind, lost.2 n (low _ _ enough),
      ↓tag_bind, item_node, e.expr]
    exact make_forward _ (by decide)

/-! ### All expressions -/

/-- A loop is left to a converter of its own, so that its parts are converted one level deeper. -/
theorem Head.convert_expr (h : Head .expr) (place : h.Place) (lost : h.Lost)
    (deeper : ConvertedParts (convertUpTo n) h.parts trees terms)
    (parts : ConvertedParts (convertUpTo (n + 1)) h.parts trees terms) :
    Convert.expr (convertUpTo (n + 1)) (h.tree place lost trees) = pure (h.term terms) := by
  -- Every case says which tree is converted to which construct.
  cases h with
  | ref ids =>
    change Convert.expr _ (.case "EId" [pathTree ids]) = pure (.node (.expr .path) [pathTerm ids])
    simp only [Convert.expr, ↓tag_bind, item_node, pure_bind, path_tree, make_expr]
  | last name =>
    change Convert.expr _ (.case "ELast" [nameTree name]) = pure (.node (.expr .last) [nameTerm name])
    simp only [Convert.expr, ↓tag_bind, item_node, pure_bind, nameIdentifier_tree, make_expr]
  | bool b => cases b <;> rfl
  | char s => rfl
  | number s => rfl
  | port luid =>
    change Convert.expr _ (.case "EPort" [.case "InstanceIdLuid" [.located (.text lost.1)]]) =
      pure (.node (.expr .port) [luidTerm luid])
    simp only [Convert.expr, ↓tag_bind, item_node, pure_bind, Convert.port, luid_tree lost, make_expr]
  | self => rfl
  | unary op =>
    obtain ⟨a, x, rfl, rfl, e⟩ := parts.one
    change Convert.expr _ (.case "EUnaryOp" [.case (tagFor unaryOps (.unaryOp op)) [], a]) =
      pure (.node (.expr .unary) [.constant (.unaryOp op), x])
    simp only [Convert.expr, ↓tag_bind, itemAt_first, itemAt_second, pure_bind, constantOf_unaryOp,
      e.exprOrText, make_expr]
  | binary op =>
    obtain ⟨a, b, x, y, rfl, rfl, left, right⟩ := parts.two
    change Convert.expr _ (.case "EBinaryOp" [.case (tagFor binaryOps (.binaryOp op)) [], a, b]) =
      pure (.node (.expr .binary) [.constant (.binaryOp op), x, y])
    simp only [Convert.expr, ↓tag_bind, itemAt_first, itemAt_second, itemAt_third, pure_bind,
      constantOf_binaryOp, left.exprOrText, right.exprOrText, make_expr]
  | whenClock =>
    obtain ⟨a, b, x, y, rfl, rfl, e, clock⟩ := parts.two
    change Convert.expr _ (.case "EWhenClock" [a, b]) = pure (.node (.expr .whenClock) [x, y])
    simp only [Convert.expr, ↓tag_bind, itemAt_first, itemAt_second, pure_bind, e.exprOrText,
      clock.clock, make_expr]
  | whenMatch ids =>
    obtain ⟨a, x, rfl, rfl, e⟩ := parts.one
    change Convert.expr _ (.case "EWhenMatch" [a, pathTree ids]) =
      pure (.node (.expr .whenMatch) [x, pathTerm ids])
    simp only [Convert.expr, ↓tag_bind, itemAt_first, itemAt_second, pure_bind, e.exprOrText,
      path_tree, make_expr]
  | cast =>
    obtain ⟨a, b, x, y, rfl, rfl, e, type⟩ := parts.two
    change Convert.expr _ (.case "ECast" [a, b]) = pure (.node (.expr .conversion) [x, y])
    simp only [Convert.expr, ↓tag_bind, itemAt_first, itemAt_second, pure_bind, e.exprOrText,
      type.typeOrText, make_expr]
  | ofGroup | arrayOfGroup =>
    obtain ⟨a, x, rfl, rfl, g⟩ := parts.one
    change Convert.expr _ (.case _ [a]) = pure (.node (.expr _) [x])
    simp only [Convert.expr, ↓tag_bind, item_node, pure_bind, g.group, make_expr]
  | slice | conditional =>
    obtain ⟨a, b, c, x, y, z, rfl, rfl, first, second, third⟩ := parts.three
    change Convert.expr _ (.case _ [a, b, c]) = pure (.node (.expr _) [x, y, z])
    simp only [Convert.expr, ↓tag_bind, pure_bind, threeParts, itemAt_first, itemAt_second,
      itemAt_third, first.exprOrText, second.exprOrText, third.exprOrText, make_expr]
  | adapt =>
    obtain ⟨a, b, x, y, rfl, rfl, e, list⟩ := parts.two
    have renamings : each Convert.groupRenaming b = pure y := list.now
    change Convert.expr _ (.case "EGroupAdapt" [a, .record [("GRenaming", b)]]) =
      pure (.node (.expr .adapted) [x, .node (.part .adaptation) [y]])
    simp only [Convert.expr, ↓tag_bind, itemAt_first, itemAt_second, pure_bind, e.exprOrText,
      adaptation_record renamings, make_expr]
  | projectIndex =>
    obtain ⟨a, b, x, y, rfl, rfl, e, index⟩ := parts.two
    change Convert.expr _ (.case "EStaticProj" [a, .case "Index" [b]]) =
      pure (.node (.expr .arrayProjection) [x, .node (.part .labelOrIndex) [y]])
    simp only [Convert.expr, ↓tag_bind, pure_bind, projection, itemAt_first, itemAt_second, e.exprOrText,
      labelOrIndex_index index.exprOrText, isIdentifier_of_admitted index.admitted,
      Bool.false_eq_true, if_false, make_expr]
  | projectLabel id =>
    obtain ⟨a, x, rfl, rfl, e⟩ := parts.one
    have isIdentifier : id.term.isIdentifier = true := rfl
    change Convert.expr _ (.case "EStaticProj" [a, .case "Label" [id.tree]]) =
      pure (.node (.expr .structProjection) [x, .node (.part .labelOrIndex) [id.term]])
    simp only [Convert.expr, ↓tag_bind, pure_bind, projection, itemAt_first, itemAt_second, e.exprOrText,
      labelOrIndex_label, isIdentifier, if_true, make_expr]
  | makeGroup name =>
    obtain ⟨a, x, rfl, rfl, e⟩ := parts.one
    change Convert.expr _ (.case "EMkGroup" [PathOrText.tree name place lost, a]) =
      pure (.node (.expr .makeGroup) [PathOrText.term name, x])
    simp only [Convert.expr, ↓tag_bind, itemAt_first, itemAt_second, pure_bind,
      pathOrText_tree name place lost, e.exprOrText, make_expr]
  | projectDynamic =>
    obtain ⟨a, b, c, x, y, z, rfl, rfl, e, list, default⟩ := parts.three
    have targets : each (labelOrIndex (convertUpTo (n + 1))) b = pure y := list.now
    change Convert.expr _ (.case "EDynProj" [a, b, c]) =
      pure (.node (.expr .dynamicProjection) [x, y, z])
    simp only [Convert.expr, ↓tag_bind, itemAt_first, itemAt_second, itemAt_third, pure_bind,
      e.exprOrText, targets, default.exprOrText, make_expr]
  | makeArray =>
    obtain ⟨a, b, x, y, rfl, rfl, e, size⟩ := parts.two
    change Convert.expr _ (.case "EMkArray" [a, b]) = pure (.node (.expr .makeArray) [x, y])
    simp only [Convert.expr, ↓tag_bind, pure_bind, twoParts, itemAt_first, itemAt_second,
      e.exprOrText, size.exprOrText, make_expr]
  | makeStruct =>
    obtain ⟨a, x, rfl, rfl, g⟩ := parts.one
    change Convert.expr _ (.case "EMkStruct" [a, .absent]) =
      pure (.node (.expr .makeStruct) [x, .absent])
    simp only [Convert.expr, ↓tag_bind, itemAt_first, itemAt_second, pure_bind, g.group,
      optional_absent, make_expr]
  | makeNamedStruct name =>
    obtain ⟨a, x, rfl, rfl, g⟩ := parts.one
    change Convert.expr _ (.case "EMkStruct" [a, .present (PathOrText.tree name place lost)]) =
      pure (.node (.expr .makeStruct) [x, PathOrText.term name])
    simp only [Convert.expr, ↓tag_bind, itemAt_first, itemAt_second, pure_bind, g.group,
      optional_pathOrText name place lost, make_expr]
  | variant name =>
    obtain ⟨a, x, rfl, rfl, g⟩ := parts.one
    change Convert.expr _ (.case "EVariant" [PathOrText.tree name place lost, a]) =
      pure (.node (.expr .variant) [PathOrText.term name, x])
    simp only [Convert.expr, ↓tag_bind, itemAt_first, itemAt_second, pure_bind,
      pathOrText_tree name place lost, g.group, make_expr]
  | copy =>
    obtain ⟨a, b, x, y, rfl, rfl, e, list⟩ := parts.two
    have modifiers : each (Convert.modifier (convertUpTo (n + 1))) b = pure y := list.now
    change Convert.expr _ (.case "EMkCopy" [a, b]) = pure (.node (.expr .makeCopy) [x, y])
    simp only [Convert.expr, ↓tag_bind, itemAt_first, itemAt_second, pure_bind, e.exprOrText,
      modifiers, make_expr]
  | caseOf =>
    obtain ⟨a, b, x, y, rfl, rfl, e, list⟩ := parts.two
    have branches : each (caseBranch (convertUpTo (n + 1))) b = pure y := list.now
    change Convert.expr _ (.case "ECase" [a, b]) = pure (.node (.expr .caseOf) [x, y])
    simp only [Convert.expr, ↓tag_bind, itemAt_first, itemAt_second, pure_bind, e.exprOrText,
      caseBranches, branches, make_expr]
  | call =>
    obtain ⟨a, b, x, y, rfl, rfl, op, params⟩ := parts.two
    change Convert.expr _ (.case "EOpCall" [instanceRecord .absent a, b]) =
      pure (.node (.expr .operation) [x, y, .absent])
    simp only [Convert.expr, ↓tag_bind, pure_bind, operation, itemAt_first, itemAt_second,
      params.group, field_instance, field_instanceOperator, optional_absent, op.operator, make_expr]
  | callInstance luid =>
    obtain ⟨a, b, x, y, rfl, rfl, op, params⟩ := parts.two
    change Convert.expr _ (.case "EOpCall" [instanceRecord (.present (.located (.text lost.1))) a, b]) =
      pure (.node (.expr .operation) [x, y, luidTerm luid])
    simp only [Convert.expr, ↓tag_bind, pure_bind, operation, itemAt_first, itemAt_second,
      params.group, field_instance, field_instanceOperator, optional_luid lost, op.operator, make_expr]
  | window =>
    obtain ⟨a, b, c, x, y, z, rfl, rfl, size, params, init⟩ := parts.three
    change Convert.expr _ (.case "EWindow" [a, b, c]) = pure (.node (.expr .window) [x, y, z])
    simp only [Convert.expr, ↓tag_bind, itemAt_first, itemAt_second, itemAt_third, pure_bind,
      size.exprOrText, params.group, init.group, make_expr]
  | merge =>
    obtain ⟨a, x, rfl, rfl, list⟩ := parts.one
    have groups : each (Convert.group (convertUpTo (n + 1))) a = pure x := list.now
    change Convert.expr _ (.case "EMerge" [a]) = pure (.node (.expr .merge) [x])
    simp only [Convert.expr, ↓tag_bind, item_node, pure_bind, groups, make_expr]
  | loop state =>
    obtain ⟨a, b, c, x, y, z, rfl, rfl, dimensions, body, results⟩ := deeper.three
    exact forward_tree state (optional_absent _) dimensions body results
  | loopInstance state luid =>
    obtain ⟨a, b, c, x, y, z, rfl, rfl, dimensions, body, results⟩ := deeper.three
    exact forward_tree state (optional_luid lost) dimensions body results

/-! ### Clocks, renamings and parts of expressions -/

theorem Head.convert_clock (h : Head .clock) (place : h.Place) (lost : h.Lost) :
    Convert.clock (h.tree place lost trees) = pure (h.term terms) := by
  cases h with
  | clock id | clockNot id =>
    change Convert.clock (.case _ [id.tree]) = _
    simp only [Convert.clock, ↓tag_bind, item_node, pure_bind, identifier_tree]
    rfl
  | clockMatch id p =>
    change Convert.clock (.case "ClockMatch" [id.tree, PatternOrText.tree p place lost]) = _
    simp only [Convert.clock, ↓tag_bind, itemAt_first, itemAt_second, pure_bind, identifier_tree,
      pattern_tree p place lost]
    rfl

theorem Head.convert_groupRenaming (h : Head .groupRenaming) (place : h.Place) (lost : h.Lost) :
    Convert.groupRenaming (h.tree place lost trees) = pure (h.term terms) := by
  cases h with
  | byPosition position isShortcut new =>
    change Convert.groupRenaming
      (.case "RenamingByPos" [.number position, .truth isShortcut, Ident.treeOf? new]) = _
    simp only [Convert.groupRenaming, ↓tag_bind, itemAt_first, itemAt_second, itemAt_third,
      pure_bind, make_expr, optional_identifier]
    rfl
  | byName old isShortcut =>
    change Convert.groupRenaming (.case "RenamingByName" [old.tree, .truth isShortcut, .absent]) = _
    simp only [Convert.groupRenaming, ↓tag_bind, itemAt_first, itemAt_second, itemAt_third,
      pure_bind, identifier_tree, optional_absent]
    rfl
  | byNewName old new =>
    change Convert.groupRenaming
      (.case "RenamingByName" [old.tree, .truth lost, Ident.treeOf? (some new)]) = _
    simp only [Convert.groupRenaming, ↓tag_bind, itemAt_first, itemAt_second, itemAt_third,
      pure_bind, identifier_tree, optional_identifier]
    rfl

theorem converted_exprOrText : PhraseKind.IsConverted .exprOrText inner := by
  intro trees terms h place lost parts
  cases h with
  | readExpr =>
    obtain ⟨a, x, rfl, rfl, e⟩ := parts.one
    exact e.expr
  | exprText text => rfl

theorem converted_label : PhraseKind.IsConverted .label inner := by
  intro trees terms h place lost parts
  cases h with
  | labelIndex =>
    obtain ⟨a, x, rfl, rfl, e⟩ := parts.one
    exact labelOrIndex_index e.exprOrText
  | label id => exact labelOrIndex_label id

theorem converted_item : PhraseKind.IsConverted .item inner := by
  intro trees terms h place lost parts
  cases h with
  | item =>
    obtain ⟨a, x, rfl, rfl, e⟩ := parts.one
    change groupItem inner (.case "GroupItemExpr" [a]) = _
    simp only [groupItem, ↓tag_bind, item_node, pure_bind, e.exprOrText]
    exact make_part _ (by decide)
  | labelled id =>
    obtain ⟨a, x, rfl, rfl, e⟩ := parts.one
    change groupItem inner (.case "GroupItemLabelExpr" [id.tree, a]) = _
    simp only [groupItem, ↓tag_bind, itemAt_first, itemAt_second, pure_bind, e.exprOrText,
      identifier_tree]
    exact make_part _ (by decide)

theorem converted_group : PhraseKind.IsConverted .group inner := by
  intro trees terms h place lost parts
  cases h with
  | group length =>
    have items : each (groupItem inner) (.list trees) = pure (.list terms) := parts.each_replicate
    change Convert.group inner (.list trees) = _
    simp only [Convert.group, items, pure_bind]
    exact make_part _ (by decide)

theorem converted_modifier : PhraseKind.IsConverted .modifier inner := by
  intro trees terms h place lost parts
  cases h with
  | modify =>
    obtain ⟨a, b, x, y, rfl, rfl, list, e⟩ := parts.two
    have targets : each (labelOrIndex inner) a = pure x := list.now
    change Convert.modifier inner (.case "Modifier" [a, b]) = _
    simp only [Convert.modifier, itemAt_second, pure_bind, e.exprOrText]
    change (do make (.part .modifier) [← each (labelOrIndex inner) a, y]) = _
    simp only [targets, pure_bind]
    exact make_part _ (by decide)
  | modifyText text =>
    obtain ⟨a, x, rfl, rfl, e⟩ := parts.one
    change Convert.modifier inner (.case "ModifierRaw" [verbatimTree text lost, a]) = _
    simp only [Convert.modifier, ↓tag_bind, itemAt_first, itemAt_second, pure_bind, e.exprOrText]
    rfl

theorem converted_branch : PhraseKind.IsConverted .branch inner := by
  intro trees terms h place lost parts
  cases h with
  | branch p =>
    obtain ⟨a, x, rfl, rfl, e⟩ := parts.one
    change caseBranch inner (.tuple [PatternOrText.tree p place lost, a]) = _
    simp only [caseBranch, itemAt_first, itemAt_second, pure_bind, pattern_tree p place lost,
      e.exprOrText]
    exact make_part _ (by decide)

/-! ### Types -/

theorem predefinedType_tree (type : PredefinedType) :
    predefinedType (.case type.name []) = pure (.constant (.predefinedType type)) :=
  constantOf_case (by cases type <;> decide +kernel)

theorem converted_type : PhraseKind.IsConverted .type inner := by
  intro trees terms h place lost parts
  cases h with
  | predefined type =>
    change Convert.type inner (.case "TPredefinedType" [.case type.name []]) = _
    simp only [Convert.type, ↓tag_bind, item_node, pure_bind, predefinedType_tree]
    exact make_type _ _
  | signed | unsigned =>
    obtain ⟨a, x, rfl, rfl, size⟩ := parts.one
    change Convert.type inner (.case _ [a]) = _
    simp only [Convert.type, ↓tag_bind, item_node, pure_bind, size.expr]
    exact make_type _ _
  | named ids =>
    change Convert.type inner (.case "TAlias" [pathTree ids]) = _
    simp only [Convert.type, ↓tag_bind, item_node, pure_bind, path_tree]
    exact make_type _ _
  | typeVariable name =>
    change Convert.type inner (.case "TVar" [nameTree name]) = _
    simp only [Convert.type, ↓tag_bind, item_node, pure_bind, nameIdentifier_tree]
    exact make_type _ _
  | struct =>
    obtain ⟨a, x, rfl, rfl, list⟩ := parts.one
    have fields : each (structField inner) a = pure x := list.now
    change Convert.type inner (.case "TStruct" [a]) = _
    simp only [Convert.type, ↓tag_bind, item_node, pure_bind, fields]
    exact make_type _ _
  | array =>
    obtain ⟨a, b, x, y, rfl, rfl, type, size⟩ := parts.two
    change Convert.type inner (.case "TArray" [a, b]) = _
    simp only [Convert.type, ↓tag_bind, itemAt_first, itemAt_second, pure_bind, type.type, size.expr]
    exact make_type _ _

theorem converted_typeOrText : PhraseKind.IsConverted .typeOrText inner := by
  intro trees terms h place lost parts
  cases h with
  | readType =>
    obtain ⟨a, x, rfl, rfl, type⟩ := parts.one
    exact type.type
  | typeText text => rfl

theorem converted_field : PhraseKind.IsConverted .field inner := by
  intro trees terms h place lost parts
  cases h with
  | field id =>
    obtain ⟨a, x, rfl, rfl, type⟩ := parts.one
    change structField inner (.tuple [id.tree, a]) = _
    simp only [structField, itemAt_first, itemAt_second, pure_bind, identifier_tree, type.type]
    exact make_type _ _

/-! ### Operators -/

theorem converted_indices : PhraseKind.IsConverted .indices inner := by
  intro trees terms h place lost parts
  cases h with
  | indices =>
    obtain ⟨a, x, rfl, rfl, list⟩ := parts.one
    exact list.now
  | indicesText text => rfl

theorem operator_record (call : ParseTree) (sizes : each (Convert.exprOrText inner) tree = pure t)
    (texts : List String) :
    Convert.operator inner (operatorRecord call tree texts) =
      operatorCall inner t (.list (texts.map fun text => .pragma (.text text))) call := by
  have sizesField : Convert.field "CallSize" (operatorRecord call tree texts) = pure tree :=
    field_node rfl
  have pragmasField : Convert.field "CallPragmas" (operatorRecord call tree texts) =
      pure (.list (texts.map ParseTree.text)) := field_node rfl
  have callField : Convert.field "CallOp" (operatorRecord call tree texts) = pure call := field_node rfl
  have marks : pragmas (.list (texts.map ParseTree.text)) =
      pure (.list (texts.map fun text => .pragma (.text text))) := each_map (fun _ => rfl) texts
  simp only [Convert.operator, sizesField, pragmasField, callField, pure_bind, sizes, marks]

theorem converted_operator : PhraseKind.IsConverted .operator inner := by
  intro trees terms h place lost parts
  cases h with
  | path ids texts =>
    obtain ⟨a, x, rfl, rfl, sizes⟩ := parts.one
    refine (operator_record (.case "OPathId" [pathTree ids]) sizes.now texts).trans ?_
    simp only [operatorCall, ↓tag_bind, item_node, pure_bind, path_tree]
    exact make_operator _ _
  | flatten | pack | reverse =>
    obtain ⟨a, x, rfl, rfl, sizes⟩ := parts.one
    refine (operator_record (.case "OPrefixPrimitive" [.case _ []]) sizes.now lost).trans ?_
    simp only [operatorCall, primitive, ↓tag_bind, item_node, pure_bind]
    exact make_operator _ _
  | transpose =>
    obtain ⟨a, b, x, y, rfl, rfl, numbers, sizes⟩ := parts.two
    have indices : transposeIndices a = pure x := numbers.now
    refine (operator_record (.case "OPrefixPrimitive" [.case "Transpose" [a]]) sizes.now lost).trans ?_
    change (do make (.operator .transpose) [← transposeIndices a, y]) = _
    simp only [indices, pure_bind]
    exact make_operator _ _
  | express =>
    obtain ⟨a, b, x, y, rfl, rfl, e, sizes⟩ := parts.two
    have expression : inner .operatorExpr a = pure x := e.later _ rfl
    refine (operator_record (.case "OOperatorExpr" [.record (("OEOpExpr", a) :: place)])
      sizes.now lost).trans ?_
    change (do make (.operator .expression) [← inner .operatorExpr a, y]) = _
    simp only [expression, pure_bind]
    exact make_operator _ _

theorem lookup_iteratorKind (kind : IteratorKind) :
    iteratorKinds.lookup (tagFor iteratorKinds kind) = some kind := by
  cases kind <;> rfl

theorem lookup_naryOp (op : NaryOp) : naryOps.lookup (tagFor naryOps op) = some op := by
  cases op <;> rfl

theorem converted_operatorExpr : PhraseKind.IsConverted .operatorExpr inner := by
  intro trees terms h place lost parts
  cases h with
  | iterate kind =>
    obtain ⟨a, x, rfl, rfl, op⟩ := parts.one
    change Convert.operatorExpr inner
      (.case "OIterator" [.case (tagFor iteratorKinds kind) (Option.toList lost |>.map .number), a]) = _
    -- The arity is an item of the iterator that is never asked for.
    simp only [Convert.operatorExpr, iterator, ↓tag_bind, itemAt_first, itemAt_second, pure_bind,
      op.operator, lookup_iteratorKind]
    exact make_operator _ _
  | activateClock =>
    obtain ⟨a, b, x, y, rfl, rfl, op, clock⟩ := parts.two
    change Convert.operatorExpr inner (.case "OActivateClock" [a, b]) = _
    simp only [Convert.operatorExpr, ↓tag_bind, itemAt_first, itemAt_second, pure_bind, op.operator,
      clock.clock]
    exact make_operator _ _
  | activateEvery isLast =>
    obtain ⟨a, b, c, x, y, z, rfl, rfl, op, condition, default⟩ := parts.three
    change Convert.operatorExpr inner (.case "OActivateCondition" [a, b, .truth isLast, c]) = _
    simp only [Convert.operatorExpr, ↓tag_bind, itemAt_first, itemAt_second, itemAt_third,
      itemAt_fourth, pure_bind, op.operator, condition.exprOrText, default.exprOrText]
    exact make_operator _ _
  | restart =>
    obtain ⟨a, b, x, y, rfl, rfl, op, condition⟩ := parts.two
    change Convert.operatorExpr inner (.case "ORestart" [a, b]) = _
    simp only [Convert.operatorExpr, ↓tag_bind, itemAt_first, itemAt_second, pure_bind, op.operator,
      condition.exprOrText]
    exact make_operator _ _
  | partialCall =>
    obtain ⟨a, b, x, y, rfl, rfl, op, list⟩ := parts.two
    have arguments : each (Convert.optionalItem inner) b = pure y := list.now
    change Convert.operatorExpr inner (.case "OPartial" [a, b]) = _
    simp only [Convert.operatorExpr, ↓tag_bind, itemAt_first, itemAt_second, pure_bind, op.operator,
      arguments]
    exact make_operator _ _
  | nary op =>
    change Convert.operatorExpr inner (.case "ONary" [.case (tagFor naryOps op) []]) = _
    simp only [Convert.operatorExpr, ↓tag_bind, item_node, pure_bind, lookup_naryOp]
    exact make_operator _ _

theorem converted_optionalItem : PhraseKind.IsConverted .optionalItem inner := by
  intro trees terms h place lost parts
  cases h with
  | argument =>
    obtain ⟨a, x, rfl, rfl, item⟩ := parts.one
    have converted : groupItem inner a = pure x := item.now
    change Convert.optionalItem inner (.case "OGroupItem" [a]) = _
    simp only [Convert.optionalItem, ↓tag_bind, item_node, pure_bind, converted]
    exact make_operator _ _
  | underscore => rfl

/-! ### Levels -/

namespace ParseTree

theorem height_pos (tree : ParseTree) : 0 < tree.height := by
  cases tree <;> simp [height]

theorem heights_one (length : trees.length = 1) : heights trees = (treeAt trees 0).height := by
  obtain ⟨a, rfl⟩ := List.length_eq_one_iff.mp length
  exact Nat.max_zero _

theorem heights_two (length : trees.length = 2) :
    heights trees = max (treeAt trees 0).height (treeAt trees 1).height := by
  obtain ⟨a, b, rfl⟩ := List.length_eq_two.mp length
  simp [heights, treeAt]

theorem heights_three (length : trees.length = 3) :
    heights trees = max (treeAt trees 0).height
      (max (treeAt trees 1).height (treeAt trees 2).height) := by
  obtain ⟨a, b, c, rfl⟩ := List.length_eq_three.mp length
  simp [heights, treeAt]

end ParseTree

theorem Head.heights_lt (h : Head k) (place : h.Place) (lost : h.Lost)
    (length : trees.length = h.parts.length) :
    ParseTree.heights trees < (h.tree place lost trees).height := by
  by_cases none : trees = []
  · subst none
    exact ParseTree.height_pos _
  · have filled : 0 < trees.length := List.length_pos_iff.mpr none
    unfold Head.tree
    unfold Head.parts at length
    cases h with
    | indices | readExpr | readType | path | flatten | pack | reverse | size | arrayItemWith |
      returnItemWith | returnArray =>
      rw [ParseTree.heights_one length]
      simp only [operatorRecord, ParseTree.height, ParseTree.heights, ParseTree.fieldHeights]
      omega
    | adapt | projectIndex | call | callInstance | sizeWith | transpose | express =>
      rw [ParseTree.heights_two length]
      simp only [operatorRecord, instanceRecord, ParseTree.height, ParseTree.heights,
        ParseTree.fieldHeights]
      omega
    | activateEvery =>
      rw [ParseTree.heights_three length]
      simp only [ParseTree.height, ParseTree.heights, ParseTree.fieldHeights]
      omega
    | _ =>
      simp only [List.length_nil, List.length_cons, List.length_replicate] at length
      simp only [bodyRecord, ParseTree.height, ParseTree.heights, ParseTree.heights_append,
        ParseTree.fieldHeights]
      omega

/-! ### Phrases -/

abbrev Admitted (ks : List PhraseKind) (terms : List Term) : Prop :=
  List.Forall₂ (fun k t => k.admits t = true) ks terms

theorem Head.admits_term (h : Head k) (fits : Admitted h.parts terms) :
    k.admits (h.term terms) = true := by
  cases h with
  | readExpr =>
    obtain _ | ⟨admitted, _ | _⟩ := fits
    rename_i t
    change PhraseKind.exprOrText.admits t = true
    cases t with
    | node form parts =>
      cases form with
      | expr form => rfl
      | _ => cases admitted
    | _ => cases admitted
  | _ => rfl

/-- A phrase is converted to its construct if its parts are. -/
theorem Head.convert_tree (h : Head k) (place : h.Place) (lost : h.Lost)
    (deeper : ConvertedParts (convertUpTo n) h.parts trees terms)
    (parts : ConvertedParts (convertUpTo (n + 1)) h.parts trees terms)
    (enough : 3 * (h.tree place lost trees).height ≤ n + 2) :
    k.convert (convertUpTo (n + 1)) (h.tree place lost trees) = pure (h.term terms) := by
  cases k with
  | index =>
    cases h with
    | index n => exact transposeIndex_tree lost
  | list k =>
    cases h with
    | list length => exact parts.each_replicate
  | expr => exact h.convert_expr place lost deeper parts
  | clock => exact h.convert_clock place lost
  | groupRenaming => exact h.convert_groupRenaming place lost
  | indices => exact converted_indices h place lost parts
  | exprOrText => exact converted_exprOrText h place lost parts
  | label => exact converted_label h place lost parts
  | item => exact converted_item h place lost parts
  | group => exact converted_group h place lost parts
  | modifier => exact converted_modifier h place lost parts
  | branch => exact converted_branch h place lost parts
  | left => exact converted_left h place lost parts
  | element => exact converted_element h place lost parts
  | dimension => exact converted_dimension h place lost parts
  | body => exact h.convert_body place lost parts enough
  | lastDefault => exact converted_lastDefault h place lost parts
  | arrayClause => exact converted_arrayClause h place lost parts
  | result => exact converted_result h place lost parts
  | type => exact converted_type h place lost parts
  | typeOrText => exact converted_typeOrText h place lost parts
  | field => exact converted_field h place lost parts
  | operator => exact converted_operator h place lost parts
  | operatorExpr => exact converted_operatorExpr h place lost parts
  | optionalItem => exact converted_optionalItem h place lost parts

namespace Phrases

variable {Beside : (k : PhraseKind) → Head k → Type} {ks : List PhraseKind}

theorem length_trees (a : Phrases Whole ks) : a.trees.length = ks.length := by
  induction a with
  | nil => rfl
  | cons head beside parts rest ihParts ihRest => rw [trees, List.length_cons, ihRest, List.length_cons]

theorem admitted (a : Phrases Beside ks) : Admitted ks a.terms := by
  induction a with
  | nil => exact .nil
  | cons head beside parts rest ihParts ihRest => exact .cons (head.admits_term ihParts) ihRest

theorem converted (a : Phrases Whole ks) (n : Nat) (enough : 3 * ParseTree.heights a.trees ≤ n) :
    ConvertedParts (convertUpTo n) ks a.trees a.terms := by
  induction a generalizing n with
  | nil => exact .nil
  | cons head beside parts rest ihParts ihRest =>
    rw [trees, ParseTree.heights] at enough
    have lower := head.heights_lt beside.1 beside.2 parts.length_trees
    -- The converter of parts has a level less, and the converter of a loop has one less for its parts.
    have high := ParseTree.height_pos (head.tree beside.1 beside.2 parts.trees)
    obtain ⟨m, rfl⟩ : ∃ m, n = m + 2 := ⟨n - 2, by omega⟩
    refine .cons ⟨?_, ?_, head.admits_term parts.admitted⟩ (ihRest _ (by omega))
    · exact head.convert_tree _ _ (ihParts _ (by omega)) (ihParts _ (by omega)) (by omega)
    · intro rule own
      rw [convertUpTo, PhraseKind.step_rule own]
      exact head.convert_tree _ _ (ihParts _ (by omega)) (ihParts _ (by omega)) (by omega)

end Phrases

/-- A phrase with a rule of its own is converted to its construct, whatever the reader, and nothing
is read. -/
theorem Phrase.convert_tree {rule : Rule} (a : Phrase Whole k) (own : k.rule? = some rule)
    (reader : Reader) (s : Reading) : perform (convert rule a.tree) reader s = (.ok a.term, s) := by
  have lower : ParseTree.heights a.parts.trees < a.tree.height :=
    a.head.heights_lt _ _ a.parts.length_trees
  have levels : levelsFor reader a.tree = 3 * (a.tree.height + reader.depth) + 2 + 1 := rfl
  have deeper := a.parts.converted (3 * (a.tree.height + reader.depth) + 1) (by omega)
  have parts := a.parts.converted (3 * (a.tree.height + reader.depth) + 2) (by omega)
  have converted : convertUpTo (levelsFor reader a.tree) rule a.tree = pure a.term := by
    rw [levels, convertUpTo, PhraseKind.step_rule own]
    refine a.head.convert_tree _ _ deeper parts ?_
    change 3 * a.tree.height ≤ _
    omega
  rw [convert, perform_bind_ok (perform_read reader s), converted, perform_pure]

end SwanModel
