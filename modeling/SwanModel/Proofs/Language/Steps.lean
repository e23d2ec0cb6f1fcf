import SwanModel.Proofs.Language.Terms
import SwanModel.Proofs.Language.Grammar

/-!
# Conversions that always succeed

`Gives` says that a conversion ends with a result that has a property, whatever the reader, and
reads nothing.
-/

namespace SwanModel

open SwanModel.Convert

variable {α β : Type}

/-- A conversion ends with a result that has a property, and reads nothing. -/
def Gives (x : Conversion α) (post : α → Prop) : Prop :=
  ∀ reader s, ∃ a, perform x reader s = (.ok a, s) ∧ post a

namespace Gives

variable {x : Conversion α} {post : α → Prop}

theorem pure {a : α} (holds : post a) : Gives (Pure.pure a) post := fun _ _ => ⟨a, rfl, holds⟩

theorem bind {f : α → Conversion β} {post' : β → Prop} (first : Gives x post)
    (rest : ∀ a, post a → Gives (f a) post') : Gives (x >>= f) post' := by
  intro reader s
  obtain ⟨a, ran, holds⟩ := first reader s
  obtain ⟨b, ran', holds'⟩ := rest a holds reader s
  exact ⟨b, (perform_bind_ok ran f).trans ran', holds'⟩

theorem weaken {post' : α → Prop} (gives : Gives x post) (weaker : ∀ a, post a → post' a) :
    Gives x post' := by
  intro reader s
  obtain ⟨a, ran, holds⟩ := gives reader s
  exact ⟨a, ran, weaker a holds⟩

theorem mapM {f : ParseTree → Conversion Term} {shape : TermShape} {trees : List ParseTree}
    (each : ∀ tree ∈ trees, Gives (f tree) (Fits shape)) : Gives (trees.mapM f) (FitsEach shape) := by
  induction trees with
  | nil => exact .pure .nil
  | cons tree trees ih =>
    rw [List.mapM_cons]
    exact (each tree (by simp)).bind fun t head =>
      (ih fun other inside => each other (by simp [inside])).bind fun ts tail => .pure (.cons head tail)

end Gives

/-! ### Access to trees -/

section Access

variable {t : Option String} {fields : List (String × ParseTree)} {a b c d : ParseTree}

theorem tag_node (tag : String) (items : List ParseTree) :
    Convert.tag (.node (some tag) items fields) = pure tag := rfl

/-- The case for a tag is chosen before the cases are looked at. -/
theorem tag_bind {α : Type} (tag : String) (items : List ParseTree) (f : String → Conversion α) :
    Convert.tag (.node (some tag) items fields) >>= f = f tag := by rw [tag_node, pure_bind]

theorem item_node : Convert.item (.node t [a] fields) = pure a := rfl

theorem itemAt_first (rest : List ParseTree) :
    Convert.itemAt 1 (.node t (a :: b :: rest) fields) = pure a := rfl

theorem itemAt_second (rest : List ParseTree) :
    Convert.itemAt 2 (.node t (a :: b :: rest) fields) = pure b := rfl

theorem itemAt_third (rest : List ParseTree) :
    Convert.itemAt 3 (.node t (a :: b :: c :: rest) fields) = pure c := rfl

theorem itemAt_fourth (rest : List ParseTree) :
    Convert.itemAt 4 (.node t (a :: b :: c :: d :: rest) fields) = pure d := rfl

theorem itemAt_fifth {e : ParseTree} (rest : List ParseTree) :
    Convert.itemAt 5 (.node t (a :: b :: c :: d :: e :: rest) fields) = pure e := rfl

theorem field_node {items : List ParseTree} {name : String} (found : fields.lookup name = some a) :
    Convert.field name (.node t items fields) = pure a := by
  simp [Convert.field, ParseTree.field, found, Convert.ofExcept]

end Access

/-! ### Results -/

def Rule.result : Rule → TermShape
  | .identifier => .identifier
  | .path | .pathOrText => .path
  | .luid => .luid
  | .protectedItem => .verbatim
  | .predefinedType => .constant "PredefinedTypes"
  | .numericKind => .constant "NumericKind"
  | .unaryOp => .constant "UnaryOp"
  | .binaryOp => .constant "BinaryOp"
  | .type | .typeOrText => .type
  | .groupType => .groupType
  | .exprOrText | .expr => .expr
  | .labelOrIndex => .part .labelOrIndex
  | .groupItem => .part .groupItem
  | .group => .part .group
  | .modifier => .part .modifier
  | .groupRenaming => .part .groupRenaming
  | .adaptation => .part .adaptation
  | .clock => .part .clock
  | .pattern => .pattern
  | .port => .construct [.expr .port]
  | .operator => .operator
  | .locatedOperatorExpr | .operatorExpr => .operatorExpr
  | .optionalItem => .construct [.operator .optionalItem]
  | .leftItem => .equationPart .leftItem
  | .left => .equationPart .left
  | .equation => .equation
  | .identification => .equationPart .identification
  | .ifActivation => .equationPart .ifActivation
  | .branch => .construct [.equation .branchScope, .equation .branchIf]
  | .activationBranch => .equationPart .ifBranch
  | .whenBranch => .equationPart .whenBranch
  | .machineItem => .construct [.equation .state, .equation .transitionDecl]
  | .arrow => .equationPart .arrow
  | .priorityFork => .equationPart .priorityFork
  | .stateBody => .list .scopeSection
  | .connection => .construct [.diagram .connection]
  | .object => .object
  | .emission => .construct [.scope .emission]
  | .scopeSection => .scopeSection
  | .scope => .scope
  | .flow => .flow
  | .constraint => .decl .typeConstraint
  | .signature => .decl .signature
  | .constant => .decl .constant
  | .sensor => .decl .sensor
  | .typeDecl => .decl .type
  | .groupDecl => .decl .group
  | .use => .construct [.module .use]
  | _ => .declaration

def Convert.SignatureParts.terms (p : SignatureParts) : List Term :=
  [p.id, p.isNode, p.inputs, p.outputs, p.sizes, p.constraints, p.specialization, p.pragmas]

def Convert.SignatureParts.WellFormed (p : SignatureParts) : Prop :=
  FitsAll [.identifier, .flag, .list .flow, .list .flow, .list .identifier,
    .list (.decl .typeConstraint), .maybe .path, .list .pragma] p.terms

def Convert.SignatureParts.operator (p : SignatureParts) (body : Term) : Term :=
  .node (.decl .operator)
    [p.id, p.isNode, p.inputs, p.outputs, body, p.sizes, p.constraints, p.specialization, p.pragmas,
      .truth false]

/-- A term is the operator that a tree describes; its body is still the tree. -/
def IsOperator (tree : ParseTree) (t : Term) : Prop :=
  ∃ p : SignatureParts, p.WellFormed ∧ t = p.operator (.raw tree)

def Yields (rule : Rule) (tree : ParseTree) (t : Term) : Prop :=
  match rule with
  | .scope => if tree.isEmptyDefinition then t = .absent else Fits .scope t
  | .userOperator => IsOperator tree t
  | .declaration =>
    Fits .declaration t ∨
      ∃ operator, HasPart (.declaration, tree) (.userOperator, operator) ∧ IsOperator operator t
  | rule => Fits rule.result t

/-- The converters of parts give what they are to give: those that are called again, and those of
the same level. -/
structure Converts (inner : Convert) (known : Rule → ParseTree → Bool) : Prop where
  later : ∀ {rule tree}, known rule tree = true → Gives (inner rule tree) (Yields rule tree)
  now : ∀ {rule tree}, known rule tree = true → Gives (Convert.step inner rule tree) (Yields rule tree)

variable {known : Rule → ParseTree → Bool} {tree : ParseTree} {shape : TreeShape} {result : TermShape}

theorem make_gives {form : Form} {forms : List Form} {shapes : List TermShape} {args : List Term}
    (listed : form ∈ forms) (parts : form.parts = some shapes) (direct : form.isDirect = true)
    (fits : FitsAll shapes args) :
    Gives (make form args) (Fits (.construct forms)) := by
  rw [make, build_of_fits parts direct fits]
  exact .pure (.construct listed parts fits)

theorem each_gives {f : ParseTree → Conversion Term}
    (accepted : (TreeShape.list shape).accepts known tree = true)
    (member : ∀ tree, shape.accepts known tree = true → Gives (f tree) (Fits result)) :
    Gives (each f tree) (Fits (.list result)) := by
  obtain ⟨items, rfl, fits⟩ := TreeShape.accepts_list accepted
  exact (Gives.mapM fun item inside => member item (fits item inside)).bind fun ts each =>
    .pure (.list each)

theorem optional_gives {f : ParseTree → Conversion Term}
    (accepted : (TreeShape.option shape).accepts known tree = true)
    (member : ∀ tree, shape.accepts known tree = true → Gives (f tree) (Fits result)) :
    Gives (optional f tree) (Fits (.maybe result)) := by
  rcases TreeShape.accepts_option accepted with rfl | ⟨value, rfl, truthy, fits⟩
  · exact .pure (.left .absent)
  · simp only [Convert.optional, ParseTree.value, Convert.ofExcept, pure_bind, truthy]
    exact (member value fits).weaken fun t fits => .right fits

theorem Yields.maybe_scope {t : Term} (yields : Yields .scope tree t) : Fits (.maybe .scope) t := by
  simp only [Yields] at yields
  split at yields
  · rw [yields]
    exact .left .absent
  · exact .right yields

end SwanModel
