import SwanModel.Proofs.Store.Load

/-!
# Well-formed terms

`Form.parts` gives the shapes of the parts of every form, and `Fits` says that a term has a shape
with all that is inside it. Such a term can be built from its parts and put into a store.
-/

namespace SwanModel

/-- What may stand at a place of a construct. -/
inductive TermShape where
  | absent
  | text
  | flag
  | number
  /-- A constant of a kind. -/
  | constant (family : String)
  | pragma
  /-- A construct of one of some forms. -/
  | construct (forms : List Form)
  | list (member : TermShape)
  /-- A list that is not empty. -/
  | filled (member : TermShape)
  | either (left right : TermShape)

namespace TermShape

def maybe (shape : TermShape) : TermShape := .either .absent shape

def identifier : TermShape := .construct [.name .identifier]

def path : TermShape := .construct [.name .path]

def luid : TermShape := .construct [.name .luid]

def verbatim : TermShape := .construct [.name .verbatim]

def type : TermShape := .construct <|
  [.typeVariable, .predefined, .sized, .named, .struct, .array, .verbatim].map .type

def groupType : TermShape := .construct [.type .groupType, .type .groupList]

def definition : TermShape := .either type (.construct [.type .enumeration, .type .variants])

def pattern : TermShape := .construct <|
  [.path, .variant, .char, .int, .bool, .underscore, .otherwise, .verbatim].map .pattern

def expr : TermShape := .construct <|
  [.path, .last, .literal, .port, .unary, .binary, .whenClock, .whenMatch, .conversion, .group, .adapted,
    .arrayProjection, .structProjection, .makeGroup, .slice, .dynamicProjection, .makeArray,
    .arrayOfGroup, .makeStruct, .variant, .makeCopy, .conditional, .caseOf, .window, .merge,
      .verbatim, .operation].map .expr

def part (form : PartForm) : TermShape := .construct [.part form]

def operator : TermShape :=
  .construct <| [.path, .primitive, .transpose, .expression, .verbatim].map .operator

def operatorExpr : TermShape := .construct <|
  [.iterator, .activateClock, .activateEvery, .restart, .partialApplication, .nary, .lambda,
    .lambdaScope].map .operator

def equationPart (form : EquationForm) : TermShape := .construct [.equation form]

def equation : TermShape :=
  .construct <| [.expression, .machine, .activateIf, .activateWhen].map .equation

def object : TermShape := .construct <|
  [.expression, .definition, .block, .wire, .group, .sectionObject].map .diagram

def scopeSection : TermShape := .construct <|
  .diagram .diagram :: [.equations, .variables, .emissions, .assumptions, .guarantees].map .scope

def scope : TermShape := .either equation (.construct [.scope .scope])

def flow : TermShape := .construct [.decl .flowDecl, .decl .flowVerbatim]

def decl (form : DeclForm) : TermShape := .construct [.decl form]

def declaration : TermShape := .construct <|
  .decl .signature :: [.types, .constants, .sensors, .groups, .use, .verbatim].map .module

end TermShape

/-! ### The parts of the constructs -/

def NameForm.parts : NameForm → Option (List TermShape)
  | .identifier => some [.text, .list .text, .absent, .flag]
  | .path => some [.either (.filled .identifier) .text]
  | .luid => some [.text]
  | .verbatim => some [.text, .text]
  | _ => none

def TypeForm.parts : TypeForm → Option (List TermShape)
  | .typeVariable => some [.identifier]
  | .predefined => some [.constant "PredefinedTypes"]
  | .sized => some [.expr, .flag]
  | .named => some [.path]
  | .field => some [.identifier, .type]
  | .struct => some [.list (.construct [.type .field])]
  | .array => some [.type, .expr]
  | .verbatim => some [.text]
  | .enumeration => some [.list .identifier]
  | .variantCase => some [.identifier, .maybe .type]
  | .variants => some [.list (.construct [.type .variantCase])]
  | .groupType => some [.type]
  | .groupNamed => some [.identifier, .groupType]
  | .groupList => some [.list .groupType, .list (.construct [.type .groupNamed])]
  | _ => none

def PatternForm.parts : PatternForm → Option (List TermShape)
  | .path => some [.path]
  | .variant => some [.path, .maybe .identifier, .flag]
  | .char => some [.text]
  | .int => some [.text, .flag]
  | .bool => some [.flag]
  | .underscore => some []
  | .otherwise => some []
  | .verbatim => some [.text]
  | .bare => none

def ExprForm.parts : ExprForm → Option (List TermShape)
  | .path => some [.path]
  | .last => some [.identifier]
  | .literal => some [.either .text .number, .constant "LiteralKind"]
  | .port => some [.maybe .luid]
  | .unary => some [.constant "UnaryOp", .expr]
  | .binary => some [.constant "BinaryOp", .expr, .expr]
  | .whenClock => some [.expr, .part .clock]
  | .whenMatch => some [.expr, .path]
  | .conversion => some [.expr, .type]
  | .group => some [.part .group]
  | .adapted => some [.expr, .part .adaptation]
  | .arrayProjection => some [.expr, .part .labelOrIndex]
  | .structProjection => some [.expr, .part .labelOrIndex]
  | .makeGroup => some [.path, .expr]
  | .slice => some [.expr, .expr, .expr]
  | .dynamicProjection => some [.expr, .list (.part .labelOrIndex), .expr]
  | .makeArray => some [.expr, .expr]
  | .arrayOfGroup => some [.part .group]
  | .makeStruct => some [.part .group, .maybe .path]
  | .variant => some [.path, .part .group]
  | .makeCopy => some [.expr, .list (.part .modifier)]
  | .conditional => some [.expr, .expr, .expr]
  | .caseOf => some [.expr, .list (.part .caseBranch)]
  | .window => some [.expr, .part .group, .part .group]
  | .merge => some [.list (.part .group)]
  | .verbatim => some [.text]
  | .operation => some [.operator, .part .group, .maybe .luid]
  | .bare | .forward => none

def PartForm.parts : PartForm → Option (List TermShape)
  | .clock => some [.identifier, .flag, .maybe .pattern]
  | .groupItem => some [.expr, .maybe .identifier]
  | .group => some [.list (.part .groupItem)]
  | .groupRenaming => some [.either (.construct [.expr .literal]) .identifier, .maybe .identifier, .flag]
  | .adaptation => some [.list (.part .groupRenaming)]
  | .labelOrIndex => some [.either .expr .identifier]
  | .modifier => some [.either .text (.list (.part .labelOrIndex)), .expr]
  | .caseBranch => some [.pattern, .expr]

def OperatorForm.parts : OperatorForm → Option (List TermShape)
  | .path => some [.path, .list .expr, .list .pragma]
  | .primitive => some [.constant "PrefixPrimitiveKind", .list .expr]
  | .transpose => some [.either .text (.list .number), .list .expr]
  | .expression => some [.operatorExpr, .list .expr]
  | .iterator => some [.constant "IteratorKind", .operator]
  | .activateClock => some [.operator, .part .clock]
  | .activateEvery => some [.operator, .expr, .flag, .expr]
  | .restart => some [.operator, .expr]
  | .optionalItem => some [.maybe (.part .groupItem)]
  | .partialApplication => some [.operator, .list (.construct [.operator .optionalItem])]
  | .nary => some [.constant "NaryOp"]
  | .lambda => some [.flag, .list .identifier, .list .scopeSection, .expr]
  | .lambdaScope => some [.flag, .list .flow, .list .flow, .maybe .scope]
  | .verbatim => some [.text, .text]
  | .bare | .bareExpression => none

namespace TermShape

def priority : TermShape := maybe (.either .text .number)

def goal : TermShape := .construct [.equation .target, .equation .forkTree, .equation .priorityForks]

end TermShape

def EquationForm.parts : EquationForm → Option (List TermShape)
  | .left => some [.list (.equationPart .leftItem), .flag]
  | .leftItem => some [.maybe .identifier]
  | .expression => some [.equationPart .left, .expr]
  | .identification => some [.maybe (.either .text .luid), .maybe (.either .text .identifier)]
  | .target => some [.equationPart .identification, .flag]
  | .arrow => some [.maybe .expr, .maybe .scope, .goal]
  | .forkTree => some [.equationPart .arrow, .list (.equationPart .arrow), .maybe (.equationPart .arrow)]
  | .priorityFork => some [.priority, .equationPart .arrow, .flag]
  | .priorityForks => some [.list (.equationPart .priorityFork)]
  | .transition => some [.equationPart .arrow]
  | .transitionDecl => some [.priority, .equationPart .transition, .flag, .equationPart .identification]
  | .state =>
    some [.equationPart .identification, .list (.equationPart .transition), .list .scopeSection,
      .list (.equationPart .transition), .flag]
  | .machine =>
    some [.equationPart .left, .list (.construct [.equation .state, .equation .transitionDecl]),
      .maybe .text]
  | .ifBranch => some [.maybe .expr, .construct [.equation .branchScope, .equation .branchIf]]
  | .ifActivation => some [.list (.equationPart .ifBranch)]
  | .branchScope => some [.maybe .scope]
  | .branchIf => some [.equationPart .ifActivation]
  | .activateIf => some [.equationPart .ifActivation, .equationPart .left, .maybe .text]
  | .whenBranch => some [.pattern, .maybe .scope]
  | .activateWhen => some [.expr, .list (.equationPart .whenBranch), .equationPart .left, .maybe .text]
  | .bare | .byCase | .machineItem | .fork | .branch => none

def DiagramForm.parts : DiagramForm → Option (List TermShape)
  | .diagram => some [.list .object]
  | .expression => some [.expr, .maybe .luid, .list .object]
  | .definition => some [.either (.equationPart .left) .verbatim, .maybe .luid, .list .object]
  | .block => some [.either (.either .operator .operatorExpr) .verbatim, .maybe .luid, .maybe .luid,
      .list .object]
  | .connection => some [.maybe (.construct [.expr .port]), .maybe (.part .adaptation)]
  | .wire =>
    some [.construct [.diagram .connection], .list (.construct [.diagram .connection]),
      .maybe .luid, .list .object]
  | .group => some [.constant "GroupOperation", .maybe .luid, .list .object]
  | .sectionObject => some [.scopeSection, .maybe .luid, .list .object]
  | .object => none

def SectionForm.parts : SectionForm → Option (List TermShape)
  | .scope => some [.list .scopeSection]
  | .equations => some [.list .equation]
  | .variables => some [.list .flow]
  | .emission => some [.list .identifier, .maybe .expr]
  | .emissions => some [.list (.construct [.scope .emission])]
  | .property => some [.identifier, .expr]
  | .assumptions => some [.list (.construct [.scope .property])]
  | .guarantees => some [.list (.construct [.scope .property])]
  | .bare | .verbatim => none

def DeclForm.parts : DeclForm → Option (List TermShape)
  | .constant => some [.identifier, .type, .maybe .expr]
  | .sensor => some [.identifier, .type]
  | .group => some [.identifier, .groupType]
  | .type => some [.identifier, .maybe .definition]
  | .flowDecl => some [.identifier, .flag, .flag, .maybe .groupType, .maybe (.part .clock),
      .maybe .expr, .maybe .expr]
  | .flowVerbatim => some [.text]
  | .typeConstraint => some [.either .text (.list .type), .constant "NumericKind"]
  | .signature =>
    some [.identifier, .flag, .list .flow, .list .flow, .list .identifier,
      .list (.decl .typeConstraint), .maybe .path, .list .pragma]
  | .operator =>
    some [.identifier, .flag, .list .flow, .list .flow, .maybe .scope, .list .identifier,
      .list (.decl .typeConstraint), .maybe .path, .list .pragma, .flag]
  | .flow => none

def ModuleForm.parts : ModuleForm → Option (List TermShape)
  | .types => some [.list (.decl .type)]
  | .constants => some [.list (.decl .constant)]
  | .sensors => some [.list (.decl .sensor)]
  | .groups => some [.list (.decl .group)]
  | .use => some [.path, .maybe .identifier]
  | .verbatim => some [.text, .text]
  | _ => none

/-- The shapes of the parts of a construct; none for forms that the language does not have. -/
def Form.parts : Form → Option (List TermShape)
  | .name f => f.parts
  | .type f => f.parts
  | .pattern f => f.parts
  | .expr f => f.parts
  | .part f => f.parts
  | .operator f => f.parts
  | .forward _ => none
  | .equation f => f.parts
  | .diagram f => f.parts
  | .scope f => f.parts
  | .decl f => f.parts
  | .module f => f.parts

mutual

/-- A term has a shape, with all that is inside it. -/
inductive Fits : TermShape → Term → Prop
  | absent : Fits .absent .absent
  | text (s : String) : Fits .text (.text s)
  | flag (b : Bool) : Fits .flag (.truth b)
  | number (n : Int) : Fits .number (.number n)
  | constant (c : Constant) : Fits (.constant c.family) (.constant c)
  | pragma (s : String) : Fits .pragma (.pragma (.text s))
  | construct {forms : List Form} {form : Form} {shapes : List TermShape} {parts : List Term}
    (listed : form ∈ forms) (known : form.parts = some shapes) (fits : FitsAll shapes parts) :
    Fits (.construct forms) (.node form parts)
  | list {member : TermShape} {items : List Term} (fits : FitsEach member items) :
    Fits (.list member) (.list items)
  | filled {member : TermShape} {first : Term} {items : List Term} (head : Fits member first)
      (tail : FitsEach member items) : Fits (.filled member) (.list (first :: items))
  | left {left right : TermShape} {t : Term} (fits : Fits left t) : Fits (.either left right) t
  | right {left right : TermShape} {t : Term} (fits : Fits right t) : Fits (.either left right) t

inductive FitsAll : List TermShape → List Term → Prop
  | cons {shape : TermShape} {t : Term} {shapes : List TermShape} {ts : List Term} (head : Fits shape t)
      (tail : FitsAll shapes ts) : FitsAll (shape :: shapes) (t :: ts)
  | nil : FitsAll [] []

inductive FitsEach : TermShape → List Term → Prop
  | nil {member : TermShape} : FitsEach member []
  | cons {member : TermShape} {t : Term} {ts : List Term} (head : Fits member t)
    (tail : FitsEach member ts) : FitsEach member (t :: ts)

end

variable {shape : TermShape} {shapes : List TermShape} {form : Form} {t : Term} {parts : List Term}

theorem Fits.eq_absent (fits : Fits .absent t) : t = .absent := by
  cases fits
  rfl

theorem Fits.or {other : TermShape} (fits : Fits (.either shape other) t) :
    Fits shape t ∨ Fits other t := by
  cases fits with
  | left fits => exact .inl fits
  | right fits => exact .inr fits

theorem Fits.eq_text (fits : Fits .text t) : ∃ s, t = .text s := by
  cases fits
  exact ⟨_, rfl⟩

theorem Fits.eq_flag (fits : Fits .flag t) : ∃ b, t = .truth b := by
  cases fits
  exact ⟨_, rfl⟩

theorem Fits.eq_constant {family : String} (fits : Fits (.constant family) t) :
    ∃ c : Constant, c.family = family ∧ t = .constant c := by
  cases fits
  exact ⟨_, rfl, rfl⟩

theorem Fits.eq_list (fits : Fits (.list shape) t) :
    ∃ items, t = .list items ∧ FitsEach shape items := by
  cases fits with
  | list fits => exact ⟨_, rfl, fits⟩

theorem Fits.eq_node (fits : Fits (.construct [form]) t) (known : form.parts = some shapes) :
    ∃ parts, t = .node form parts ∧ FitsAll shapes parts := by
  cases fits with
  | construct listed found fits =>
    obtain rfl := List.mem_singleton.mp listed
    obtain rfl := Option.some.inj (known.symm.trans found)
    exact ⟨_, rfl, fits⟩

theorem Fits.widen {forms forms' : List Form} (fits : Fits (.construct forms) t)
    (wider : forms ⊆ forms') : Fits (.construct forms') t := by
  cases fits with
  | construct listed known fits => exact .construct (wider listed) known fits

theorem FitsEach.of_forall {items : List Term} (fits : ∀ item ∈ items, Fits shape item) :
    FitsEach shape items := by
  induction items with
  | nil => exact .nil
  | cons item items ih =>
    exact .cons (fits item (by simp)) (ih fun other inside => fits other (by simp [inside]))

theorem FitsEach.append {items others : List Term} (first : FitsEach shape items)
    (second : FitsEach shape others) : FitsEach shape (items ++ others) := by
  induction items with
  | nil => exact second
  | cons item items ih =>
    cases first with
    | cons head tail => exact .cons head (ih tail)

theorem FitsEach.mem {items : List Term} (fits : FitsEach shape items) {item : Term}
    (inside : item ∈ items) : Fits shape item := by
  induction items with
  | nil => cases inside
  | cons first items ih =>
    cases fits with
    | cons head tail =>
      rcases List.mem_cons.mp inside with rfl | inside
      · exact head
      · exact ih tail inside

theorem FitsAll.part (fits : FitsAll shapes parts) {i : Nat} (found : shapes[i]? = some shape) :
    Fits shape (partAt parts i) := by
  induction shapes generalizing parts i with
  | nil => simp at found
  | cons first shapes ih =>
    cases fits with
    | cons head tail =>
      cases i with
      | zero =>
        obtain rfl : first = shape := by simpa using found
        exact head
      | succ i => exact ih tail (by simpa using found)

theorem valueMember_identifier {t : Term} (isId : Fits .identifier t) :
    ∃ s, t.valueMember = .ok (.text s) := by
  obtain ⟨_, rfl, isText, _, _, isName, ⟨⟩⟩ := isId.eq_node rfl
  obtain ⟨s, rfl⟩ := isText.eq_text
  obtain ⟨b, rfl⟩ := isName.eq_flag
  cases b <;> exact ⟨_, rfl⟩

/-! ### Adoption -/

namespace TermShape

def isOwnable : TermShape → Bool
  | .construct _ | .constant _ | .pragma => true
  | .either left right => left.isOwnable && right.isOwnable
  | _ => false

def hasOwnableMembers : TermShape → Bool
  | .list member => member.isOwnable
  | _ => false

def isList : TermShape → Bool
  | .list _ => true
  | _ => false

end TermShape

theorem Fits.isAdoptable (fits : Fits shape t) (ownable : shape.isOwnable = true) :
    t.isAdoptable = true := by
  induction shape with
  | either left right ihLeft ihRight =>
    simp only [TermShape.isOwnable, Bool.and_eq_true] at ownable
    cases fits with
    | left fits => exact ihLeft fits ownable.1
    | right fits => exact ihRight fits ownable.2
  | constant family => cases fits; rfl
  | pragma => cases fits; rfl
  | construct forms => cases fits; rfl
  | _ => cases ownable

theorem Fits.members (fits : Fits shape t) (ownable : shape.hasOwnableMembers = true) :
    ∃ items, t.members = .ok items ∧ ∀ item ∈ items, item.isAdoptable = true := by
  cases shape with
  | list member =>
    cases fits with
    | list fits => exact ⟨_, rfl, fun item inside => (fits.mem inside).isAdoptable ownable⟩
  | _ => cases ownable

/-- Whether parts of some shapes allow an adoption. -/
def Adoption.isSafe (shapes : List TermShape) : Adoption → Bool
  | .argument i => shapes[i]?.any TermShape.isOwnable
  | .argumentMembers i | .partMembers i => shapes[i]?.any TermShape.hasOwnableMembers

/-- Every form adopts only what its shapes allow. -/
theorem adoptions_safe (known : form.parts = some shapes) :
    ∀ adoption ∈ form.adoptions, adoption.isSafe shapes = true := by
  rw [← List.all_eq_true]
  cases form <;> rename_i form <;> cases form <;> cases known <;> rfl

theorem Adoption.isAllowed_of_fits (fits : FitsAll shapes parts) {adoption : Adoption}
    (safe : adoption.isSafe shapes = true) : adoption.isAllowed parts = true := by
  cases adoption with
  | argument i =>
    obtain ⟨shape, found, ownable⟩ := (Option.any_eq_true _ _).mp safe
    have adoptable := (fits.part found).isAdoptable ownable
    simp [Adoption.isAllowed, Adoption.check, checkAdoptable, adoptable, Except.isOk, Except.toBool]
  | argumentMembers i | partMembers i =>
    obtain ⟨shape, found, ownable⟩ := (Option.any_eq_true _ _).mp safe
    obtain ⟨items, listed, adoptable⟩ := (fits.part found).members ownable
    simp only [Adoption.isAllowed, Adoption.check, listed]
    exact (forM_checkAdoptable items).mpr adoptable

mutual

/-- A well-formed term can be put into a store. -/
theorem Fits.isLoadable {shape : TermShape} {t : Term} (fits : Fits shape t) : t.isLoadable = true :=
  match fits with
  | .absent | .text _ | .flag _ | .number _ | .constant _ | .pragma _ => rfl
  | .construct _ known fits => by
    simp only [Term.isLoadable, fits.areLoadable, Bool.true_and, List.all_eq_true]
    intro adoption adopted
    exact Adoption.isAllowed_of_fits fits (adoptions_safe known adoption adopted)
  | .list fits => by simp [Term.isLoadable, fits.areLoadable]
  | .filled head tail => by simp [Term.isLoadable, Term.areLoadable, head.isLoadable, tail.areLoadable]
  | .left fits | .right fits => fits.isLoadable

theorem FitsAll.areLoadable {shapes : List TermShape} {ts : List Term} (fits : FitsAll shapes ts) :
    Term.areLoadable ts = true :=
  match fits with
  | .cons head tail => by simp [Term.areLoadable, head.isLoadable, tail.areLoadable]
  | .nil => rfl

theorem FitsEach.areLoadable {shape : TermShape} {ts : List Term} (fits : FitsEach shape ts) :
    Term.areLoadable ts = true :=
  match fits with
  | .nil => rfl
  | .cons head tail => by simp [Term.areLoadable, head.isLoadable, tail.areLoadable]

end

/-! ### Building

Most constructs keep their arguments as they are; `Form.gaps` are the places where an argument may
be left out, which hold lists. -/

def Form.gaps : Form → List Nat
  | .name .identifier | .equation .forkTree | .equation .machine => [1]
  | .equation .state => [1, 2, 3]
  | .diagram .expression | .diagram .definition | .diagram .group | .diagram .sectionObject => [2]
  | .diagram .block | .diagram .wire => [3]
  | .decl .signature => [4, 5, 7]
  | _ => []

/-- Whether a form takes all arguments of its shapes as its parts. -/
def Form.isDirect : Form → Bool
  | .name .luid | .part .clock | .decl .operator => false
  | _ => true

theorem gaps_are_lists (known : form.parts = some shapes) :
    ∀ i ∈ form.gaps, shapes[i]?.any TermShape.isList = true := by
  rw [← List.all_eq_true]
  cases form <;> rename_i form <;> cases form <;> cases known <;> rfl

theorem fill_of_fits (known : form.parts = some shapes) (direct : form.isDirect = true)
    (fits : FitsAll shapes parts) : form.fill parts = .ok (Filling.allBut form.gaps parts) := by
  -- An identifier looks at its text; all other forms take what they are given.
  by_cases identifier : form = .name .identifier
  · subst identifier
    cases known
    cases fits with
    | cons head _ =>
      cases head with
      | text s => rfl
  · cases form <;> rename_i form <;> cases form <;> cases known <;> first | rfl | contradiction

theorem orEmpty_list {i : Nat} (listed : (partAt parts i).isList = true) :
    (Filling.orEmpty parts i).term parts = partAt parts i := by
  unfold Filling.orEmpty
  split
  · rfl
  · rename_i empty
    cases part : partAt parts i with
    | list items =>
      have none : items = [] := by simpa [part, Term.isTruthy] using empty
      rw [none]
      rfl
    | _ => simp [part, Term.isList] at listed

theorem allBut_lists {gaps : List Nat} (lists : ∀ i ∈ gaps, (partAt parts i).isList = true) :
    (Filling.allBut gaps parts).map (Filling.term parts) = parts := by
  apply List.ext_getElem
  · simp [Filling.allBut]
  · intro i inside _
    have found : partAt parts i = parts[i] := by simp [partAt, *]
    simp only [Filling.allBut, List.getElem_map, List.getElem_range]
    split
    · rename_i gap
      rw [orEmpty_list (lists i (by simpa using gap)), found]
    · exact found

theorem forM_check_ok (fits : FitsAll shapes parts) {adoptions : List Adoption}
    (safe : ∀ adoption ∈ adoptions, adoption.isSafe shapes = true) :
    adoptions.forM (Adoption.check parts parts) = .ok () := by
  rw [forM_eq_ok]
  intro adoption inside
  exact isOk_iff.mp (Adoption.isAllowed_of_fits fits (safe adoption inside))

/-- A construct is built from parts of its shapes. -/
theorem build_of_fits (known : form.parts = some shapes) (direct : form.isDirect = true)
    (fits : FitsAll shapes parts) : form.build parts = .ok (.node form parts) := by
  have lists : ∀ i ∈ form.gaps, (partAt parts i).isList = true := by
    intro i gap
    obtain ⟨shape, found, listed⟩ := (Option.any_eq_true _ _).mp (gaps_are_lists known i gap)
    cases shape with
    | list member =>
      have fits := fits.part found
      generalize partAt parts i = part at fits ⊢
      cases fits
      rfl
    | _ => cases listed
  have filled := allBut_lists lists
  have adopted := forM_check_ok fits (adoptions_safe known)
  simp only [Form.build, fill_of_fits known direct fits, bind, Except.bind, filled, adopted]
  rfl

end SwanModel
