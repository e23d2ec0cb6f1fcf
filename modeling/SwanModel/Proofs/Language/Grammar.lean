import SwanModel.Convert.Operator
import SwanModel.Proofs.Language.Shapes

/-!
# The grammar of parse trees

`ParseTree.describedBy` says that a tree is of the shapes of `Rule.shapes` down to its leaves. Left
out are forward loops, sections that could not be read, and protected texts that would be read
again.
-/

namespace SwanModel

namespace ParseTree

def isText : ParseTree → Bool
  | .text _ => true
  | _ => false

/-- Whether a tree is a row of decimal digits, no more than an integer may have. -/
def isIndex : ParseTree → Bool
  | .text s => !s.isEmpty && s.toList.all Char.isDigit && s.length ≤ Numeral.digitLimit
  | _ => false

def isNumeral : ParseTree → Bool
  | .number _ | .text _ => true
  | _ => false

def isFlag : ParseTree → Bool
  | .truth _ => true
  | _ => false

def isPriority : ParseTree → Bool
  | .absent | .number _ | .text _ => true
  | _ => false

def isPresent : ParseTree → Bool
  | .present _ => true
  | _ => false

def isMissing : ParseTree → Bool
  | .absent => true
  | _ => false

def isTextOption : ParseTree → Bool
  | .absent | .present (.text _) => true
  | _ => false

def isName : ParseTree → Bool
  | .identifier (.text _) (.list pragmas) => pragmas.all isText
  | _ => false

def isLocated : ParseTree → Bool
  | .located (.text _) => true
  | _ => false

def isLuid : ParseTree → Bool
  | .located (.text s) => !s.isEmpty
  | _ => false

def isTextOrAbsent : ParseTree → Bool
  | .absent | .text _ => true
  | _ => false

def isIdentification : ParseTree → Bool
  | .identification id luid => id.isTextOrAbsent && luid.isTextOrAbsent
  | _ => false

def isProtected (markups : List String) : ParseTree → Bool
  | .protectedText (.text _) (.text markup) => !markups.contains markup
  | _ => false

def isTagged (tags : List String) : ParseTree → Bool
  | .node (some tag) _ _ => tags.contains tag
  | _ => false

theorem isTagged_cases {tags : List String} {tree : ParseTree} (tagged : tree.isTagged tags = true) :
    ∃ tag items fields, tree = .node (some tag) items fields ∧ tag ∈ tags := by
  unfold isTagged at tagged
  split at tagged
  · exact ⟨_, _, _, rfl, by simpa using tagged⟩
  · cases tagged

def isTaggedOther (tags : List String) : ParseTree → Bool
  | .node (some tag) _ _ => !tags.contains tag
  | _ => false

end ParseTree

/-! ### The constructs of the language -/

namespace Grammar

open TreeShape

/-- Positions and what else is not looked at. -/
def anything : TreeShape := .leaf fun _ => true

def text : TreeShape := .leaf ParseTree.isText

def flag : TreeShape := .leaf ParseTree.isFlag

def located : TreeShape := .leaf ParseTree.isLocated

def verbatim : TreeShape := .leaf (ParseTree.isProtected [])

/-- A protected text that is not read again. -/
def kept (markups : List String) : TreeShape := .leaf (ParseTree.isProtected markups)

def tagged (tags : List String) : TreeShape := .leaf (ParseTree.isTagged tags)

def many (rule : Rule) : TreeShape := .list (.construct rule)

def maybe (rule : Rule) : TreeShape := .option (.construct rule)

def types : List TreeShape :=
  [.case "TPredefinedType" [.construct .predefinedType], .case "TSizedSigned" [.construct .expr],
    .case "TSizedUnsigned" [.construct .expr], .case "TAlias" [.construct .path], .case "TVar" [located],
    .case "TStruct" [.list (.tuple [.construct .identifier, .construct .type])],
    .case "TArray" [.construct .type, .construct .expr]]

def typeDefinition : TreeShape := .oneOf
  [.case "TDefNone" [], .case "TDefExpr" [.construct .type], .case "TDefEnum" [many .identifier],
    .case "TDefVariant" [.list (.tuple [.construct .identifier, maybe .type])]]

def patterns : TreeShape := .oneOf
  [.case "PId" [.construct .path], .case "PVariant" [.construct .path],
    .case "PVariantCapture" [.construct .path, maybe .identifier], .case "PChar" [text],
    .case "PInt" [flag, text], .case "PBool" [flag], .case "PUscore" [], .case "PDefault" []]

def simpleExprs : List TreeShape :=
  [.case "EId" [.construct .path], .case "ELast" [located], .case "EBoolLiteral" [flag],
    .case "ECharLiteral" [text], .case "ENumLiteral" [text], .case "EPort" [.construct .port],
    .case "EGroup" [.construct .group], .case "EMkArrayGroup" [.construct .group],
      .case "EMerge" [many .group]]

def operations : List TreeShape :=
  [.case "EUnaryOp" [.construct .unaryOp, .construct .exprOrText],
    .case "EBinaryOp" [.construct .binaryOp, .construct .exprOrText, .construct .exprOrText],
    .case "EWhenClock" [.construct .exprOrText, .construct .clock],
    .case "EWhenMatch" [.construct .exprOrText, .construct .path],
    .case "ECast" [.construct .exprOrText, .construct .typeOrText],
    .case "EGroupAdapt" [.construct .exprOrText, .construct .adaptation],
    .case "EOpCall" [.record [("OIInstance", maybe .luid), ("OIOperator", .construct .operator)],
      .construct .group],
    .case "EWindow" [.construct .exprOrText, .construct .group, .construct .group]]

def composites : List TreeShape :=
  [.case "EStaticProj" [.construct .exprOrText, .construct .labelOrIndex],
    .case "EMkGroup" [.construct .pathOrText, .construct .exprOrText],
    .case "ESlice" [.construct .exprOrText, .construct .exprOrText, .construct .exprOrText],
    .case "EDynProj" [.construct .exprOrText, many .labelOrIndex, .construct .exprOrText],
    .case "EMkArray" [.construct .exprOrText, .construct .exprOrText],
    .case "EMkStruct" [.construct .group, maybe .pathOrText],
    .case "EVariant" [.construct .pathOrText, .construct .group],
    .case "EMkCopy" [.construct .exprOrText, many .modifier]]

def choices : List TreeShape :=
  [.case "EIfte" [.construct .exprOrText, .construct .exprOrText, .construct .exprOrText],
    .case "ECase" [.construct .exprOrText, .list (.tuple [.construct .pattern, .construct .exprOrText])]]

def indices : TreeShape := .oneOf
  [.case "TSList" [.list (.leaf ParseTree.isIndex), anything], .other ["TSList"] [verbatim]]

def primitive : TreeShape := .oneOf
  [tagged ["Flatten", "Pack", "Reverse"], .other ["Flatten", "Pack", "Reverse"] [indices]]

/-- What an operator is, without its sizes and pragmas. -/
def operatorCall : TreeShape := .oneOf
  [.case "OPathId" [.construct .path], .case "OPrefixPrimitive" [primitive],
    .case "ORawPrefix" [kept ["text", "op_expr"]], .case "ORawOpExpr" [kept ["text", "op_expr"]],
    .other ["OPathId", "OPrefixPrimitive", "ORawPrefix", "ORawOpExpr"] [.construct .locatedOperatorExpr]]

def operatorExprs : List TreeShape :=
  [.case "OIterator" [tagged (Convert.iteratorKinds.map (·.1)), .construct .operator],
    .case "OActivateClock" [.construct .operator, .construct .clock],
    .case "OActivateCondition" [.construct .operator, .construct .exprOrText, flag,
      .construct .exprOrText],
    .case "ORestart" [.construct .operator, .construct .exprOrText],
    .case "OLambdaDataDef" [flag, many .flow, many .flow, .construct .scope],
    .case "OLambdaScopes" [flag, many .identifier, many .scopeSection, .construct .exprOrText],
    .case "OPartial" [.construct .operator, many .optionalItem],
    .case "ONary" [tagged (Convert.naryOps.map (·.1))]]

def instanceBlock : TreeShape := .record
  [("OIBInstId", maybe .luid), ("OIBPragmas", .list text),
    ("OIBCalled", .oneOf
      [.case "CallOperator" [.construct .operator],
        .other ["CallOperator"] [.construct .locatedOperatorExpr]])]

def heading : List (String × TreeShape) :=
  [("OpNode", flag), ("OpId", located), ("OpInputs", many .flow), ("OpOutputs", many .flow),
    ("OpSizes", many .identifier), ("OpConstraints", many .constraint),
    ("OpSpecialization", maybe .pathOrText), ("OpPragmas", .list text)]

def flowDecl : TreeShape := .record
  [("VarId", .construct .identifier), ("VarIsClock", flag), ("VarIsProbe", flag),
    ("VarType", maybe .groupType), ("VarWhen", maybe .clock), ("VarDefault", maybe .expr),
    ("VarLast", maybe .expr)]

def arrowFields : List (String × TreeShape) :=
  [("APrio", .leaf ParseTree.isPriority), ("AGuard", maybe .exprOrText),
    ("AAction", .construct .scope), ("AIf", flag)]

def fork : TreeShape := .oneOf
  [.case "AForkTree" [.construct .arrow, many .arrow, maybe .arrow],
    .other ["AForkTree"] [many .priorityFork]]

def forkedArrow : TreeShape :=
  .record (arrowFields ++ [("AFork", .leaf ParseTree.isPresent), ("AFork", .option fork)])

def directArrow : TreeShape := .record
  (arrowFields ++ [("AFork", .leaf ParseTree.isMissing), ("ATarget", .construct .identification),
    ("AIsResume", flag)])

def state : TreeShape := .record
  [("StateId", .construct .identification), ("UntilTransitions", many .arrow),
    ("UnlessTransitions", many .arrow), ("StateIsInitial", flag), ("StateBody", .construct .stateBody)]

def transition : TreeShape := .record
  [("TSource", .construct .identification), ("TStrong", flag),
    ("TArrow", .oneOf [forkedArrow, directArrow])]

def nameOption : TreeShape := .leaf ParseTree.isTextOption

def activation : TreeShape := .oneOf
  [.case "ActivateIf" [nameOption, .construct .ifActivation],
    .other ["ActivateIf"] [nameOption,
      .record [("AWExpr", .construct .exprOrText), ("AWMatches", many .whenBranch)]]]

def equations : List TreeShape :=
  [.case "Equation" [.construct .left, .construct .expr, anything],
    .case "AutomatonEquation" [.construct .left, .tuple [nameOption, many .machineItem], anything],
    .case "ActivateEquation" [.construct .left, activation, anything]]

def description : TreeShape := .oneOf
  [.case "BExpr" [.construct .exprOrText], .case "BDef" [.construct .left, anything],
    .case "BRawDef" [verbatim], .case "BRawBlock" [verbatim], .case "BBlock" [instanceBlock, anything],
    .case "BWire" [.construct .connection, many .connection],
    .case "BGroup" [tagged ["GByName", "GByPos", "GNoOp", "GNorm"], anything],
    .case "BScopeSection" [.construct .scopeSection]]

def properties : TreeShape :=
  .list (.record [("VTag", .construct .identifier), ("VExpr", .construct .expr)])

def sections : List TreeShape :=
  [.case "SEmission" [many .emission, anything], .case "SAssume" [properties, anything],
    .case "SGuarantee" [properties, anything], .case "SVarList" [many .flow],
    .case "SLet" [anything, many .equation, anything],
      .case "SDiagram" [.record [("DObjects", many .object)]]]

def declarationShapes : List TreeShape :=
  [.case "DConst" [many .constant, anything], .case "DGroup" [many .groupDecl, anything],
    .case "DOperator" [.construct .userOperator], .case "DRaw" [kept ["text"]],
    .case "DSensor" [many .sensor, anything], .case "DSignature" [.construct .signature],
    .case "DType" [many .typeDecl, anything], .case "DUse" [.construct .use, anything]]

end Grammar

open Grammar in
/-- The shapes of the trees that a rule describes. -/
def Rule.shapes : Rule → List TreeShape
  | .identifier => [.leaf ParseTree.isName]
  | .path => [.filled (.construct .identifier)]
  | .pathOrText => [.case "PIOfId" [.construct .path, anything], .other ["PIOfId"] [verbatim]]
  | .luid => [.leaf ParseTree.isLuid]
  | .protectedItem => [verbatim]
  | .identification => [.leaf ParseTree.isIdentification]
  | .predefinedType => [tagged (PredefinedType.all.map PredefinedType.name)]
  | .numericKind => [tagged (NumericKind.all.map NumericKind.name)]
  | .type => types
  | .typeOrText => [.case "RawTypeExpr" [verbatim], .other ["RawTypeExpr"] [.construct .type, anything]]
  | .groupType =>
    [.case "GTypeExpr" [.construct .type],
      .other ["GTypeExpr"] [many .groupType,
        .list (.tuple [.construct .identifier, .construct .groupType])]]
  | .unaryOp => [tagged (Convert.unaryOps.map (·.1))]
  | .binaryOp => [tagged (Convert.binaryOps.map (·.1))]
  | .exprOrText => [.case "ExprWithSP" [.construct .expr, anything], .other ["ExprWithSP"] [verbatim]]
  | .expr => simpleExprs ++ operations ++ composites ++ choices
  | .labelOrIndex => [.case "Index" [.construct .exprOrText], .other ["Index"] [.construct .identifier]]
  | .groupItem =>
    [.case "GroupItemExpr" [.construct .exprOrText],
      .case "GroupItemLabelExpr" [.construct .identifier, .construct .exprOrText]]
  | .group => [many .groupItem]
  | .modifier =>
    [.case "ModifierRaw" [verbatim, .construct .exprOrText],
      .other ["ModifierRaw"] [many .labelOrIndex, .construct .exprOrText]]
  | .pattern => [.case "PRaw" [verbatim], .other ["PRaw"] [patterns, anything]]
  | .groupRenaming =>
    [.case "RenamingByPos" [.leaf ParseTree.isNumeral, flag, maybe .identifier],
      .case "RenamingByName" [.construct .identifier, flag, maybe .identifier]]
  | .adaptation => [.record [("GRenaming", many .groupRenaming)]]
  | .clock =>
    [.case "ClockId" [.construct .identifier], .case "ClockNotId" [.construct .identifier],
      .case "ClockMatch" [.construct .identifier, .construct .pattern]]
  | .port => [.case "InstanceIdLuid" [.construct .luid], .case "InstanceIdSelf" []]
  | .operator =>
    [.record [("CallSize", many .exprOrText), ("CallPragmas", .list text), ("CallOp", operatorCall)]]
  | .locatedOperatorExpr => [.record [("OEOpExpr", .construct .operatorExpr)]]
  | .operatorExpr => operatorExprs
  | .optionalItem =>
    [.case "OGroupItem" [.construct .groupItem], .leaf (ParseTree.isTaggedOther ["OGroupItem"])]
  | .leftItem => [.case "LhsId" [.construct .identifier], .leaf (ParseTree.isTaggedOther ["LhsId"])]
  | .left => [tagged ["LhsEmpty"], .other ["LhsEmpty"] [many .leftItem]]
  | .equation => equations
  | .ifActivation => [.record [("IfThenElif", many .activationBranch), ("Else", .construct .branch)]]
  | .activationBranch => [.tuple [.construct .exprOrText, .construct .branch]]
  | .branch => [.case "IfteDataDef" [.construct .scope],
      .other ["IfteDataDef"] [.construct .ifActivation]]
  | .whenBranch => [.tuple [.construct .pattern, .construct .scope]]
  | .machineItem => [.case "StateItem" [state], .other ["StateItem"] [transition]]
  | .arrow => [forkedArrow, directArrow]
  | .priorityFork => [forkedArrow, directArrow]
  | .stateBody => [.case "SDSections" [many .scopeSection, anything]]
  | .connection =>
    [tagged ["ConnEmpty"], .other ["ConnEmpty"] [.construct .port, maybe .adaptation]]
  | .object =>
    [.record [("ObjLuid", maybe .luid), ("ObjLocals", many .object), ("ObjDescription", description)]]
  | .emission => [.record [("ESignals", .list located), ("EExpr", maybe .expr)]]
  | .scopeSection => sections
  | .scope =>
    [.case "SDEmpty" [], .case "SDEquation" [.construct .equation],
      .case "SDSections" [many .scopeSection, anything]]
  | .flow => [.case "RawVar" [verbatim], .other ["RawVar"] [flowDecl, anything]]
  | .constraint =>
    [.case "TCRaw" [verbatim, .construct .numericKind],
      .other ["TCRaw"] [many .type, .construct .numericKind]]
  | .signature => [.record heading]
  | .userOperator => [.record (("OpBody", .construct .scope) :: heading)]
  | .constant =>
    [.record [("ConstId", .construct .identifier), ("ConstType", .construct .type),
      ("ConstDefinition", maybe .expr)]]
  | .sensor => [.record [("SensorId", .construct .identifier), ("SensorType", .construct .type)]]
  | .typeDecl => [.record [("TypeId", .construct .identifier), ("TypeDef", typeDefinition)]]
  | .groupDecl => [.record [("GroupId", .construct .identifier), ("GroupType", .construct .groupType)]]
  | .use => [.record [("UPath", .construct .path), ("UAs", maybe .identifier)]]
  | .declaration => declarationShapes
  | _ => []

namespace ParseTree

/-- Whether a rule describes a tree, looked at down to a number of levels. -/
def describedUpTo : Nat → Rule → ParseTree → Bool
  | 0, _, _ => false
  | levels + 1, rule, tree => rule.shapes.any fun shape => shape.accepts (describedUpTo levels) tree

def describedBy (rule : Rule) (tree : ParseTree) : Bool := describedUpTo tree.height rule tree

def isEmptyDefinition (tree : ParseTree) : Bool := tree.isTagged ["SDEmpty"]

end ParseTree

/-- Parts of a tree by what they are described as: whatever is known of the parts of a tree of some
shape is known of them. -/
def HasPart (whole part : Rule × ParseTree) : Prop :=
  ∀ known : Rule → ParseTree →
    Bool, (whole.1.shapes.any fun shape => shape.accepts known whole.2) = true →
      known part.1 part.2 = true

/-! ### How far one has to look -/

variable {tree : ParseTree} {shape : TreeShape}

namespace ParseTree

theorem shapes_slack {rule : Rule} (inside : shape ∈ rule.shapes) : shape.slack = 0 := by
  have all : rule.shapes.all (fun shape => shape.slack == 0) = true := by cases rule <;> rfl
  simpa using List.all_eq_true.mp all shape inside

/-- A tree that is described is so when it is looked at down to its height. -/
theorem describedUpTo_of_height {n m : Nat} {rule : Rule} (described : describedUpTo n rule tree = true)
    (enough : tree.height ≤ m) : describedUpTo m rule tree = true := by
  induction m generalizing n rule tree with
  | zero =>
    have : 0 < tree.height := by cases tree <;> simp [height]
    omega
  | succ m ih =>
    cases n with
    | zero => simp [describedUpTo] at described
    | succ n =>
      simp only [describedUpTo, List.any_eq_true] at described ⊢
      obtain ⟨shape, inside, accepted⟩ := described
      have below : TreeShape.KnownBelow tree.height (describedUpTo n) (describedUpTo m) :=
        fun rule part smaller described => ih described (by omega)
      -- No rule hands its tree on to another rule, so that the shape asks about smaller trees only.
      exact ⟨shape, inside,
        TreeShape.accepts_of_below below shape (by simp [shapes_slack inside]) accepted⟩

theorem describedBy_of_upTo {n : Nat} {rule : Rule} (described : describedUpTo n rule tree = true) :
    tree.describedBy rule = true := describedUpTo_of_height described (Nat.le_refl _)

end ParseTree

/-- The parts of a tree that is described are described. -/
theorem HasPart.described {whole part : Rule × ParseTree} (inside : HasPart whole part)
    (described : whole.2.describedBy whole.1 = true) : part.2.describedBy part.1 = true := by
  unfold ParseTree.describedBy at described
  cases height : whole.2.height with
  | zero => simp [height, ParseTree.describedUpTo] at described
  | succ n =>
    rw [height] at described
    exact ParseTree.describedBy_of_upTo (inside _ described)

end SwanModel
