import SwanModel.Proofs.Language.Loops

/-!
# Phrases of the operator language

A phrase is a parse tree of which it is known what it describes: an operator, or anything that can
stand in one. Anonymous operators and operators that are kept as text are left out. Of loops there
are those that are converted, and their sections are known by what they are converted to.

Beside its head and its parts, a phrase has what only the parse tree tells: its place in the source,
and what `Head.Lost` lists. `Phrase.unplaced` forgets the places, and `Phrase.bare` both.
-/

namespace SwanModel

open SwanModel.Convert

/-! ### Trees and terms of names -/

abbrev ParseTree.case (tag : String) (items : List ParseTree) : ParseTree := .node (some tag) items []

abbrev ParseTree.tuple (items : List ParseTree) : ParseTree := .node none items []

abbrev ParseTree.record (fields : List (String × ParseTree)) : ParseTree := .node none [] fields

def tagFor {α : Type} [BEq α] (table : List (String × α)) (a : α) : String :=
  ((table.find? (·.2 == a)).map (·.1)).getD ""

structure Ident where
  name : String
  pragmas : List String

namespace Ident

def tree (id : Ident) : ParseTree := .identifier (.text id.name) (.list (id.pragmas.map .text))

def term (id : Ident) : Term :=
  .node (.name .identifier) [.text id.name, .list (id.pragmas.map .text), .absent, .truth false]

def treeOf? : Option Ident → ParseTree
  | none => .absent
  | some id => .present id.tree

def termOf? : Option Ident → Term
  | none => .absent
  | some id => id.term

end Ident

def pathTree (ids : List Ident) : ParseTree := .list (ids.map Ident.tree)

def pathTerm (ids : List Ident) : Term := .node (.name .path) [.list (ids.map Ident.term)]

def nameTree (name : String) : ParseTree := .located (.text ("'" ++ name))

def nameTerm (name : String) : Term :=
  .node (.name .identifier) [.text name, .list [], .absent, .truth true]

def withoutSign (s : String) : String :=
  match s.toList with
  | '#' :: rest => String.ofList rest
  | _ => s

def LuidText (luid : String) : Type := { s : String // s ≠ "" ∧ withoutSign s = luid }

def luidTerm (luid : String) : Term := .node (.name .luid) [.text luid]

/-- The spellings of an index: rows of decimal digits, which may start with zeros. -/
def IndexText (n : Nat) : Type :=
  { s : String // (ParseTree.text s).isIndex = true ∧ Numeral.natOfDigits s.toList = n }

/-- The trees of sections that are converted to some constructs. -/
def SectionTrees (sections : List Term) : Type :=
  { trees : List ParseTree // ∀ n, 3 * ParseTree.heights trees ≤ n →
    each (convertUpTo n .scopeSection) (.list trees) = pure (.list sections) }

/-- A section without equations. -/
example : Nonempty (SectionTrees [.node (.scope .equations) [.list []]]) := by
  refine ⟨[.case "SLet" [.absent, .list [], .absent]], ?_⟩
  intro n enough
  obtain ⟨m, rfl⟩ : ∃ m, n = m + 1 :=
    ⟨n - 1, by simp [ParseTree.height, ParseTree.heights] at enough; omega⟩
  rfl

def verbatimTree (text markup : String) : ParseTree := .protectedText (.text text) (.text markup)

/-- Something that is read, or kept as text. -/
inductive OrText (α : Type) where
  | read (a : α)
  | text (s : String)

namespace OrText

variable {α : Type}

/-- What is read has a place. -/
def Place : OrText α → Type
  | read _ => ParseTree
  | text _ => Unit

/-- A text has a markup. -/
def Lost : OrText α → Type
  | read _ => Unit
  | text _ => String

end OrText

abbrev PathOrText : Type := OrText (List Ident)

namespace PathOrText

def tree : (p : PathOrText) → p.Place → p.Lost → ParseTree
  | .read ids, place, _ => .case "PIOfId" [pathTree ids, place]
  | .text s, _, markup => .case "PIRaw" [verbatimTree s markup]

def term : PathOrText → Term
  | .read ids => pathTerm ids
  | .text s => .node (.name .path) [.text s]

end PathOrText

inductive Pattern where
  | path (ids : List Ident)
  | variant (ids : List Ident)
  | capture (ids : List Ident) (captured : Option Ident)
  | char (s : String)
  | int (isNegative : Bool) (digits : String)
  | bool (b : Bool)
  | underscore
  | otherwise

namespace Pattern

def tree : Pattern → ParseTree
  | path ids => .case "PId" [pathTree ids]
  | variant ids => .case "PVariant" [pathTree ids]
  | capture ids captured => .case "PVariantCapture" [pathTree ids, Ident.treeOf? captured]
  | char s => .case "PChar" [.text s]
  | int isNegative digits => .case "PInt" [.truth isNegative, .text digits]
  | bool b => .case "PBool" [.truth b]
  | underscore => .case "PUscore" []
  | otherwise => .case "PDefault" []

def term : Pattern → Term
  | path ids => .node (.pattern .path) [pathTerm ids]
  | variant ids => .node (.pattern .variant) [pathTerm ids, .absent, .truth true]
  | capture ids captured =>
    .node (.pattern .variant) [pathTerm ids, Ident.termOf? captured, .truth false]
  | char s => .node (.pattern .char) [.text s]
  | int isNegative digits => .node (.pattern .int) [.text digits, .truth isNegative]
  | bool b => .node (.pattern .bool) [.truth b]
  | underscore => .node (.pattern .underscore) []
  | otherwise => .node (.pattern .otherwise) []

end Pattern

abbrev PatternOrText : Type := OrText Pattern

namespace PatternOrText

def tree : (p : PatternOrText) → p.Place → p.Lost → ParseTree
  | .read p, place, _ => .case "PatternWithSP" [p.tree, place]
  | .text s, _, markup => .case "PRaw" [verbatimTree s markup]

def term : PatternOrText → Term
  | .read p => p.term
  | .text s => .node (.pattern .verbatim) [.text s]

end PatternOrText

/-! ### Heads -/

/-- What a phrase describes. -/
inductive PhraseKind where
  | index | indices | clock | groupRenaming
  | expr | exprOrText | label | item | group | modifier | branch
  | left | element | dimension | body | lastDefault | arrayClause | result
  | type | typeOrText | field
  | operator | operatorExpr | optionalItem
  | list (k : PhraseKind)

/-- What a phrase is, without its parts. -/
inductive Head : PhraseKind → Type where
  | list (length : Nat) : Head (.list k)
  | index (n : Nat) : Head .index
  | indices : Head .indices
  | indicesText (text : String) : Head .indices
  | clock (id : Ident) : Head .clock
  | clockNot (id : Ident) : Head .clock
  | clockMatch (id : Ident) (p : PatternOrText) : Head .clock
  | byPosition (position : Int) (isShortcut : Bool) (new : Option Ident) : Head .groupRenaming
  | byName (old : Ident) (isShortcut : Bool) : Head .groupRenaming
  | byNewName (old new : Ident) : Head .groupRenaming
  -- Expressions and their parts.
  | ref (ids : List Ident) : Head .expr
  | last (name : String) : Head .expr
  | bool (b : Bool) : Head .expr
  | char (s : String) : Head .expr
  | number (s : String) : Head .expr
  | port (luid : String) : Head .expr
  | self : Head .expr
  | unary (op : UnaryOp) : Head .expr
  | binary (op : BinaryOp) : Head .expr
  | whenClock : Head .expr
  | whenMatch (ids : List Ident) : Head .expr
  | cast : Head .expr
  | ofGroup : Head .expr
  | adapt : Head .expr
  | projectIndex : Head .expr
  | projectLabel (id : Ident) : Head .expr
  | makeGroup (name : PathOrText) : Head .expr
  | slice : Head .expr
  | projectDynamic : Head .expr
  | makeArray : Head .expr
  | arrayOfGroup : Head .expr
  | makeStruct : Head .expr
  | makeNamedStruct (name : PathOrText) : Head .expr
  | variant (name : PathOrText) : Head .expr
  | copy : Head .expr
  | conditional : Head .expr
  | caseOf : Head .expr
  | call : Head .expr
  | callInstance (luid : String) : Head .expr
  | window : Head .expr
  | merge : Head .expr
  | loop (state : ForwardState) : Head .expr
  | loopInstance (state : ForwardState) (luid : String) : Head .expr
  | readExpr : Head .exprOrText
  | exprText (text : String) : Head .exprOrText
  | labelIndex : Head .label
  | label (id : Ident) : Head .label
  | item : Head .item
  | labelled (id : Ident) : Head .item
  | group (length : Nat) : Head .group
  | modify : Head .modifier
  | modifyText (text : String) : Head .modifier
  | branch (p : PatternOrText) : Head .branch
  -- Parts of loops.
  | leftName (id : Ident) : Head .left
  | leftArray : Head .left
  | element : Head .element
  | size : Head .dimension
  | sizeWith (id : Option Ident) : Head .dimension
  | dimensionText (text : String) : Head .dimension
  | body (sections : List Term) : Head .body
  | bodyUntil (sections : List Term) : Head .body
  | bodyUnless (sections : List Term) : Head .body
  | onlyLast : Head .lastDefault
  | onlyDefault : Head .lastDefault
  | lastPlusDefault : Head .lastDefault
  | lastAndDefault : Head .lastDefault
  | arrayItem (id : Ident) : Head .arrayClause
  | arrayItemWith (id : Ident) : Head .arrayClause
  | arrayArray : Head .arrayClause
  | returnItem (id : Ident) : Head .result
  | returnItemWith (id : Ident) : Head .result
  | returnArray : Head .result
  | returnText (text : String) : Head .result
  -- Types.
  | predefined (type : PredefinedType) : Head .type
  | signed : Head .type
  | unsigned : Head .type
  | named (ids : List Ident) : Head .type
  | typeVariable (name : String) : Head .type
  | struct : Head .type
  | array : Head .type
  | readType : Head .typeOrText
  | typeText (text : String) : Head .typeOrText
  | field (id : Ident) : Head .field
  -- Operators.
  | path (ids : List Ident) (pragmas : List String) : Head .operator
  | flatten : Head .operator
  | pack : Head .operator
  | reverse : Head .operator
  | transpose : Head .operator
  | express : Head .operator
  | iterate (kind : IteratorKind) : Head .operatorExpr
  | activateClock : Head .operatorExpr
  | activateEvery (isLast : Bool) : Head .operatorExpr
  | restart : Head .operatorExpr
  | partialCall : Head .operatorExpr
  | nary (op : NaryOp) : Head .operatorExpr
  | argument : Head .optionalItem
  | underscore : Head .optionalItem

def treeAt (trees : List ParseTree) (i : Nat) : ParseTree := trees.getD i .absent

def operatorRecord (call sizes : ParseTree) (pragmas : List String) : ParseTree :=
  .record [("CallOp", call), ("CallPragmas", .list (pragmas.map .text)), ("CallSize", sizes)]

def instanceRecord (luid operator : ParseTree) : ParseTree :=
  .record [("OIInstance", luid), ("OIOperator", operator)]

def stateTree : ForwardState → ParseTree
  | .nothing => .case "FNone" []
  | .restart => .case "FRestart" []
  | .resume => .case "FResume" []

def bodyRecord (sections : List ParseTree) (stop : ParseTree) : ParseTree :=
  .record [("FScopeSections", .list sections), ("FStopCondition", stop)]

def clauseTerm (id : Ident) (value : Term) : Term := .node (.forward .itemClause) [id.term, value]

namespace Head

variable {k : PhraseKind}

def parts : Head k → List PhraseKind
  | list (k := k) length => List.replicate length k
  | group length => List.replicate length .item
  | indices => [.list .index]
  | unary _ | whenMatch _ | projectLabel _ | makeGroup _ | labelIndex | item | labelled _ | modifyText _
  | branch _ => [.exprOrText]
  | binary _ | projectIndex | makeArray => [.exprOrText, .exprOrText]
  | slice | conditional => [.exprOrText, .exprOrText, .exprOrText]
  | whenClock => [.exprOrText, .clock]
  | cast => [.exprOrText, .typeOrText]
  | ofGroup | arrayOfGroup | makeStruct | makeNamedStruct _ | variant _ => [.group]
  | adapt => [.exprOrText, .list .groupRenaming]
  | projectDynamic => [.exprOrText, .list .label, .exprOrText]
  | copy => [.exprOrText, .list .modifier]
  | caseOf => [.exprOrText, .list .branch]
  | call | callInstance _ => [.operator, .group]
  | window => [.exprOrText, .group, .group]
  | merge => [.list .group]
  | modify => [.list .label, .exprOrText]
  | loop _ | loopInstance _ _ => [.list .dimension, .body, .list .result]
  | leftArray => [.left]
  | element => [.left, .expr]
  | sizeWith _ => [.expr, .list .element]
  | lastPlusDefault => [.expr, .expr]
  | arrayItemWith _ | returnItemWith _ => [.lastDefault]
  | arrayArray | returnArray => [.arrayClause]
  | size | bodyUntil _ | bodyUnless _ | onlyLast | onlyDefault | lastAndDefault | signed |
      unsigned | readExpr => [.expr]
  | readType | field _ => [.type]
  | struct => [.list .field]
  | array => [.type, .expr]
  | path _ _ | flatten | pack | reverse => [.list .exprOrText]
  | transpose => [.indices, .list .exprOrText]
  | express => [.operatorExpr, .list .exprOrText]
  | iterate _ => [.operator]
  | activateClock => [.operator, .clock]
  | activateEvery _ => [.operator, .exprOrText, .exprOrText]
  | restart => [.operator, .exprOrText]
  | partialCall => [.operator, .list .optionalItem]
  | argument => [.item]
  | index _ | indicesText _ | clock _ | clockNot _ | clockMatch .. | byPosition .. | byName .. |
    byNewName .. | ref _
  | last _ | bool _ | char _ | number _ | port _ | self | exprText _ | label _ | leftName _ |
    dimensionText _ | body _
  | arrayItem _ | returnItem _ | returnText _ | predefined _ | named _ | typeVariable _ |
    typeText _ | nary _
  | underscore => []

/-- The place of a phrase in the source; it can take up any further fields of a record. -/
def Place : Head k → Type
  | indices | readExpr | readType | size | sizeWith _ | dimensionText _ | returnItem _ |
    returnItemWith _ | returnArray =>
    ParseTree
  | express => List (String × ParseTree)
  | clockMatch _ p | branch p => p.Place
  | makeGroup name | makeNamedStruct name | variant name => name.Place
  | _ => Unit

/-- What else the parse tree of a phrase tells and its construct does not. -/
def Lost : Head k → Type
  | iterate _ => Option Int
  | flatten | pack | reverse | transpose | express => List String
  | index n => IndexText n
  | port luid | callInstance luid | loopInstance _ luid => LuidText luid
  | byNewName _ _ => Bool
  | body sections | bodyUntil sections | bodyUnless sections => SectionTrees sections
  | returnArray => Ident
  | indicesText _ | exprText _ | typeText _ | modifyText _ | dimensionText _ | returnText _ => String
  | clockMatch _ p | branch p => p.Lost
  | makeGroup name | makeNamedStruct name | variant name => name.Lost
  | _ => Unit

/-- The parse tree of a phrase, from those of its parts. -/
def tree : (h : Head k) → h.Place → h.Lost → List ParseTree → ParseTree
  | list _, _, _, trees => .list trees
  | index _, _, source, _ => .text source.1
  | indices, place, _, trees => .case "TSList" [treeAt trees 0, place]
  | indicesText text, _, markup, _ => .case "TSRaw" [verbatimTree text markup]
  | clock id, _, _, _ => .case "ClockId" [id.tree]
  | clockNot id, _, _, _ => .case "ClockNotId" [id.tree]
  | clockMatch id p, place, lost, _ => .case "ClockMatch" [id.tree, PatternOrText.tree p place lost]
  | byPosition position isShortcut new, _, _, _ =>
    .case "RenamingByPos" [.number position, .truth isShortcut, Ident.treeOf? new]
  | byName old isShortcut, _, _, _ => .case "RenamingByName" [old.tree, .truth isShortcut, .absent]
  | byNewName old new, _, isShortcut, _ =>
    .case "RenamingByName" [old.tree, .truth isShortcut, .present new.tree]
  | ref ids, _, _, _ => .case "EId" [pathTree ids]
  | last name, _, _, _ => .case "ELast" [nameTree name]
  | bool b, _, _, _ => .case "EBoolLiteral" [.truth b]
  | char s, _, _, _ => .case "ECharLiteral" [.text s]
  | number s, _, _, _ => .case "ENumLiteral" [.text s]
  | port _, _, source, _ => .case "EPort" [.case "InstanceIdLuid" [.located (.text source.1)]]
  | self, _, _, _ => .case "EPort" [.case "InstanceIdSelf" []]
  | unary op, _, _, trees => .case "EUnaryOp" (.case (tagFor unaryOps (.unaryOp op)) [] :: trees)
  | binary op, _, _, trees => .case "EBinaryOp" (.case (tagFor binaryOps (.binaryOp op)) [] :: trees)
  | whenClock, _, _, trees => .case "EWhenClock" trees
  | whenMatch ids, _, _, trees => .case "EWhenMatch" (trees ++ [pathTree ids])
  | cast, _, _, trees => .case "ECast" trees
  | ofGroup, _, _, trees => .case "EGroup" trees
  | adapt, _, _, trees => .case "EGroupAdapt" [treeAt trees 0, .record [("GRenaming", treeAt trees 1)]]
  | projectIndex, _, _, trees => .case "EStaticProj" [treeAt trees 0, .case "Index" [treeAt trees 1]]
  | projectLabel id, _, _, trees => .case "EStaticProj" (trees ++ [.case "Label" [id.tree]])
  | makeGroup name, place, lost, trees => .case "EMkGroup" (PathOrText.tree name place lost :: trees)
  | slice, _, _, trees => .case "ESlice" trees
  | projectDynamic, _, _, trees => .case "EDynProj" trees
  | makeArray, _, _, trees => .case "EMkArray" trees
  | arrayOfGroup, _, _, trees => .case "EMkArrayGroup" trees
  | makeStruct, _, _, trees => .case "EMkStruct" (trees ++ [.absent])
  | makeNamedStruct name, place, lost, trees =>
    .case "EMkStruct" (trees ++ [.present (PathOrText.tree name place lost)])
  | variant name, place, lost, trees => .case "EVariant" (PathOrText.tree name place lost :: trees)
  | copy, _, _, trees => .case "EMkCopy" trees
  | conditional, _, _, trees => .case "EIfte" trees
  | caseOf, _, _, trees => .case "ECase" trees
  | call, _, _, trees => .case "EOpCall" [instanceRecord .absent (treeAt trees 0), treeAt trees 1]
  | callInstance _, _, source, trees =>
    .case "EOpCall" [instanceRecord (.present (.located (.text source.1))) (treeAt trees 0),
      treeAt trees 1]
  | window, _, _, trees => .case "EWindow" trees
  | merge, _, _, trees => .case "EMerge" trees
  | loop state, _, _, trees => .case "EForward" (.absent :: stateTree state :: trees)
  | loopInstance state _, _, source, trees =>
    .case "EForward" (.present (.located (.text source.1)) :: stateTree state :: trees)
  | readExpr, place, _, trees => .case "ExprWithSP" [treeAt trees 0, place]
  | exprText text, _, markup, _ => .case "ExprRaw" [verbatimTree text markup]
  | labelIndex, _, _, trees => .case "Index" trees
  | label id, _, _, _ => .case "Label" [id.tree]
  | item, _, _, trees => .case "GroupItemExpr" trees
  | labelled id, _, _, trees => .case "GroupItemLabelExpr" (id.tree :: trees)
  | group _, _, _, trees => .list trees
  | modify, _, _, trees => .case "Modifier" trees
  | modifyText text, _, markup, trees => .case "ModifierRaw" (verbatimTree text markup :: trees)
  | branch p, place, lost, trees => .tuple (PatternOrText.tree p place lost :: trees)
  | leftName id, _, _, _ => .case "FId" [id.tree]
  | leftArray, _, _, trees => .case "FLhsArray" trees
  | element, _, _, trees => .tuple trees
  | size, place, _, trees => .case "FDim" [treeAt trees 0, place]
  | sizeWith id, place, _, trees =>
    .case "FDimWith" [treeAt trees 0, Ident.treeOf? id, treeAt trees 1, place]
  | dimensionText text, place, markup, _ => .case "FRaw" [verbatimTree text markup, place]
  | body _, _, sections, _ => bodyRecord sections.1 (.case "FStopNone" [])
  | bodyUntil _, _, sections, trees => bodyRecord sections.1 (.case "FStopUntil" trees)
  | bodyUnless _, _, sections, trees => bodyRecord sections.1 (.case "FStopUnless" trees)
  | onlyLast, _, _, trees => .case "FLast" trees
  | onlyDefault, _, _, trees => .case "FDefault" trees
  | lastPlusDefault, _, _, trees => .case "FLastPlusDefault" trees
  | lastAndDefault, _, _, trees => .case "FLastAndDefault" trees
  | arrayItem id, _, _, _ => .case "FItemClause" [id.tree, .absent]
  | arrayItemWith id, _, _, trees => .case "FItemClause" [id.tree, .present (treeAt trees 0)]
  | arrayArray, _, _, trees => .case "FArrayClause" trees
  | returnItem id, place, _, _ => .case "FRetItemClause" [.tuple [id.tree, .absent], place]
  | returnItemWith id, place, _, trees =>
    .case "FRetItemClause" [.tuple [id.tree, .present (treeAt trees 0)], place]
  | returnArray, place, id, trees =>
    .case "FRetArrayClause" [.present (Ident.tree id), treeAt trees 0, place]
  | returnText text, _, markup, _ => .case "FRetRaw" [verbatimTree text markup]
  | predefined type, _, _, _ => .case "TPredefinedType" [.case type.name []]
  | signed, _, _, trees => .case "TSizedSigned" trees
  | unsigned, _, _, trees => .case "TSizedUnsigned" trees
  | named ids, _, _, _ => .case "TAlias" [pathTree ids]
  | typeVariable name, _, _, _ => .case "TVar" [nameTree name]
  | struct, _, _, trees => .case "TStruct" trees
  | array, _, _, trees => .case "TArray" trees
  | readType, place, _, trees => .case "TypeExprWithSP" [treeAt trees 0, place]
  | typeText text, _, markup, _ => .case "RawTypeExpr" [verbatimTree text markup]
  | field id, _, _, trees => .tuple (id.tree :: trees)
  | path ids pragmas, _, _, trees =>
    operatorRecord (.case "OPathId" [pathTree ids]) (treeAt trees 0) pragmas
  | flatten, _, pragmas, trees =>
    operatorRecord (.case "OPrefixPrimitive" [.case "Flatten" []]) (treeAt trees 0) pragmas
  | pack, _, pragmas, trees =>
    operatorRecord (.case "OPrefixPrimitive" [.case "Pack" []]) (treeAt trees 0) pragmas
  | reverse, _, pragmas, trees =>
    operatorRecord (.case "OPrefixPrimitive" [.case "Reverse" []]) (treeAt trees 0) pragmas
  | transpose, _, pragmas, trees =>
    operatorRecord (.case "OPrefixPrimitive" [.case "Transpose" [treeAt trees 0]]) (treeAt trees 1)
      pragmas
  | express, place, pragmas, trees =>
    operatorRecord (.case "OOperatorExpr" [.record (("OEOpExpr", treeAt trees 0) :: place)])
      (treeAt trees 1) pragmas
  | iterate kind, _, arity, trees =>
    .case "OIterator" (.case (tagFor iteratorKinds kind) (arity.toList.map .number) :: trees)
  | activateClock, _, _, trees => .case "OActivateClock" trees
  | activateEvery isLast, _, _, trees =>
    .case "OActivateCondition" [treeAt trees 0, treeAt trees 1, .truth isLast, treeAt trees 2]
  | restart, _, _, trees => .case "ORestart" trees
  | partialCall, _, _, trees => .case "OPartial" trees
  | nary op, _, _, _ => .case "ONary" [.case (tagFor naryOps op) []]
  | argument, _, _, trees => .case "OGroupItem" trees
  | underscore, _, _, _ => .case "OUnderscore" []

/-- The construct of a phrase, from those of its parts. -/
def term : Head k → List Term → Term
  | list _, terms => .list terms
  | index n, _ => .number n
  | indices, terms => partAt terms 0
  | indicesText text, _ => .text text
  | clock id, _ => .node (.part .clock) [id.term, .truth false, .absent]
  | clockNot id, _ => .node (.part .clock) [id.term, .truth true, .absent]
  | clockMatch id p, _ => .node (.part .clock) [id.term, .truth false, PatternOrText.term p]
  | byPosition position isShortcut new, _ =>
    .node (.part .groupRenaming)
      [.node (.expr .literal) [.number position, .constant (.literalKind .numeric)], Ident.termOf? new,
        .truth isShortcut]
  | byName old isShortcut, _ => .node (.part .groupRenaming) [old.term, .absent, .truth isShortcut]
  | byNewName old new, _ =>
    .node (.part .groupRenaming) [old.term, new.term, .truth (old.name == new.name)]
  | ref ids, _ => .node (.expr .path) [pathTerm ids]
  | last name, _ => .node (.expr .last) [nameTerm name]
  | bool b, _ => .node (.expr .literal) [.text (if b then "true" else "false"),
      .constant (.literalKind .bool)]
  | char s, _ => .node (.expr .literal) [.text s, .constant (.literalKind .char)]
  | number s, _ => .node (.expr .literal) [.text s, .constant (.literalKind .numeric)]
  | port luid, _ => .node (.expr .port) [luidTerm luid]
  | self, _ => .node (.expr .port) [.absent]
  | unary op, terms => .node (.expr .unary) (.constant (.unaryOp op) :: terms)
  | binary op, terms => .node (.expr .binary) (.constant (.binaryOp op) :: terms)
  | whenClock, terms => .node (.expr .whenClock) terms
  | whenMatch ids, terms => .node (.expr .whenMatch) (terms ++ [pathTerm ids])
  | cast, terms => .node (.expr .conversion) terms
  | ofGroup, terms => .node (.expr .group) terms
  | adapt, terms => .node (.expr .adapted) [partAt terms 0, .node (.part .adaptation) [partAt terms 1]]
  | projectIndex, terms => .node (.expr .arrayProjection)
      [partAt terms 0, .node (.part .labelOrIndex) [partAt terms 1]]
  | projectLabel id, terms =>
    .node (.expr .structProjection) (terms ++ [.node (.part .labelOrIndex) [id.term]])
  | makeGroup name, terms => .node (.expr .makeGroup) (PathOrText.term name :: terms)
  | slice, terms => .node (.expr .slice) terms
  | projectDynamic, terms => .node (.expr .dynamicProjection) terms
  | makeArray, terms => .node (.expr .makeArray) terms
  | arrayOfGroup, terms => .node (.expr .arrayOfGroup) terms
  | makeStruct, terms => .node (.expr .makeStruct) (terms ++ [.absent])
  | makeNamedStruct name, terms => .node (.expr .makeStruct) (terms ++ [PathOrText.term name])
  | variant name, terms => .node (.expr .variant) (PathOrText.term name :: terms)
  | copy, terms => .node (.expr .makeCopy) terms
  | conditional, terms => .node (.expr .conditional) terms
  | caseOf, terms => .node (.expr .caseOf) terms
  | call, terms => .node (.expr .operation) (terms ++ [.absent])
  | callInstance luid, terms => .node (.expr .operation) (terms ++ [luidTerm luid])
  | window, terms => .node (.expr .window) terms
  | merge, terms => .node (.expr .merge) terms
  | loop state, terms => .node (.expr .forward) (.constant (.forwardState state) :: terms ++ [.absent])
  | loopInstance state luid, terms =>
    .node (.expr .forward) (.constant (.forwardState state) :: terms ++ [luidTerm luid])
  | readExpr, terms => partAt terms 0
  | exprText text, _ => .node (.expr .verbatim) [.text text]
  | labelIndex, terms => .node (.part .labelOrIndex) terms
  | label id, _ => .node (.part .labelOrIndex) [id.term]
  | item, terms => .node (.part .groupItem) (terms ++ [.absent])
  | labelled id, terms => .node (.part .groupItem) (terms ++ [id.term])
  | group _, terms => .node (.part .group) [.list terms]
  | modify, terms => .node (.part .modifier) terms
  | modifyText text, terms => .node (.part .modifier) (.text text :: terms)
  | branch p, terms => .node (.part .caseBranch) (PatternOrText.term p :: terms)
  | leftName id, _ => .node (.forward .left) [id.term]
  | leftArray, terms => .node (.forward .left) terms
  | element, terms => .node (.forward .element) terms
  | size, terms => .node (.forward .dimension) (terms ++ [.absent, .absent, .absent])
  | sizeWith id, terms => .node (.forward .dimension) [partAt terms 0, Ident.termOf? id,
      partAt terms 1, .absent]
  | dimensionText text, _ => .node (.forward .dimension) [.absent, .absent, .absent, .text text]
  | body sections, _ => .node (.forward .body) [.list sections, .absent, .absent]
  | bodyUntil sections, terms => .node (.forward .body) (.list sections :: .absent :: terms)
  | bodyUnless sections, terms => .node (.forward .body) (.list sections :: terms ++ [.absent])
  | onlyLast, terms => .node (.forward .lastDefault) (terms ++ [.absent, .absent])
  | onlyDefault, terms => .node (.forward .lastDefault) (.absent :: terms ++ [.absent])
  | lastPlusDefault, terms => .node (.forward .lastDefault) (terms ++ [.absent])
  | lastAndDefault, terms => .node (.forward .lastDefault) (.absent :: .absent :: terms)
  | arrayItem id, _ => .node (.forward .arrayClause) [clauseTerm id .absent]
  | arrayItemWith id, terms => .node (.forward .arrayClause) [clauseTerm id (partAt terms 0)]
  | arrayArray, terms => .node (.forward .arrayClause) terms
  | returnItem id, _ => .node (.forward .returnItem) [clauseTerm id .absent]
  | returnItemWith id, terms => .node (.forward .returnItem) [clauseTerm id (partAt terms 0)]
  | returnArray, terms => .node (.forward .returnArray) (terms ++ [.anyIdentifier])
  | returnText text, _ => .node (.forward .returnVerbatim) [.text text]
  | predefined type, _ => .node (.type .predefined) [.constant (.predefinedType type)]
  | signed, terms => .node (.type .sized) (terms ++ [.truth true])
  | unsigned, terms => .node (.type .sized) (terms ++ [.truth false])
  | named ids, _ => .node (.type .named) [pathTerm ids]
  | typeVariable name, _ => .node (.type .typeVariable) [nameTerm name]
  | struct, terms => .node (.type .struct) terms
  | array, terms => .node (.type .array) terms
  | readType, terms => partAt terms 0
  | typeText text, _ => .node (.type .verbatim) [.text text]
  | field id, terms => .node (.type .field) (id.term :: terms)
  | path ids pragmas, terms =>
    .node (.operator .path) (pathTerm ids :: terms ++
      [.list (pragmas.map fun text => .pragma (.text text))])
  | flatten, terms => .node (.operator .primitive) (.constant (.primitive .flatten) :: terms)
  | pack, terms => .node (.operator .primitive) (.constant (.primitive .pack) :: terms)
  | reverse, terms => .node (.operator .primitive) (.constant (.primitive .reverse) :: terms)
  | transpose, terms => .node (.operator .transpose) terms
  | express, terms => .node (.operator .expression) terms
  | iterate kind, terms => .node (.operator .iterator) (.constant (.iteratorKind kind) :: terms)
  | activateClock, terms => .node (.operator .activateClock) terms
  | activateEvery isLast, terms =>
    .node (.operator .activateEvery) [partAt terms 0, partAt terms 1, .truth isLast, partAt terms 2]
  | restart, terms => .node (.operator .restart) terms
  | partialCall, terms => .node (.operator .partialApplication) terms
  | nary op, _ => .node (.operator .nary) [.constant (.naryOp op)]
  | argument, terms => .node (.operator .optionalItem) terms
  | underscore, _ => .node (.operator .optionalItem) [.absent]

end Head

/-! ### Phrases -/

section

variable (Beside : (k : PhraseKind) → Head k → Type)

inductive Phrases : List PhraseKind → Type where
  | nil : Phrases []
  | cons (head : Head k) (beside : Beside k head) (parts : Phrases head.parts) (rest : Phrases ks) :
    Phrases (k :: ks)

structure Phrase (k : PhraseKind) where
  head : Head k
  beside : Beside k head
  parts : Phrases Beside head.parts

end

abbrev Whole (k : PhraseKind) (h : Head k) : Type := h.Place × h.Lost

/-- What a parse tree tells beside the heads, but for the places. -/
abbrev Unplaced (k : PhraseKind) (h : Head k) : Type := h.Lost

abbrev Bare (k : PhraseKind) (_ : Head k) : Type := Unit

variable {Beside Beside' : (k : PhraseKind) → Head k → Type} {k : PhraseKind} {ks : List PhraseKind}

namespace Phrases

def trees {ks : List PhraseKind} : Phrases Whole ks → List ParseTree
  | nil => []
  | cons head beside parts rest => head.tree beside.1 beside.2 parts.trees :: rest.trees

def terms {ks : List PhraseKind} : Phrases Beside ks → List Term
  | nil => []
  | cons head _ parts rest => head.term parts.terms :: rest.terms

def map (f : ∀ (k : PhraseKind) (h : Head k), Beside k h → Beside' k h) {ks : List PhraseKind} :
    Phrases Beside ks → Phrases Beside' ks
  | nil => nil
  | cons head beside parts rest => cons head (f _ head beside) (parts.map f) (rest.map f)

theorem terms_map (f : ∀ (k : PhraseKind) (h : Head k), Beside k h → Beside' k h)
    (a : Phrases Beside ks) : (a.map f).terms = a.terms := by
  induction a with
  | nil => rfl
  | cons head beside parts rest ihParts ihRest => rw [map, terms, terms, ihParts, ihRest]

end Phrases

namespace Phrase

def tree (a : Phrase Whole k) : ParseTree := a.head.tree a.beside.1 a.beside.2 a.parts.trees

def term (a : Phrase Beside k) : Term := a.head.term a.parts.terms

def unplaced (a : Phrase Whole k) : Phrase Unplaced k :=
  ⟨a.head, a.beside.2, a.parts.map fun _ _ => Prod.snd⟩

/-- What a phrase is without all that stands beside the heads. -/
def bare (a : Phrase Beside k) : Phrase Bare k := ⟨a.head, (), a.parts.map fun _ _ _ => ()⟩

theorem term_bare (a : Phrase Beside k) : a.bare.term = a.term :=
  congrArg a.head.term (a.parts.terms_map _)

end Phrase

end SwanModel
