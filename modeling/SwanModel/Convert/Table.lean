import SwanModel.Convert.Declaration

/-!
# The converter

`convertUpTo` ties the knot for a number of levels, and `convert` for as many as the tree and the
reader can need.
-/

namespace SwanModel

/-- The converter of a rule, given the converter of parts. -/
def Convert.step (self : Convert) : Convert
  | .option => option
  | .markup => markup
  | .protectedText => protectedText
  | .protectedItem => protectedItem
  | .identifier => identifier
  | .path => path
  | .pathOrText => pathOrText
  | .locatedText => locatedText
  | .instanceId => instanceId
  | .nameText => nameText
  | .luid => luid
  | .unaryOp => constantOf unaryOps
  | .binaryOp => constantOf binaryOps
  | .labelOrIndex => labelOrIndex self
  | .groupItem => groupItem self
  | .group => group self
  | .modifier => modifier self
  | .caseBranches => caseBranches self
  | .pattern => pattern
  | .groupRenaming => groupRenaming
  | .adaptation => adaptation
  | .clock => clock
  | .exprOrText => exprOrText self
  | .expr => expr self
  | .port => port
  | .forwardLeft => forwardLeft self
  | .forwardElement => forwardElement self
  | .dimension => dimension self
  | .forwardBody => forwardBody self
  | .lastDefault => lastDefault self
  | .itemClause => itemClause self
  | .arrayClause => arrayClause self
  | .forwardReturn => forwardReturn self
  | .forward => forward self
  | .optionalItem => optionalItem self
  | .locatedOperatorExpr => locatedOperatorExpr self
  | .operatorExpr => operatorExpr self
  | .operator => operator self
  | .operatorBlock => operatorBlock self
  | .instanceBlock => instanceBlock self
  | .predefinedType => predefinedType
  | .type => type self
  | .typeOrText => typeOrText self
  | .groupType => groupType self
  | .numericKind => numericKind
  | .constant => constant self
  | .sensor => sensor self
  | .typeDecl => typeDecl self
  | .use => use
  | .groupDecl => groupDecl self
  | .constraint => constraint self
  | .flow => flow self
  | .signatureElements => signatureElements self
  | .signature => signature self
  | .userOperator => userOperator self
  | .operatorBody => operatorBody self
  | .emission => emission self
  | .leftItem => leftItem
  | .left => left
  | .equation => equation self
  | .ifActivation => ifActivation self
  | .branch => branch self
  | .activationBranch => activationBranch self
  | .whenBranch => whenBranch self
  | .machineItem => machineItem self
  | .arrow => arrow self
  | .priorityFork => priorityFork self
  | .stateBody => stateBody self
  | .identification => identification
  | .object => object self
  | .connection => connection
  | .scopeSection => scopeSection self
  | .scope => scope self
  | .declaration => declaration self
  | .declarations => declarations self

/-- The converter of trees, down to a number of levels. -/
def convertUpTo : Nat → Convert
  | 0, _, _ => throw .tooDeep
  | levels + 1, rule, tree => Convert.step (convertUpTo levels) rule tree

/-- How many levels the conversion of a tree can need: every level of the tree is passed at most
three times, and so is every level of the trees that are read on the way. -/
def levelsFor (reader : Reader) (tree : ParseTree) : Nat := 3 * (tree.height + reader.depth) + 3

def convert (rule : Rule) (tree : ParseTree) : Conversion Term := do
  convertUpTo (levelsFor (← read) tree) rule tree

def convertModule (form : ModuleForm) (name : String) (tree : ParseTree) : Conversion Term := do
  Convert.module (convertUpTo (levelsFor (← read) tree)) form name tree

end SwanModel
