/-!
# Forms of constructs

`bare` forms are the constructs of which nothing but the family is known, and `verbatim` forms hold
text that could not be read.
-/

namespace SwanModel

/-- Names, and constructs that are no more than a name or a text. -/
inductive NameForm where
  | item | identifier | path | luid | declaration | verbatim
deriving DecidableEq, Repr, Inhabited

/-- Type expressions and definitions. -/
inductive TypeForm where
  | bare | typeVariable | predefined | sized | named | field | struct | array | verbatim
  | definition | exprDefinition | enumeration | variantCase | variants | groupBare | groupType
  | groupNamed | groupList
deriving DecidableEq, Repr, Inhabited

/-- Patterns of case expressions and activations. -/
inductive PatternForm where
  | bare | path | variant | char | int | bool | underscore | otherwise | verbatim
deriving DecidableEq, Repr, Inhabited

/-- Expressions. -/
inductive ExprForm where
  | bare | path | last | literal | port | unary | binary | whenClock | whenMatch | conversion
  | group | adapted | arrayProjection | structProjection | makeGroup | slice | dynamicProjection
  | makeArray | arrayOfGroup | makeStruct | variant | makeCopy | conditional | caseOf | window
  | merge | verbatim | forward | operation
deriving DecidableEq, Repr, Inhabited

/-- Parts of expressions that are no expressions themselves. -/
inductive PartForm where
  | clock | groupItem | group | groupRenaming | adaptation | labelOrIndex | modifier | caseBranch
deriving DecidableEq, Repr, Inhabited

/-- Operators that an expression or a block applies. -/
inductive OperatorForm where
  | bare | bareExpression | path | primitive | transpose | expression | iterator | activateClock
  | activateEvery | restart | optionalItem | partialApplication | nary | lambda | lambdaScope
  | verbatim
deriving DecidableEq, Repr, Inhabited

/-- Parts of forward loops. -/
inductive ForwardForm where
  | left | element | dimension | lastDefault | itemClause | arrayClause | returnBare | returnItem
  | returnArray | returnVerbatim | body
deriving DecidableEq, Repr, Inhabited

/-- Equations, with state machines and activations. -/
inductive EquationForm where
  | bare | left | leftItem | expression | byCase | machineItem | identification | fork | target
  | arrow | forkTree | priorityFork | priorityForks | transition | transitionDecl | state
  | machine | branch | ifBranch | ifActivation | branchScope | branchIf | activateIf | whenBranch
  | activateWhen
deriving DecidableEq, Repr, Inhabited

/-- Diagrams and their objects. -/
inductive DiagramForm where
  | object | diagram | expression | definition | block | connection | wire | group
  | sectionObject
deriving DecidableEq, Repr, Inhabited

/-- Scopes and their sections. -/
inductive SectionForm where
  | bare | scope | equations | variables | emission | emissions | property | assumptions
  | guarantees | verbatim
deriving DecidableEq, Repr, Inhabited

/-- Declarations of one thing each. -/
inductive DeclForm where
  | constant | sensor | group | type | flow | flowDecl | flowVerbatim | typeConstraint
  | signature | operator
deriving DecidableEq, Repr, Inhabited

/-- Modules and what stands directly in them. -/
inductive ModuleForm where
  | global | types | constants | sensors | groups | use | verbatim | bare | body | interface
deriving DecidableEq, Repr, Inhabited

/-- A kind of construct. -/
inductive Form where
  | name (f : NameForm)
  | type (f : TypeForm)
  | pattern (f : PatternForm)
  | expr (f : ExprForm)
  | part (f : PartForm)
  | operator (f : OperatorForm)
  | forward (f : ForwardForm)
  | equation (f : EquationForm)
  | diagram (f : DiagramForm)
  | scope (f : SectionForm)
  | decl (f : DeclForm)
  | module (f : ModuleForm)
deriving DecidableEq, Repr, Inhabited

end SwanModel
