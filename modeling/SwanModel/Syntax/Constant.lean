/-! # Constants of the language -/

namespace SwanModel

/-- The types that the language has built in. -/
inductive PredefinedType where
  | bool | char | int8 | int16 | int32 | int64 | uint8 | uint16 | uint32 | uint64 | float32
  | float64
deriving DecidableEq, Repr, Inhabited

namespace PredefinedType

def all : List PredefinedType :=
  [.bool, .char, .int8, .int16, .int32, .int64, .uint8, .uint16, .uint32, .uint64, .float32,
    .float64]

def name : PredefinedType → String
  | .bool => "Bool"
  | .char => "Char"
  | .int8 => "Int8"
  | .int16 => "Int16"
  | .int32 => "Int32"
  | .int64 => "Int64"
  | .uint8 => "Uint8"
  | .uint16 => "Uint16"
  | .uint32 => "Uint32"
  | .uint64 => "Uint64"
  | .float32 => "Float32"
  | .float64 => "Float64"

def text : PredefinedType → String
  | .bool => "bool"
  | .char => "char"
  | .int8 => "int8"
  | .int16 => "int16"
  | .int32 => "int32"
  | .int64 => "int64"
  | .uint8 => "uint8"
  | .uint16 => "uint16"
  | .uint32 => "uint32"
  | .uint64 => "uint64"
  | .float32 => "float32"
  | .float64 => "float64"

end PredefinedType

/-- Families of numeric types, for constraints on type variables. -/
inductive NumericKind where
  | numeric | integer | signed | unsigned | float
deriving DecidableEq, Repr, Inhabited

namespace NumericKind

def all : List NumericKind :=
  [.numeric, .integer, .signed, .unsigned, .float]

def name : NumericKind → String
  | .numeric => "Numeric"
  | .integer => "Integer"
  | .signed => "Signed"
  | .unsigned => "Unsigned"
  | .float => "Float"

def text : NumericKind → String
  | .numeric => "numeric"
  | .integer => "integer"
  | .signed => "signed"
  | .unsigned => "unsigned"
  | .float => "float"

end NumericKind

/-- Operators of one operand. -/
inductive UnaryOp where
  | minus | plus | lnot | not | pre
deriving DecidableEq, Repr, Inhabited

namespace UnaryOp

def all : List UnaryOp :=
  [.minus, .plus, .lnot, .not, .pre]

def name : UnaryOp → String
  | .minus => "Minus"
  | .plus => "Plus"
  | .lnot => "Lnot"
  | .not => "Not"
  | .pre => "Pre"

def text : UnaryOp → String
  | .minus => "-"
  | .plus => "+"
  | .lnot => "lnot"
  | .not => "not"
  | .pre => "pre"

end UnaryOp

/-- Operators of two operands. -/
inductive BinaryOp where
  | plus | minus | mult | slash | mod | land | lor | lxor | lsl | lsr | equal | diff | lt | gt
  | leq | geq | and | or | xor | arrow | pre | concat
deriving DecidableEq, Repr, Inhabited

namespace BinaryOp

def all : List BinaryOp :=
  [.plus, .minus, .mult, .slash, .mod, .land, .lor, .lxor, .lsl, .lsr, .equal, .diff, .lt,
    .gt, .leq, .geq, .and, .or, .xor, .arrow, .pre, .concat]

def name : BinaryOp → String
  | .plus => "Plus"
  | .minus => "Minus"
  | .mult => "Mult"
  | .slash => "Slash"
  | .mod => "Mod"
  | .land => "Land"
  | .lor => "Lor"
  | .lxor => "Lxor"
  | .lsl => "Lsl"
  | .lsr => "Lsr"
  | .equal => "Equal"
  | .diff => "Diff"
  | .lt => "Lt"
  | .gt => "Gt"
  | .leq => "Leq"
  | .geq => "Geq"
  | .and => "And"
  | .or => "Or"
  | .xor => "Xor"
  | .arrow => "Arrow"
  | .pre => "Pre"
  | .concat => "Concat"

def text : BinaryOp → String
  | .plus => "+"
  | .minus => "-"
  | .mult => "*"
  | .slash => "/"
  | .mod => "mod"
  | .land => "land"
  | .lor => "lor"
  | .lxor => "lxor"
  | .lsl => "lsl"
  | .lsr => "lsr"
  | .equal => "="
  | .diff => "<>"
  | .lt => "<"
  | .gt => ">"
  | .leq => "<="
  | .geq => ">="
  | .and => "and"
  | .or => "or"
  | .xor => "xor"
  | .arrow => "->"
  | .pre => "pre"
  | .concat => "@"

end BinaryOp

/-- Kinds of literals. -/
inductive LiteralKind where
  | bool | char | numeric
deriving DecidableEq, Repr, Inhabited

namespace LiteralKind

def all : List LiteralKind :=
  [.bool, .char, .numeric]

def name : LiteralKind → String
  | .bool => "Bool"
  | .char => "Char"
  | .numeric => "Numeric"

end LiteralKind

/-- Built-in operators on arrays. -/
inductive Primitive where
  | reverse | transpose | pack | flatten
deriving DecidableEq, Repr, Inhabited

namespace Primitive

def all : List Primitive :=
  [.reverse, .transpose, .pack, .flatten]

def name : Primitive → String
  | .reverse => "Reverse"
  | .transpose => "Transpose"
  | .pack => "Pack"
  | .flatten => "Flatten"

def text : Primitive → String
  | .reverse => "reverse"
  | .transpose => "transpose"
  | .pack => "pack"
  | .flatten => "flatten"

end Primitive

/-- Iterators over arrays. -/
inductive IteratorKind where
  | map | fold | mapfold | mapi | foldi | mapfoldi
deriving DecidableEq, Repr, Inhabited

namespace IteratorKind

def all : List IteratorKind :=
  [.map, .fold, .mapfold, .mapi, .foldi, .mapfoldi]

def name : IteratorKind → String
  | .map => "Map"
  | .fold => "Fold"
  | .mapfold => "Mapfold"
  | .mapi => "Mapi"
  | .foldi => "Foldi"
  | .mapfoldi => "Mapfoldi"

def text : IteratorKind → String
  | .map => "map"
  | .fold => "fold"
  | .mapfold => "mapfold"
  | .mapi => "mapi"
  | .foldi => "foldi"
  | .mapfoldi => "mapfoldi"

end IteratorKind

/-- Operators of any number of operands. -/
inductive NaryOp where
  | plus | mult | land | lor | and | or | xor | concat
deriving DecidableEq, Repr, Inhabited

namespace NaryOp

def all : List NaryOp :=
  [.plus, .mult, .land, .lor, .and, .or, .xor, .concat]

def name : NaryOp → String
  | .plus => "Plus"
  | .mult => "Mult"
  | .land => "Land"
  | .lor => "Lor"
  | .and => "And"
  | .or => "Or"
  | .xor => "Xor"
  | .concat => "Concat"

def text : NaryOp → String
  | .plus => "+"
  | .mult => "*"
  | .land => "land"
  | .lor => "lor"
  | .and => "and"
  | .or => "or"
  | .xor => "xor"
  | .concat => "@"

end NaryOp

/-- What a group block of a diagram does. -/
inductive GroupOperation where
  | noOp | byName | byPos | normalize
deriving DecidableEq, Repr, Inhabited

namespace GroupOperation

def all : List GroupOperation :=
  [.noOp, .byName, .byPos, .normalize]

def name : GroupOperation → String
  | .noOp => "NoOp"
  | .byName => "ByName"
  | .byPos => "ByPos"
  | .normalize => "Normalize"

def text : GroupOperation → String
  | .noOp => ""
  | .byName => "byname"
  | .byPos => "bypos"
  | .normalize => "()"

end GroupOperation

/-- How a forward loop treats its state. -/
inductive ForwardState where
  | nothing | restart | resume
deriving DecidableEq, Repr, Inhabited

namespace ForwardState

def all : List ForwardState :=
  [.nothing, .restart, .resume]

def name : ForwardState → String
  | .nothing => "Nothing"
  | .restart => "Restart"
  | .resume => "Resume"

end ForwardState

/-- A constant of any kind. -/
inductive Constant where
  | predefinedType (c : PredefinedType)
  | numericKind (c : NumericKind)
  | unaryOp (c : UnaryOp)
  | binaryOp (c : BinaryOp)
  | literalKind (c : LiteralKind)
  | primitive (c : Primitive)
  | iteratorKind (c : IteratorKind)
  | naryOp (c : NaryOp)
  | groupOperation (c : GroupOperation)
  | forwardState (c : ForwardState)
deriving DecidableEq, Repr, Inhabited

namespace Constant

def name : Constant → String
  | .predefinedType c => c.name
  | .numericKind c => c.name
  | .unaryOp c => c.name
  | .binaryOp c => c.name
  | .literalKind c => c.name
  | .primitive c => c.name
  | .iteratorKind c => c.name
  | .naryOp c => c.name
  | .groupOperation c => c.name
  | .forwardState c => c.name

def family : Constant → String
  | .predefinedType _ => "PredefinedTypes"
  | .numericKind _ => "NumericKind"
  | .unaryOp _ => "UnaryOp"
  | .binaryOp _ => "BinaryOp"
  | .literalKind _ => "LiteralKind"
  | .primitive _ => "PrefixPrimitiveKind"
  | .iteratorKind _ => "IteratorKind"
  | .naryOp _ => "NaryOp"
  | .groupOperation _ => "GroupOperation"
  | .forwardState _ => "ForwardState"

def all : List Constant :=
  PredefinedType.all.map .predefinedType
    ++ NumericKind.all.map .numericKind
    ++ UnaryOp.all.map .unaryOp
    ++ BinaryOp.all.map .binaryOp
    ++ LiteralKind.all.map .literalKind
    ++ Primitive.all.map .primitive
    ++ IteratorKind.all.map .iteratorKind
    ++ NaryOp.all.map .naryOp
    ++ GroupOperation.all.map .groupOperation
    ++ ForwardState.all.map .forwardState

def fullName (c : Constant) : String := c.family ++ "." ++ c.name

/-- The position of a constant among those of its kind, from one. -/
def ordinal (c : Constant) : Nat := (all.filter (·.family == c.family)).idxOf c + 1

def isFamily (family : String) : Bool := all.any (·.family == family)

/-- The constant with a name among those of a kind. -/
def find? (family name : String) : Option Constant :=
  all.find? fun c => c.family == family && c.name == name

end Constant

end SwanModel
