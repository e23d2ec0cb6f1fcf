import SwanModel.Layout.Print

/-!
# Texts with arguments

Some constructs can be written in other ways than their own layout, which take arguments.
-/

namespace SwanModel

/-- The position of the sizes among the parts of an operator. -/
def OperatorForm.sizesIndex? : OperatorForm → Option Nat
  | .bare => some 0
  | .path | .primitive | .transpose | .expression => some 1
  | _ => none

def describeOperator (sizes front : Printed) : Except Error Term :=
  if sizes.isTruthy then do
    let tail ← sizes.join ", "
    return .text ((← front.exactText) ++ " <<" ++ tail ++ ">>")
  else
    .ok front.term

def describeSection (keyword items terminator : Printed) : Except Error Term := do
  let lines ← (← items.items).mapM fun item => do
    return "    " ++ (← item.text) ++ (← terminator.text)
  return .text ((← keyword.text) ++ "\n" ++ "\n".intercalate lines)

def Term.isZero : Term → Bool
  | .number n => n == 0
  | .truth b => !b
  | .real x => x.isZero
  | _ => false

def Form.isSection : Form → Bool
  | .scope .scope | .scope .emission | .scope .property => false
  | .scope _ | .diagram .diagram => true
  | _ => false

def Form.describe (form : Form) (parts args : List Printed) : Except Error Term :=
  match form with
  | .operator f =>
    match f.sizesIndex?, args with
    | some i, [front] => describeOperator (parts.getD i (.ofText "")) front
    | some _, _ => .error .wrongKind
    | none, _ => .error .missingMember
  | .equation .ifBranch =>
    match args with
    | [position] =>
      (branchLayout position.term.isZero (.mk (.node form []) (.ok "") parts)).map .text
    | _ => .error .wrongKind
  | .diagram .connection => .error .missingMember
  | .decl .signature =>
    match args, parts with
    | [], [id, isNode, inputs, outputs, sizes, constraints, specialization, pragmas] =>
      (signatureLayout id isNode inputs outputs sizes constraints specialization pragmas).map .text
    | _, _ => .error .wrongKind
  | .decl .operator =>
    match args, parts with
    | [], [id, isNode, inputs, outputs, _, sizes, constraints, specialization, pragmas, _] =>
      (signatureLayout id isNode inputs outputs sizes constraints specialization pragmas).map .text
    | _, _ => .error .wrongKind
  | .module _ =>
    match args with
    | [keyword, items] => do
      let texts ← items.join "; "
      return .text ((← keyword.text) ++ " " ++ texts ++ ";")
    | _ => .error .wrongKind
  | .diagram .diagram | .scope _ =>
    if form.isSection then
      match args with
      | [keyword, items] => describeSection keyword items (.ofText ";")
      | [keyword, items, terminator] => describeSection keyword items terminator
      | _ => .error .wrongKind
    else .error .missingMember
  | .diagram f =>
    match args with
    | [] => (f.description parts).map .text
    | _ => .error .wrongKind
  | _ => .error .missingMember

/-- Whether constants of the kind are written in programs. -/
def Constant.isWritten : Constant → Bool
  | .literalKind _ => false
  | _ => true

/-- How a constant is written as one of a kind; the name of the kind is that of the constant. -/
def Constant.textAs (family : String) (value : Term) : Except Error Term :=
  match family, value with
  | "UnaryOp", .constant (.unaryOp c) => .ok (.text c.text)
  | "BinaryOp", .constant (.binaryOp c) => .ok (.text c.text)
  | "IteratorKind", .constant (.iteratorKind c) => .ok (.text c.text)
  | "NaryOp", .constant (.naryOp c) => .ok (.text c.text)
  | "UnaryOp", _ | "BinaryOp", _ | "IteratorKind", _ | "NaryOp", _ => .ok .absent
  | "GroupOperation", value => (groupOperationWord value).map .text
  | "PredefinedTypes", value | "NumericKind", value | "PrefixPrimitiveKind", value =>
    (loweredName value).map .text
  | _, _ => .error .missingMember

end SwanModel
