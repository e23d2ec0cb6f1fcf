import SwanModel.Numeral.Decimal
import SwanModel.Numeral.Binary64
import SwanModel.Text.Words

/-!
# Numeric literals

Only the start of a text is looked at. `Integer.scan` and `Real.scan` find the parts of a literal,
`Integer.read` and `Real.read` give its value.
-/

namespace SwanModel.Numeral

open Text

/-! ### Integers -/

/-- The base that the mark of an integer literal announces. -/
inductive Base where
  | binary | octal | hexadecimal
deriving DecidableEq, Repr

def Base.all : List Base := [.binary, .octal, .hexadecimal]

def Base.mark : Base → List Char
  | .binary => ['0', 'b']
  | .octal => ['0', 'o']
  | .hexadecimal => ['0', 'x']

def Base.isDigit (base : Base) (c : Char) : Bool :=
  match base with
  | .binary => c == '0' || c == '1'
  | .octal => '0' ≤ c && c ≤ '7'
  | .hexadecimal => c.isDigit || ('a' ≤ c && c ≤ 'f') || ('A' ≤ c && c ≤ 'F')

/-- Type suffix of an integer literal. -/
structure IntegerSuffix where
  signed : Bool
  size : Nat
deriving DecidableEq, Repr

def IntegerSuffix.word (suffix : IntegerSuffix) : String := if suffix.signed then "_i" else "_ui"

/-- Parts of an integer literal. -/
structure IntegerParts where
  digits : List Char
  suffix : Option IntegerSuffix
deriving DecidableEq, Repr

/-- An integer literal and its type. -/
structure Integer where
  value : Int
  isBin : Bool
  isOct : Bool
  isHex : Bool
  isDec : Bool
  isSigned : Bool
  size : Nat
deriving DecidableEq, Repr

namespace Integer

/-- A mark and at least one digit of its base. -/
def scanBased (cs : List Char) (base : Base) : Option (List Char × List Char) :=
  match dropWord base.mark cs with
  | none => none
  | some rest =>
    match rest.takeWhile base.isDigit with
    | [] => none
    | digits => some (base.mark ++ digits, rest.dropWhile base.isDigit)

/-- At least one decimal digit. -/
def scanDecimal (cs : List Char) : Option (List Char × List Char) :=
  match cs.takeWhile isDigit with
  | [] => none
  | digits => some (digits, cs.dropWhile isDigit)

def scanNumeral (cs : List Char) : Option (List Char × List Char) :=
  (Base.all.findSome? (scanBased cs)).or (scanDecimal cs)

def sizes : List (List Char × Nat) :=
  [(['8'], 8), (['1', '6'], 16), (['3', '2'], 32), (['6', '4'], 64)]

def scanSuffix (cs : List Char) : Option IntegerSuffix :=
  [false, true].findSome? fun signed =>
    (dropWord (IntegerSuffix.mk signed 0).word.toList cs).bind fun rest =>
      sizes.findSome? fun (word, size) => (dropWord word rest).map fun _ => ⟨signed, size⟩

/-- The parts of the integer literal at the front of a text. -/
def scan (s : String) : Option IntegerParts :=
  (scanNumeral s.toList).map fun (digits, rest) => ⟨digits, scanSuffix rest⟩

/-- The value of the parts of a literal, with a minus sign in front or not. A minus sign does not go
with an unsigned type. -/
def ofParts (parts : IntegerParts) (minus : Bool) : Except Error Integer := do
  let marked (base : Base) := holds base.mark parts.digits
  let signed := match parts.suffix with
    | some suffix => suffix.signed || minus
    | none => true
  if minus && parts.suffix.any (!·.signed) then throw .violated
  let n ← intOfText (String.ofList parts.digits)
  return {
    value := if minus then -n else n
    isBin := marked .binary
    isOct := marked .octal
    isHex := marked .hexadecimal
    isDec := !(marked .binary || marked .octal || marked .hexadecimal)
    isSigned := signed
    size := (parts.suffix.map (·.size)).getD 32 }

/-- The integer literal at the front of a text, if there is one. -/
def read (s : String) (minus : Bool) : Except Error (Option Integer) :=
  match scan s with
  | none => .ok none
  | some parts => (ofParts parts minus).map some

/-- The suffix word that reading a literal announces. -/
def announced (s : String) : Option String := (scan s).bind fun parts => parts.suffix.map (·.word)

/-- Whether a text starts with an integer literal. -/
def isInteger (s : String) : Except Error Bool := (read s false).map (·.isSome)

end Integer

/-! ### Reals -/

/-- Parts of a real literal. -/
structure RealParts where
  whole : List Char
  fraction : List Char
  exponent : Option (List Char)
  size : Option Nat
deriving DecidableEq, Repr

def RealParts.mantissa (parts : RealParts) : List Char := parts.whole ++ '.' :: parts.fraction

/-- A real literal and its type. -/
structure Real where
  value : Binary64
  mantissa : String
  exponent : Int
  size : Nat
deriving DecidableEq, Repr

namespace Real

/-- Digits with a point, at least one of them on one side of it. -/
def scanMantissa (cs : List Char) : Option (List Char × List Char × List Char) :=
  let whole := cs.takeWhile isDigit
  match cs.dropWhile isDigit with
  | '.' :: rest =>
    let fraction := rest.takeWhile isDigit
    if whole.isEmpty && fraction.isEmpty then none
    else some (whole, fraction, rest.dropWhile isDigit)
  | _ => none

/-- A sign or none. -/
def scanSign : List Char → List Char × List Char
  | '+' :: cs => (['+'], cs)
  | '-' :: cs => (['-'], cs)
  | cs => ([], cs)

def scanExponent (cs : List Char) : Option (List Char × List Char) :=
  match cs with
  | c :: rest =>
    let (sign, digits) := scanSign rest
    if (c == 'e' || c == 'E') && !(digits.takeWhile isDigit).isEmpty then
      some (sign ++ digits.takeWhile isDigit, digits.dropWhile isDigit)
    else none
  | [] => none

def scanSize (cs : List Char) : Option Nat :=
  (dropWord ['_', 'f'] cs).bind fun rest =>
    [(['3', '2'], 32), (['6', '4'], 64)].findSome? fun (word, size) =>
      (dropWord word rest).map fun _ => size

/-- The parts of the real literal at the front of a text. -/
def scan (s : String) : Option RealParts :=
  (scanMantissa s.toList).map fun (whole, fraction, rest) =>
    match scanExponent rest with
    | some (exponent, rest) => ⟨whole, fraction, some exponent, scanSize rest⟩
    | none => ⟨whole, fraction, none, scanSize rest⟩

/-- The value of the parts of a literal. A literal without exponent reports the exponent one. -/
def ofParts (parts : RealParts) (minus : Bool) : Except Error Real := do
  let exponent ← (parts.exponent.map fun e => intOfText (String.ofList e)).getD (.ok 1)
  let power : Int := if parts.exponent.isSome then exponent else 0
  let x := Binary64.ofDecimal (natOfDigits (parts.whole ++ parts.fraction))
    (power - parts.fraction.length)
  return {
    value := if minus then x.neg else x
    mantissa := String.ofList parts.mantissa
    exponent := exponent
    size := parts.size.getD 32 }

/-- The real literal at the front of a text, if there is one. -/
def read (s : String) (minus : Bool) : Except Error (Option Real) :=
  match scan s with
  | none => .ok none
  | some parts => (ofParts parts minus).map some

def isReal (s : String) : Except Error Bool := (read s false).map (·.isSome)

end Real

end SwanModel.Numeral
