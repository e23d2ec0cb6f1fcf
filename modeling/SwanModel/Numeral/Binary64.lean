/-!
# Binary floating-point numbers of 64 bits

A number is its bits: sign, eleven bits of exponent, fifty-two of significand.
-/

namespace SwanModel.Numeral

/-- A binary floating-point number of 64 bits. -/
structure Binary64 where
  bits : UInt64
deriving DecidableEq, Repr, Inhabited

namespace Binary64

/-- Bits of the infinity, also the first bits that no finite number has. -/
def infinityBits : Nat := 0x7ff0000000000000

def infinity : Binary64 := ⟨infinityBits.toUInt64⟩

def one : Binary64 := ⟨0x3ff0000000000000⟩

def nan : Binary64 := ⟨0x7ff8000000000000⟩

/-- The nearest integer to a quotient, the even one of two. -/
def roundDiv (n d : Nat) : Nat :=
  let q := n / d
  let r := n % d
  if d < 2 * r || (2 * r == d && q % 2 == 1) then q + 1 else q

def scaled (n d : Nat) (e : Int) : Nat × Nat :=
  if e < 0 then (n * Nat.pow 2 e.natAbs, d) else (n, d * Nat.pow 2 e.natAbs)

/-- The exponent at which the significand of `n / d` has fifty-three bits, or the least one. -/
def exponentOf (n d : Nat) : Int :=
  let e : Int := n.log2 - d.log2 - 52
  let (a, b) := scaled n d e
  let e := if a / b < Nat.pow 2 52 then e - 1 else e
  max e (-1074)

/-- The bits of the number nearest to the quotient of two positive naturals. -/
def ofRatioBits (n d : Nat) : Nat :=
  let e := exponentOf n d
  let (a, b) := scaled n d e
  min (((e + 1074).toNat * Nat.pow 2 52) + roundDiv a b) infinityBits

def ofRatio (n d : Nat) : Binary64 :=
  if n = 0 then ⟨0⟩ else ⟨(ofRatioBits n d).toUInt64⟩

/-- The number nearest to `n * 10 ^ e`. Decimals beyond all finite numbers give the infinity, and
those closer to zero than any other give zero. -/
def ofDecimal (n : Nat) (e : Int) : Binary64 :=
  if n = 0 then ⟨0⟩
  else
    let places : Int := (Nat.toDigits 10 n).length + e
    if places > 400 then infinity
    else if places < -400 then ⟨0⟩
    else if e < 0 then ofRatio n (Nat.pow 10 e.natAbs)
    else ofRatio (n * Nat.pow 10 e.natAbs) 1

def neg (x : Binary64) : Binary64 := ⟨x.bits ^^^ 0x8000000000000000⟩

def isNegative (x : Binary64) : Bool := x.bits ≥ 0x8000000000000000

def exponentBits (x : Binary64) : Nat := (x.bits.toNat / Nat.pow 2 52) % Nat.pow 2 11

def significandBits (x : Binary64) : Nat := x.bits.toNat % Nat.pow 2 52

def isFinite (x : Binary64) : Bool := x.exponentBits < 2047

def isNan (x : Binary64) : Bool := x.exponentBits == 2047 && x.significandBits != 0

def isZero (x : Binary64) : Bool := x.exponentBits == 0 && x.significandBits == 0

/-- The significand `m` and exponent `e` with `|x| = m * 2 ^ e`. -/
def parts (x : Binary64) : Nat × Int :=
  if x.exponentBits = 0 then (x.significandBits, -1074)
  else (Nat.pow 2 52 + x.significandBits, (x.exponentBits : Int) - 1075)

def truncate (x : Binary64) : Int :=
  let (m, e) := x.parts
  let n : Nat := if e < 0 then m / Nat.pow 2 e.natAbs else m * Nat.pow 2 e.natAbs
  if x.isNegative then -n else n

end Binary64

end SwanModel.Numeral
