import SwanModel.Numeral.Decimal
import SwanModel.Numeral.Binary64

/-!
# Shortest decimals

`Binary64.shortest` is the decimal with the fewest digits that rounds to a number, the nearest of
them if there are several.
-/

namespace SwanModel.Numeral

namespace Binary64

/-- The numbers `low`, `mid` and `high` over one denominator: a decimal between `low` and `high`
rounds to `mid`; the ends count when `closed`. -/
structure Interval where
  low : Nat
  mid : Nat
  high : Nat
  denominator : Nat
  closed : Bool

/-- The decimals that round to a finite positive number. -/
def interval (x : Binary64) : Interval :=
  let (m, e) := x.parts
  let near := m == Nat.pow 2 52 && x.exponentBits > 1
  let up := if e < 2 then 1 else Nat.pow 2 (e - 2).natAbs
  let down := if e < 2 then Nat.pow 2 (2 - e).natAbs else 1
  { low := (4 * m - (if near then 1 else 2)) * up
    mid := 4 * m * up
    high := (4 * m + 2) * up
    denominator := down
    closed := m % 2 == 0 }

/-- Whether `a / b` lies inside. -/
def Interval.contains (i : Interval) (a b : Nat) : Bool :=
  let x := a * i.denominator
  if i.closed then i.low * b ≤ x && x ≤ i.high * b else i.low * b < x && x < i.high * b

/-- `10 ^ p` as a quotient. -/
def tenPow (p : Int) : Nat × Nat := if p < 0 then (1, Nat.pow 10 p.natAbs) else (Nat.pow 10 p.natAbs, 1)

/-- The least `p` with `mid < 10 ^ p`, found from an estimate. -/
def Interval.point (i : Interval) : Int :=
  let estimate : Int := (i.mid.log2 : Int) - i.denominator.log2
  let start := estimate * 30103 / 100000 - 1
  let above (p : Int) : Bool :=
    let (a, b) := tenPow p
    i.mid * b < a * i.denominator
  ((List.range 5).map fun k : Nat => start + (k : Int)).find? above |>.getD start

/-- The digits at which a decimal of the given length lies inside and nearest to the number. -/
def Interval.digitsAt (i : Interval) (point : Int) (length : Nat) : Option Nat :=
  let (a, b) := tenPow (point - length)
  let num := i.mid * b
  let den := i.denominator * a
  let q := num / den
  let r := num % den
  let below := i.contains (q * a) b && q != 0
  let above := i.contains ((q + 1) * a) b
  if below && above then
    some (if 2 * r < den || (2 * r == den && q % 2 == 0) then q else q + 1)
  else if below then some q
  else if above then some (q + 1)
  else none

/-- The digits of the shortest decimal and the place of its point: the number is
`0.digits * 10 ^ point`. -/
def shortest (x : Binary64) : List Char × Int :=
  let i := x.interval
  let point := i.point
  let found := ((List.range 17).map (· + 1)).findSome? (i.digitsAt point)
  let digits := Nat.toDigits 10 (found.getD 0)
  let stripped := (digits.reverse.dropWhile (· == '0')).reverse
  let length := ((List.range 17).map (· + 1)).find? fun k => (i.digitsAt point k).isSome
  (stripped, point + digits.length - (length.getD digits.length))

def layout (digits : List Char) (point : Int) : List Char :=
  if point ≤ -4 || point > 16 then
    let e := point - 1
    let magnitude := Nat.toDigits 10 e.natAbs
    let exponent := (if e < 0 then ['-'] else ['+']) ++
      (if magnitude.length < 2 then '0' :: magnitude else magnitude)
    let significand := match digits with
      | [] => ['0']
      | [d] => [d]
      | d :: ds => d :: '.' :: ds
    significand ++ 'e' :: exponent
  else if point ≤ 0 then
    '0' :: '.' :: List.replicate point.natAbs '0' ++ digits
  else
    let whole := digits.take point.natAbs
    let zeros := List.replicate (point.natAbs - digits.length) '0'
    let rest := digits.drop point.natAbs
    whole ++ zeros ++ '.' :: (if rest.isEmpty then ['0'] else rest)

def text (x : Binary64) : String :=
  if x.isNan then "nan"
  else
    let body :=
      if !x.isFinite then ['i', 'n', 'f']
      else if x.isZero then ['0', '.', '0']
      else
        let (digits, point) := (⟨x.bits &&& 0x7fffffffffffffff⟩ : Binary64).shortest
        layout digits point
    String.ofList (if x.isNegative then '-' :: body else body)

end Binary64

end SwanModel.Numeral
