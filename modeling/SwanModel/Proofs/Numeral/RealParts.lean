import Mathlib.Algebra.Field.Rat
import Mathlib.Tactic.Linarith
import SwanModel.Proofs.Numeral.Classification

/-!
# Mantissa and exponent of real literals

A literal without an exponent is reported with the exponent one and not zero, so that mantissa times
power is ten times too large.
-/

namespace SwanModel.Numeral

open Text Printing

/-! ### Numbers -/

def pointValue (cs : List Char) : ℚ :=
  let fraction := (cs.dropWhile (· != '.')).tail
  positional 10 (cs.takeWhile (· != '.')) + positional 10 fraction / 10 ^ fraction.length

def Exponent.power (e : Exponent) : Int :=
  if e.sign == ['-'] then -(positional 10 e.digits : Int) else positional 10 e.digits

namespace WrittenReal

variable (literal : WrittenReal)

/-- The number that a literal denotes. A literal without an exponent denotes its digits. -/
def number : ℚ :=
  (positional 10 literal.whole + positional 10 literal.fraction / 10 ^ literal.fraction.length) *
    10 ^ literal.exponent.elim 0 Exponent.power

def reportedPower : Int := literal.exponent.elim 1 Exponent.power

theorem pointValue_mantissa : pointValue literal.parts.mantissa =
    positional 10 literal.whole + positional 10 literal.fraction / 10 ^ literal.fraction.length := by
  have noPoint : ∀ c ∈ literal.whole, (c != '.') = true := fun c inside => by
    simpa using ne_of_digit (literal.areWhole c inside) (d := '.') (by decide)
  have point : Stops (· != '.') ('.' :: literal.fraction) := rfl
  have row := cut noPoint point
  have mantissa : literal.parts.mantissa = literal.whole ++ '.' :: literal.fraction := rfl
  simp only [pointValue, mantissa, row.1, row.2, List.tail_cons]

theorem readExponent :
    (literal.parts.exponent.map fun e => intOfText (String.ofList e)).getD (.ok 1) =
      if literal.exponentDigits.length > digitLimit then .error .tooManyDigits else .ok
        literal.reportedPower := by
  unfold parts exponentDigits reportedPower
  cases literal.exponent with
  | none => rfl
  | some e =>
    have power : e.power = if e.sign == ['-'] then -(natOfDigits e.digits : Int) else natOfDigits
        e.digits := by
      rw [Exponent.power, natOfDigits_eq e.areDigits]
    change intOfText (String.ofList (e.sign ++ e.digits)) =
      if e.digits.length > digitLimit then .error .tooManyDigits else .ok e.power
    rw [intOfText_signed e.isSign e.filled e.areDigits, power]

theorem pointValue_mul_reportedPower : pointValue literal.parts.mantissa * 10 ^ literal.reportedPower =
    if literal.exponent.isSome then literal.number else 10 * literal.number := by
  rw [pointValue_mantissa, number, reportedPower]
  cases literal.exponent with
  | none => simp [mul_comm]
  | some e => rfl

/-- Ten times a number is the number only if it is zero. -/
theorem agrees_iff : pointValue literal.parts.mantissa * 10 ^ literal.reportedPower = literal.number ↔
    literal.exponent.isSome = true ∨ literal.number = 0 := by
  rw [pointValue_mul_reportedPower]
  split
  case isTrue given => simp [given]
  case isFalse missing =>
    rw [or_iff_right missing]
    constructor
    · intro same
      linarith
    · intro zero
      rw [zero, mul_zero]

end WrittenReal

/-- Reading a real literal gives a mantissa and an exponent, unless the exponent is too long. Their
product is the number that the literal denotes exactly if the literal has an exponent or is zero;
else it is ten times the number. -/
theorem real_parts_agree_iff (literal : WrittenReal) :
    if literal.exponentDigits.length > digitLimit then Real.read literal.text false =
      .error .tooManyDigits
    else ∃ x, Real.read literal.text false = .ok (some x) ∧ x.size = literal.size.getD 32 ∧
      pointValue x.mantissa.toList * 10 ^ x.exponent =
        (if literal.exponent.isSome then literal.number else 10 * literal.number) ∧
      (pointValue x.mantissa.toList * 10 ^ x.exponent = literal.number ↔
        literal.exponent.isSome = true ∨ literal.number = 0) := by
  have read : Real.read literal.text false = (Real.ofParts literal.parts false).map some := by
    rw [Real.read, literal.scan_text]
  split
  case isTrue long =>
    rw [read, Real.ofParts, literal.readExponent, if_pos long]
    rfl
  case isFalse short =>
    refine ⟨_, by rw [read, Real.ofParts, literal.readExponent, if_neg short]; rfl, rfl, ?_, ?_⟩
    · simpa using literal.pointValue_mul_reportedPower
    · simpa using literal.agrees_iff

/-- The literal `1.5` is taken apart into the mantissa `1.5` and the exponent one, which make
fifteen. -/
theorem one_and_a_half_makes_fifteen :
    (∃ literal : WrittenReal, literal.text = "1.5" ∧ literal.number = 3 / 2) ∧
      ∃ x, Real.read "1.5" false = .ok (some x) ∧ x.mantissa = "1.5" ∧ x.exponent = 1 ∧
        pointValue x.mantissa.toList * 10 ^ x.exponent = 15 := by
  have digits : positional 10 ['1'] = 1 ∧ positional 10 ['5'] = 5 := by decide
  refine ⟨⟨⟨['1'], ['5'], none, none, by decide, List.all_eq_true.mp rfl, List.all_eq_true.mp rfl,
    by decide⟩, by decide +kernel, ?_⟩, _, rfl, rfl, rfl, ?_⟩
  · norm_num [WrittenReal.number, digits]
  · have mantissa : pointValue ['1', '.', '5'] = 3 / 2 := by
      change ((positional 10 ['1'] : ℚ) + positional 10 ['5'] / 10 ^ 1 : ℚ) = 3 / 2
      norm_num [digits]
    change pointValue ['1', '.', '5'] * 10 ^ (1 : Int) = 15
    norm_num [mantissa]

end SwanModel.Numeral
