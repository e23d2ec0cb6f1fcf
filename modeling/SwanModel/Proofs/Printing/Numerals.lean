import SwanModel.Numeral.Literal
import SwanModel.Text.Word

/-!
# The spelling of numeric literals

`isLiteral` says that a text is a literal as a whole.
-/

namespace SwanModel.Numeral

open Text

variable {c : Char} {cs rest : List Char} {base : Base} {found : List Char × List Char}

def Integer.suffixes : List (List Char) :=
  [false, true].flatMap fun signed => Integer.sizes.map fun size =>
    (IntegerSuffix.mk signed 0).word.toList ++ size.1

def Integer.isWhole (cs : List Char) : Bool :=
  (Integer.scanNumeral cs).any fun found => found.2.isEmpty || Integer.suffixes.contains found.2

def Real.suffixes : List (List Char) := ["_f32".toList, "_f64".toList]

def Real.isWhole (cs : List Char) : Bool :=
  (Real.scanMantissa cs).any fun found =>
    let rest := ((Real.scanExponent found.2.2).map (·.2)).getD found.2.2
    rest.isEmpty || Real.suffixes.contains rest

def isLiteral (s : String) : Bool := Integer.isWhole s.toList || Real.isWhole s.toList

def isNumeralChar (c : Char) : Bool := isDigit c || isAsciiWord c || c == '.' || c == '+' || c == '-'

theorem isDigit_range (digit : isDigit c = true) : (48 ≤ c.toNat ∧ c.toNat ≤ 57) ∨ 1632 ≤ c.toNat := by
  obtain ⟨value, found⟩ := isDigit_eq_true_iff.mp digit
  obtain ⟨start, isStart, -⟩ := Option.map_eq_some_iff.mp found
  have inside := List.find?_some isStart
  simp only [Bool.and_eq_true, decide_eq_true_eq] at inside
  have far : ∀ z ∈ digitZeros, z = 48 ∨ 1632 ≤ z := by decide
  rcases far start (List.mem_of_find?_eq_some isStart) with rfl | late
  · omega
  · omega

theorem isAlpha_eq (c : Char) :
    c.isAlpha = (decide (65 ≤ c.toNat ∧ c.toNat ≤ 90) || decide (97 ≤ c.toNat) &&
      decide (c.toNat ≤ 122)) :=
  rfl

theorem isAsciiWord_of_isAlpha (letter : c.isAlpha = true) : isAsciiWord c = true := by
  simp [isAsciiWord, Char.isAlphanum, letter]

theorem isAsciiWord_range (word : isAsciiWord c = true) : 48 ≤ c.toNat ∧ c.toNat ≤ 122 := by
  have letters : c.isAlphanum = (c.isAlpha || decide (48 ≤ c.toNat) && decide (c.toNat ≤ 57)) := rfl
  simp only [isAsciiWord, letters, isAlpha_eq, Bool.or_eq_true, Bool.and_eq_true, decide_eq_true_eq,
    beq_iff_eq] at word
  rcases word with word | rfl
  · omega
  · decide

theorem isAlpha_of_isDigit (digit : isDigit c = true) : c.isAlpha = false := by
  have range := isDigit_range digit
  rw [isAlpha_eq, Bool.eq_false_iff]
  intro letter
  simp only [Bool.or_eq_true, Bool.and_eq_true, decide_eq_true_eq] at letter
  omega

theorem isNumeralChar_of_isDigit (digit : isDigit c = true) : isNumeralChar c = true := by
  simp [isNumeralChar, digit]

theorem isAsciiWord_of_base (digit : base.isDigit c = true) : isAsciiWord c = true := by
  have word : c.isAlphanum = true := by
    have digits : c.isAlphanum = (c.isAlpha || decide (48 ≤ c.toNat) && decide (c.toNat ≤ 57)) := rfl
    simp only [digits, isAlpha_eq, Bool.or_eq_true, Bool.and_eq_true, decide_eq_true_eq]
    cases base with
    | binary =>
      simp only [Base.isDigit, Bool.or_eq_true, beq_iff_eq] at digit
      rcases digit with rfl | rfl <;> decide
    | octal =>
      simp only [Base.isDigit, Bool.and_eq_true, decide_eq_true_eq] at digit
      have inside : 48 ≤ c.toNat ∧ c.toNat ≤ 55 := digit
      omega
    | hexadecimal =>
      have decimal : c.isDigit = (decide (48 ≤ c.toNat) && decide (c.toNat ≤ 57)) := rfl
      simp only [Base.isDigit, decimal, Bool.or_eq_true, Bool.and_eq_true, decide_eq_true_eq] at digit
      have inside : ((48 ≤ c.toNat ∧ c.toNat ≤ 57) ∨ (97 ≤ c.toNat ∧ c.toNat ≤ 102)) ∨
          (65 ≤ c.toNat ∧ c.toNat ≤ 70) :=
        digit
      omega
  rw [isAsciiWord, word, Bool.true_or]

theorem isNumeralChar_of_base (digit : base.isDigit c = true) : isNumeralChar c = true := by
  simp [isNumeralChar, isAsciiWord_of_base digit]

theorem isNumeralChar_of_takeWhile {p : Char → Bool} (inside : ∀ c, p c = true → isNumeralChar c = true)
    (member : c ∈ cs.takeWhile p) : isNumeralChar c = true :=
  inside c (List.all_eq_true.mp (List.all_takeWhile (p := p) (l := cs)) c member)

/-- What may stand at the end of a literal: nothing, or one of the suffixes. -/
theorem isNumeralChar_of_suffix {suffixes : List (List Char)}
    (all : suffixes.all (·.all isNumeralChar) = true)
    (ended : (rest.isEmpty || suffixes.contains rest) = true) (member : c ∈ rest) :
    isNumeralChar c = true := by
  rcases Bool.or_eq_true_iff.mp ended with nothing | suffix
  · simp [List.isEmpty_iff.mp nothing] at member
  · exact List.all_eq_true.mp (List.all_eq_true.mp all rest (List.contains_iff_mem.mp suffix)) c member

/-- A text that starts like a number and has the characters of numeric literals. -/
def Spelled (cs : List Char) : Prop :=
  ∃ c rest, cs = c :: rest ∧ c.isAlpha = false ∧ ∀ d ∈ c :: rest, isNumeralChar d = true

theorem Spelled.append (spelled : Spelled cs) (inside : ∀ d ∈ rest, isNumeralChar d = true) :
    Spelled (cs ++ rest) := by
  obtain ⟨c, more, rfl, head, all⟩ := spelled
  refine ⟨c, more ++ rest, rfl, head, fun d member => ?_⟩
  rw [← List.cons_append, List.mem_append] at member
  rcases member with first | later
  · exact all d first
  · exact inside d later

theorem Integer.scanBased_eq_some {numeral : List Char}
    (found : Integer.scanBased cs base = some (numeral, rest)) : cs = numeral ++ rest ∧
      ∃ digits, digits ≠ [] ∧ (∀ c ∈ digits, base.isDigit c = true) ∧ numeral = base.mark ++ digits := by
  unfold Integer.scanBased at found
  split at found
  case h_1 => cases found
  case h_2 behind marked =>
    obtain rfl := dropWord_eq_some_iff.mp marked
    split at found
    case h_1 => cases found
    case h_2 filled =>
      obtain ⟨rfl, rfl⟩ := Prod.mk.inj (Option.some.inj found)
      refine ⟨?_, _, filled, List.all_eq_true.mp List.all_takeWhile, rfl⟩
      rw [List.append_assoc, List.takeWhile_append_dropWhile]

theorem Integer.scanBased_spelled
    (scanned : Integer.scanBased cs base = some found) : cs = found.1 ++ found.2 ∧ Spelled found.1 := by
  obtain ⟨whole, digits, -, inBase, numeral⟩ := Integer.scanBased_eq_some scanned
  have mark : Spelled base.mark := by
    cases base <;> exact ⟨_, _, rfl, by decide, List.all_eq_true.mp rfl⟩
  refine ⟨whole, ?_⟩
  rw [numeral]
  exact mark.append fun d member => isNumeralChar_of_base (inBase d member)

theorem Integer.scanDecimal_spelled
    (scanned : Integer.scanDecimal cs = some found) : cs = found.1 ++ found.2 ∧ Spelled found.1 := by
  unfold Integer.scanDecimal at scanned
  split at scanned
  · cases scanned
  · rename_i digits some_digit
    obtain rfl := Option.some.inj scanned
    refine ⟨by simp [List.takeWhile_append_dropWhile], ?_⟩
    cases row : cs.takeWhile isDigit with
    | nil => exact absurd row some_digit
    | cons c rest =>
      have digit : ∀ d ∈ c :: rest, isDigit d = true := by
        rw [← row]
        exact List.all_eq_true.mp List.all_takeWhile
      exact ⟨c, rest, rfl, isAlpha_of_isDigit (digit c (by simp)),
        fun d member => isNumeralChar_of_isDigit (digit d member)⟩

theorem Integer.isWhole_spelled (whole : Integer.isWhole cs = true) : Spelled cs := by
  obtain ⟨found, scanned, ended⟩ := Option.any_eq_true _ _ |>.mp whole
  have parts : cs = found.1 ++ found.2 ∧ Spelled found.1 := by
    rcases Option.or_eq_some_iff.mp scanned with based | ⟨-, decimal⟩
    · obtain ⟨base, -, isBased⟩ := List.exists_of_findSome?_eq_some based
      exact Integer.scanBased_spelled isBased
    · exact Integer.scanDecimal_spelled decimal
  obtain ⟨rfl, digits⟩ := parts
  exact digits.append fun d => isNumeralChar_of_suffix (by rfl) ended

theorem Real.scanMantissa_spelled {found : List Char × List Char × List Char}
    (scanned : Real.scanMantissa cs = some found) :
    ∃ front, cs = front ++ found.2.2 ∧ Spelled front := by
  unfold Real.scanMantissa at scanned
  simp only at scanned
  split at scanned
  case h_2 => cases scanned
  case h_1 rest pointed =>
    split at scanned
    · cases scanned
    · obtain rfl := Option.some.inj scanned
      refine ⟨cs.takeWhile isDigit ++ '.' :: rest.takeWhile isDigit, ?_, ?_⟩
      · rw [List.append_assoc, List.cons_append, List.takeWhile_append_dropWhile, ← pointed,
          List.takeWhile_append_dropWhile]
      · have whole : ∀ d ∈ cs.takeWhile isDigit, isDigit d = true :=
          List.all_eq_true.mp List.all_takeWhile
        have after : ∀ d ∈ '.' :: rest.takeWhile isDigit, isNumeralChar d = true := by
          intro d member
          rcases List.mem_cons.mp member with rfl | digit
          · decide
          · exact isNumeralChar_of_takeWhile (fun _ => isNumeralChar_of_isDigit) digit
        cases row : cs.takeWhile isDigit with
        | nil => exact ⟨'.', _, rfl, by decide, after⟩
        | cons c more =>
          rw [row] at whole
          have digits : Spelled (c :: more) :=
            ⟨c, more, rfl, isAlpha_of_isDigit (whole c (by simp)),
              fun d member => isNumeralChar_of_isDigit (whole d member)⟩
          exact digits.append after

theorem Real.scanSign_spelled (cs : List Char) :
    cs = (Real.scanSign cs).1 ++ (Real.scanSign cs).2 ∧ ∀ d ∈ (Real.scanSign cs).1,
      isNumeralChar d = true := by
  have signs : ∀ d ∈ ['+', '-'], isNumeralChar d = true := List.all_eq_true.mp (by rfl)
  unfold Real.scanSign
  split
  · exact ⟨rfl, fun d member => signs d (by simp [List.mem_singleton.mp member])⟩
  · exact ⟨rfl, fun d member => signs d (by simp [List.mem_singleton.mp member])⟩
  · exact ⟨rfl, by simp⟩

theorem Real.scanExponent_spelled
    (scanned : Real.scanExponent cs = some found) :
    ∃ front, cs = front ++ found.2 ∧ ∀ d ∈ front, isNumeralChar d = true := by
  cases cs with
  | nil => cases scanned
  | cons c rest =>
    obtain ⟨signed, sign⟩ := Real.scanSign_spelled rest
    simp only [Real.scanExponent] at scanned
    split at scanned
    case isFalse => cases scanned
    case isTrue marked =>
      obtain rfl := Option.some.inj scanned
      refine ⟨c :: ((Real.scanSign rest).1 ++ (Real.scanSign rest).2.takeWhile isDigit), ?_, ?_⟩
      · rw [List.cons_append, List.append_assoc, List.takeWhile_append_dropWhile, ← signed]
      · intro d member
        rcases List.mem_cons.mp member with rfl | member
        · simp only [Bool.and_eq_true, Bool.or_eq_true, beq_iff_eq] at marked
          rcases marked.1 with rfl | rfl <;> decide
        · rcases List.mem_append.mp member with inSign | digit
          · exact sign d inSign
          · exact isNumeralChar_of_takeWhile (fun _ => isNumeralChar_of_isDigit) digit

theorem Real.isWhole_spelled (whole : Real.isWhole cs = true) : Spelled cs := by
  obtain ⟨found, scanned, ended⟩ := Option.any_eq_true _ _ |>.mp whole
  obtain ⟨front, rfl, digits⟩ := Real.scanMantissa_spelled scanned
  have ending : ∀ rest : List Char, (rest.isEmpty || Real.suffixes.contains rest) = true →
      ∀ d ∈ rest, isNumeralChar d = true := fun rest ended d => isNumeralChar_of_suffix (by rfl) ended
  refine digits.append fun d member => ?_
  cases exponent : Real.scanExponent found.2.2 with
  | none =>
    simp only [exponent, Option.map_none, Option.getD_none] at ended
    exact ending _ ended d member
  | some power =>
    simp only [exponent, Option.map_some, Option.getD_some] at ended
    obtain ⟨written, parts, inside⟩ := Real.scanExponent_spelled exponent
    rw [parts, List.mem_append] at member
    rcases member with inPower | later
    · exact inside d inPower
    · exact ending _ ended d later

theorem isLiteral_spelled {s : String} (literal : isLiteral s = true) : Spelled s.toList := by
  rcases Bool.or_eq_true_iff.mp literal with integer | real
  · exact Integer.isWhole_spelled integer
  · exact Real.isWhole_spelled real

end SwanModel.Numeral
