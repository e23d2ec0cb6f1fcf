import SwanModel.Proofs.Language.Transitions
import SwanModel.Proofs.Printing.Words

/-!
# Integer literals as they are written

A literal without the mark of a base is read as its value; with a mark it is refused, since it is
read as if it were a row of decimal digits.
-/

namespace SwanModel.Numeral

open Text Printing

/-! ### The grammar -/

def Base.radix : Base → Nat
  | .binary => 2
  | .octal => 8
  | .hexadecimal => 16

def IntegerSuffix.text (suffix : IntegerSuffix) : List Char :=
  suffix.word.toList ++ Nat.toDigits 10 suffix.size

theorem IntegerSuffix.text_eq (suffix : IntegerSuffix) : ∃ behind, suffix.text = '_' :: behind := by
  cases signed : suffix.signed <;> simp [IntegerSuffix.text, IntegerSuffix.word, signed]

structure WrittenInteger where
  base : Option Base
  digits : List Char
  suffix : Option IntegerSuffix
  filled : digits ≠ []
  inBase : ∀ c ∈ digits, base.elim Char.isDigit Base.isDigit c = true
  sized : ∀ type ∈ suffix, type.size ∈ [8, 16, 32, 64]

namespace WrittenInteger

variable (literal : WrittenInteger)

def numeral : List Char := literal.base.elim [] Base.mark ++ literal.digits

def suffixText : List Char := literal.suffix.elim [] IntegerSuffix.text

def text : String := String.ofList (literal.numeral ++ literal.suffixText)

def value : Nat := positional (literal.base.elim 10 Base.radix) literal.digits

/-- Integers are signed, unless the suffix says otherwise. -/
def isSigned : Bool := literal.suffix.all (·.signed)

/-- Integers have 32 bits, unless the suffix says otherwise. -/
def size : Nat := literal.suffix.elim 32 (·.size)

end WrittenInteger

/-! ### Scanning -/

theorem Base.mark_eq (base : Base) : ∃ letter : Char, base.mark = ['0', letter] ∧ letter.isAlpha = true ∧
    (Text.isDigit letter || letter == '_') = false := by
  cases base <;> exact ⟨_, rfl, by decide, by decide⟩

theorem Base.holds_mark {digits : List Char} (areDigits : ∀ c ∈ digits, c.isDigit = true) (base : Base) :
    holds base.mark digits = false := by
  rw [Bool.eq_false_iff, Ne, holds_iff_infix]
  intro inside
  obtain ⟨letter, mark, isLetter, -⟩ := base.mark_eq
  have isDigit := areDigits letter (inside.subset (by simp [mark]))
  rw [isAlpha_of_isDigit (isDigit_of_ascii isDigit)] at isLetter
  cases isLetter

namespace Integer

variable {base : Base} {digits rest : List Char}

theorem scanNumeral_based (filled : digits ≠ []) (inBase : ∀ c ∈ digits, base.isDigit c = true)
    (stops : Stops base.isDigit rest) :
    scanNumeral (base.mark ++ (digits ++ rest)) = some (base.mark ++ digits, rest) := by
  have own : scanBased (base.mark ++ (digits ++ rest)) base = some (base.mark ++ digits, rest) := by
    have dropped : dropWord base.mark (base.mark ++ (digits ++ rest)) = some (digits ++ rest) :=
      dropWord_eq_some_iff.mpr rfl
    obtain ⟨c, digits, rfl⟩ := List.exists_cons_of_ne_nil filled
    simp only [scanBased, dropped, (cut inBase stops).1, (cut inBase stops).2]
  -- The marks of the other bases differ in their letter.
  cases base with
  | binary =>
    rw [scanNumeral, Base.all, List.findSome?_cons, own]
    rfl
  | octal =>
    have other : scanBased (Base.octal.mark ++ (digits ++ rest)) .binary = none := rfl
    rw [scanNumeral, Base.all, List.findSome?_cons, other, List.findSome?_cons, own]
    rfl
  | hexadecimal =>
    have other : scanBased (Base.hexadecimal.mark ++ (digits ++ rest)) .binary = none := rfl
    have another : scanBased (Base.hexadecimal.mark ++ (digits ++ rest)) .octal = none := rfl
    rw [scanNumeral, Base.all, List.findSome?_cons, other, List.findSome?_cons, another,
      List.findSome?_cons, own]
    rfl

theorem scanBased_of_digits (filled : digits ≠ []) (areDigits : ∀ c ∈ digits, c.isDigit = true)
    (stops : Stops Char.isAlpha rest) (base : Base) : scanBased (digits ++ rest) base = none := by
  have notMarked : dropWord base.mark (digits ++ rest) = none := by
    rw [Option.eq_none_iff_forall_ne_some]
    intro behind marked
    rw [dropWord_eq_some_iff] at marked
    obtain ⟨letter, mark, isLetter, -⟩ := base.mark_eq
    rw [mark] at marked
    obtain ⟨c, digits, rfl⟩ := List.exists_cons_of_ne_nil filled
    have next : Stops Char.isAlpha (digits ++ rest) := by
      cases digits with
      | nil => exact stops
      | cons d digits => exact isAlpha_of_isDigit (isDigit_of_ascii (areDigits d (by simp)))
    have same : digits ++ rest = letter :: behind := (List.cons.inj marked).2
    rw [same] at next
    have outside : letter.isAlpha = false := next
    rw [isLetter] at outside
    cases outside
  rw [scanBased, notMarked]

theorem scanNumeral_of_not_based (filled : digits ≠ []) (areDigits : ∀ c ∈ digits, c.isDigit = true)
    (stops : Stops isDigit rest) (notBased : ∀ base, scanBased (digits ++ rest) base = none) :
    scanNumeral (digits ++ rest) = some (digits, rest) := by
  have noBase : Base.all.findSome? (scanBased (digits ++ rest)) = none :=
    List.findSome?_eq_none_iff.mpr fun base _ => notBased base
  have row := cut (fun c inside => isDigit_of_ascii (areDigits c inside)) stops
  obtain ⟨c, digits, rfl⟩ := List.exists_cons_of_ne_nil filled
  simp only [scanNumeral, noBase, Option.none_or, scanDecimal, row.1, row.2]

theorem scanNumeral_decimal (filled : digits ≠ []) (areDigits : ∀ c ∈ digits, c.isDigit = true)
    (stops : Stops isDigit rest) (noLetter : Stops Char.isAlpha rest) :
    scanNumeral (digits ++ rest) = some (digits, rest) :=
  scanNumeral_of_not_based filled areDigits stops (scanBased_of_digits filled areDigits noLetter)

end Integer

namespace WrittenInteger

variable (literal : WrittenInteger)

theorem suffixText_stops {p : Char → Bool} (outside : p '_' = false) : Stops p literal.suffixText := by
  unfold suffixText
  cases literal.suffix with
  | none => trivial
  | some type =>
    obtain ⟨behind, starts⟩ := type.text_eq
    rw [Option.elim_some, starts]
    exact outside

theorem scanSuffix_suffixText : Integer.scanSuffix literal.suffixText = literal.suffix := by
  unfold suffixText
  cases same : literal.suffix with
  | none => rfl
  | some type =>
    obtain ⟨signed, size⟩ := type
    have sized := literal.sized _ (by rw [same]; rfl)
    simp only [List.mem_cons, List.not_mem_nil, or_false] at sized
    rcases sized with rfl | rfl | rfl | rfl <;> cases signed <;> decide +kernel

theorem scan_text : Integer.scan literal.text = some ⟨literal.numeral, literal.suffix⟩ := by
  have inBase := literal.inBase
  have found : Integer.scanNumeral (literal.numeral ++ literal.suffixText) =
      some (literal.numeral, literal.suffixText) := by
    unfold numeral
    cases same : literal.base with
    | none =>
      rw [same] at inBase
      exact Integer.scanNumeral_decimal literal.filled inBase (literal.suffixText_stops (by decide))
        (literal.suffixText_stops rfl)
    | some base =>
      rw [same] at inBase
      have outside : base.isDigit '_' = false := by cases base <;> decide
      rw [List.append_assoc]
      exact Integer.scanNumeral_based literal.filled inBase (literal.suffixText_stops outside)
  simp only [Integer.scan, text, String.toList_ofList, found, Option.map_some, scanSuffix_suffixText]

/-! ### Reading -/

/-- A mark is no part of a row of decimal digits. -/
theorem intOfText_numeral : intOfText (String.ofList literal.numeral) =
    if literal.base.isSome then .error (.notAnInteger (shown (String.ofList literal.numeral)))
    else if literal.digits.length > digitLimit then .error .tooManyDigits
    else .ok literal.value := by
  have inBase := literal.inBase
  unfold numeral value
  cases same : literal.base with
  | none =>
    rw [same] at inBase
    have read : intOfText (String.ofList ([] ++ literal.digits)) = _ :=
      intOfText_signed (by decide) literal.filled inBase
    simpa [natOfDigits_eq inBase] using read
  | some base =>
    rw [same] at inBase
    obtain ⟨letter, mark, isLetter, ends⟩ := base.mark_eq
    have isVisible {c : Char} (word : isAsciiWord c = true) : IsVisible c := by
      have range := isAsciiWord_range word
      exact ⟨by omega, by omega⟩
    have visible : ∀ c ∈ letter :: literal.digits, IsVisible c :=
      List.forall_mem_cons.mpr ⟨isVisible (isAsciiWord_of_isAlpha isLetter),
        fun c member => isVisible (isAsciiWord_of_base (inBase c member))⟩
    have read : intOfText (String.ofList ([] ++ (['0'] ++ letter :: literal.digits))) = _ :=
      intOfText_row (by decide) (by decide) (List.all_eq_true.mp rfl) visible
        (List.takeWhile_cons_of_neg (by simp [ends]))
    simpa [mark, digitLimit] using read

/-- What reading a literal gives. A minus sign does not go with an unsigned type, a mark is not
understood, and a row of digits may be too long. -/
def outcome (minus : Bool) : Except Error Integer :=
  if minus && !literal.isSigned then .error .violated
  else if literal.base.isSome then .error (.notAnInteger (shown (String.ofList literal.numeral)))
  else if literal.digits.length > digitLimit then .error .tooManyDigits
  else .ok {
    value := if minus then -literal.value else literal.value
    isBin := false
    isOct := false
    isHex := false
    isDec := true
    isSigned := literal.isSigned
    size := literal.size }

theorem ofParts_parts (minus : Bool) :
    Integer.ofParts ⟨literal.numeral, literal.suffix⟩ minus = literal.outcome minus := by
  have signed : literal.suffix.any (!·.signed) = !literal.isSigned := by
    unfold isSigned
    cases literal.suffix <;> rfl
  simp only [Integer.ofParts, signed, intOfText_numeral, outcome]
  split
  · rfl
  split
  · rfl
  split
  · rfl
  · rename_i allowed unmarked _
    have noBase : literal.base = none := by simpa using unmarked
    have areDigits : ∀ c ∈ literal.digits, c.isDigit = true := by simpa [noBase] using literal.inBase
    have flags (base : Base) : holds base.mark literal.numeral = false := by
      rw [numeral, noBase]
      exact base.holds_mark areDigits
    simp only [flags]
    unfold isSigned at allowed ⊢
    unfold size
    cases given : literal.suffix with
    | none => rfl
    | some type =>
      rw [given, Option.all_some] at allowed
      -- A minus sign is allowed in front of a signed literal only.
      have kept : (type.signed || minus) = type.signed := by
        cases minus with
        | false => simp
        | true => simpa using allowed
      simp only [kept]
      rfl

theorem read_text (minus : Bool) :
    Integer.read literal.text minus = (literal.outcome minus).map some := by
  rw [Integer.read, scan_text, ← ofParts_parts]

end WrittenInteger

/-- Reading an integer literal, and an integer pattern with the literal in it: a literal without a
mark is read as its value, if it is not too long, and a literal with a mark is refused. -/
theorem integer_literals_are_read (literal : WrittenInteger) (minus : Bool) :
    Integer.read literal.text minus = (literal.outcome minus).map some ∧
      ∃ t, (Form.pattern .int).build [.text literal.text, .truth minus] = .ok t ∧
        t.shown "as_int" = (literal.outcome minus).map fun n => .number n.value := by
  refine ⟨literal.read_text minus, _, rfl, ?_⟩
  have number : Pattern.number [.text literal.text, .truth minus] =
      (literal.outcome minus).map fun n => .number n.value := by
    change (Integer.read literal.text minus >>= _) = _
    rw [literal.read_text]
    cases literal.outcome minus <;> rfl
  change ((Pattern.number [.text literal.text, .truth minus]).map Found.made >>= fun found =>
    found.term _) = _
  rw [number]
  cases literal.outcome minus <;> rfl

/-- The literal `0b101` denotes five, and reading it fails. -/
theorem marked_five_is_refused :
    (∃ literal : WrittenInteger, literal.text = "0b101" ∧ literal.value = 5) ∧
      (∀ minus, Integer.read "0b101" minus = .error (.notAnInteger "'0b101'")) ∧
      ∀ minus, (Term.node (.pattern .int) [.text "0b101", .truth minus]).shown "as_int" =
        .error (.notAnInteger "'0b101'") := by
  refine ⟨⟨⟨some .binary, ['1', '0', '1'], none, by decide, List.all_eq_true.mp rfl, by decide⟩, ?_, ?_⟩,
    fun minus => ?_, fun minus => ?_⟩
  · decide +kernel
  · decide +kernel
  · cases minus <;> rfl
  · cases minus <;> rfl

end SwanModel.Numeral
