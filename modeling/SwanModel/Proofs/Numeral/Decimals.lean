import SwanModel.Proofs.Numeral.Integers

/-!
# Decimal integers at the front of a text

A decimal literal is read as its value in front of every text that does not make a longer integer of
it (`Unextended`).
-/

namespace SwanModel.Numeral

open Text Printing

/-! ### The longest integer -/

/-- The mark of a base and digits of the base, or decimal digits of any script. -/
inductive IsNumeral : List Char → Prop where
  | based (base : Base) {digits : List Char} (filled : digits ≠ [])
    (inBase : ∀ c ∈ digits, base.isDigit c = true) : IsNumeral (base.mark ++ digits)
  | decimal {digits : List Char} (filled : digits ≠ [])
    (areDigits : ∀ c ∈ digits, isDigit c = true) : IsNumeral digits

inductive IsIntegerText : List Char → Prop where
  | plain {cs : List Char} (numeral : IsNumeral cs) : IsIntegerText cs
  | typed {cs : List Char} (numeral : IsNumeral cs) {type : IntegerSuffix}
    (sized : type.size ∈ [8, 16, 32, 64]) : IsIntegerText (cs ++ type.text)

/-- No more of the text behind makes a longer integer. -/
def Unextended (front rest : List Char) : Prop :=
  ∀ more behind, more ≠ [] → rest = more ++ behind → ¬IsIntegerText (front ++ more)

namespace Integer

variable {cs rest numeral : List Char}

theorem sizes_text : ∀ entry ∈ sizes, entry.2 ∈ [8, 16, 32, 64] ∧ Nat.toDigits 10 entry.2 = entry.1 := by
  decide +kernel

theorem scanSuffix_eq_some {type : IntegerSuffix} (found : scanSuffix cs = some type) :
    type.size ∈ [8, 16, 32, 64] ∧ ∃ rest, cs = type.text ++ rest := by
  obtain ⟨signed, -, found⟩ := List.exists_of_findSome?_eq_some found
  obtain ⟨behind, opened, found⟩ := Option.bind_eq_some_iff.mp found
  obtain ⟨entry, inside, found⟩ := List.exists_of_findSome?_eq_some found
  obtain ⟨rest, sized, rfl⟩ := Option.map_eq_some_iff.mp found
  obtain ⟨isSize, digits⟩ := sizes_text entry inside
  refine ⟨isSize, rest, ?_⟩
  rw [dropWord_eq_some_iff.mp opened, dropWord_eq_some_iff.mp sized, IntegerSuffix.text, digits,
    List.append_assoc]
  rfl

theorem scanSuffix_append {type : IntegerSuffix} (sized : type.size ∈ [8, 16, 32, 64])
    (rest : List Char) : scanSuffix (type.text ++ rest) = some type := by
  obtain ⟨signed, size⟩ := type
  simp only [List.mem_cons, List.not_mem_nil, or_false] at sized
  rcases sized with rfl | rfl | rfl | rfl <;> cases signed <;> rfl

theorem scanBased_of_unextended {digits : List Char} (filled : digits ≠ [])
    (areDigits : ∀ c ∈ digits, c.isDigit = true) (unextended : Unextended digits rest)
    (base : Base) : scanBased (digits ++ rest) base = none := by
  rw [Option.eq_none_iff_forall_ne_some]
  rintro ⟨numeral, behind⟩ found
  obtain ⟨whole, inBase, someInBase, areInBase, rfl⟩ := scanBased_eq_some found
  obtain ⟨letter, mark, isLetter, -⟩ := base.mark_eq
  obtain ⟨c, digits, rfl⟩ := List.exists_cons_of_ne_nil filled
  have split : c = '0' ∧ digits ++ rest = letter :: (inBase ++ behind) := by simpa [mark] using whole
  cases digits with
  | nil =>
    refine unextended (letter :: inBase) behind (by simp) split.2 (.plain ?_)
    have numeral := IsNumeral.based base someInBase areInBase
    rwa [mark, ← split.1] at numeral
  | cons d digits =>
    -- The letter of the mark would be one of the digits.
    have same : d = letter := (List.cons.inj split.2).1
    have isDigit := isDigit_of_ascii (areDigits d (by simp))
    rw [same] at isDigit
    rw [isAlpha_of_isDigit isDigit] at isLetter
    cases isLetter

theorem scanDecimal_eq_none_iff : scanDecimal cs = none ↔ Stops isDigit cs := by
  cases cs with
  | nil => simp [scanDecimal, Stops]
  | cons c cs => cases digit : isDigit c <;> simp [scanDecimal, Stops, digit]

/-- There is a numeral at the front exactly if there is a digit: a mark begins with a zero. -/
theorem scanNumeral_eq_none_iff : scanNumeral cs = none ↔ Stops isDigit cs := by
  rw [scanNumeral, Option.or_eq_none_iff, scanDecimal_eq_none_iff]
  refine and_iff_right_of_imp fun stops => List.findSome?_eq_none_iff.mpr fun base _ => ?_
  rw [Option.eq_none_iff_forall_ne_some]
  rintro ⟨numeral, rest⟩ found
  obtain ⟨rfl, digits, -, -, rfl⟩ := scanBased_eq_some found
  obtain ⟨letter, mark, -, -⟩ := base.mark_eq
  rw [mark] at stops
  have zero : isDigit '0' = false := stops
  exact absurd zero (by decide)

theorem read_eq_none_iff {s : String} {minus : Bool} : read s minus = .ok none ↔
    Stops isDigit s.toList := by
  rw [← scanNumeral_eq_none_iff, read, scan]
  cases scanNumeral s.toList with
  | none => simp
  | some found =>
    simp only [Option.map_some, reduceCtorEq, iff_false]
    rcases ofParts ⟨found.1, scanSuffix found.2⟩ minus with e | n <;> simp [Except.map]

end Integer

/-! ### Decimal literals -/

theorem Unextended.stops {digits rest : List Char} (unextended : Unextended digits rest)
    (areDigits : ∀ c ∈ digits, isDigit c = true) : Stops isDigit rest := by
  cases rest with
  | nil => trivial
  | cons c rest =>
    change isDigit c = false
    rw [Bool.eq_false_iff]
    intro digit
    refine unextended [c] rest (by simp) rfl (.plain (.decimal (by simp) ?_))
    exact List.forall_mem_append.mpr ⟨areDigits, List.forall_mem_singleton.mpr digit⟩

theorem Unextended.scanSuffix_eq_none {cs rest : List Char} (unextended : Unextended cs rest)
    (numeral : IsNumeral cs) : Integer.scanSuffix rest = none := by
  rw [Option.eq_none_iff_forall_ne_some]
  intro type found
  obtain ⟨sized, behind, rfl⟩ := Integer.scanSuffix_eq_some found
  obtain ⟨word, starts⟩ := type.text_eq
  exact unextended type.text behind (by simp [starts]) rfl (.typed numeral sized)

namespace WrittenInteger

variable {literal : WrittenInteger} {rest : String}

/-- The parts of a decimal literal are found in front of a text that does not extend it. -/
theorem scan_append (decimal : literal.base = none)
    (unextended : Unextended literal.text.toList rest.toList) :
    Integer.scan (literal.text ++ rest) = some ⟨literal.numeral, literal.suffix⟩ := by
  have areDigits : ∀ c ∈ literal.digits, c.isDigit = true := by simpa [decimal] using literal.inBase
  have anyScript : ∀ c ∈ literal.digits, isDigit c = true :=
    fun c inside => isDigit_of_ascii (areDigits c inside)
  have same : literal.numeral = literal.digits := by
    rw [numeral, decimal, Option.elim_none, List.nil_append]
  rw [Integer.scan, String.toList_append]
  rw [text, String.toList_ofList, same, suffixText] at unextended ⊢
  rw [List.append_assoc]
  cases given : literal.suffix with
  | none =>
    rw [given, Option.elim_none, List.append_nil] at unextended
    have found := Integer.scanNumeral_of_not_based literal.filled areDigits (unextended.stops anyScript)
      (Integer.scanBased_of_unextended literal.filled areDigits unextended)
    simp only [Option.elim_none, List.nil_append, found, Option.map_some,
      unextended.scanSuffix_eq_none (.decimal literal.filled anyScript)]
  | some type =>
    obtain ⟨word, starts⟩ := type.text_eq
    have stops {p : Char → Bool} (outside : p '_' = false) : Stops p (type.text ++ rest.toList) := by
      rw [starts]
      exact outside
    have found := Integer.scanNumeral_decimal literal.filled areDigits
      (stops (p := isDigit) (by decide)) (stops rfl)
    simp only [Option.elim_some, found, Option.map_some,
      Integer.scanSuffix_append (literal.sized type given)]

end WrittenInteger

/-- A decimal literal that is not too long is read as its value in front of every text that does not
extend it, unless a minus sign stands before an unsigned literal. Nothing is read exactly if the
text does not start with a digit. -/
theorem decimal_integers_are_read :
    (∀ (literal : WrittenInteger) (rest : String) (minus : Bool), literal.base = none →
      literal.digits.length ≤ digitLimit → Unextended literal.text.toList rest.toList →
      Integer.read (literal.text ++ rest) minus =
        if minus = true ∧ ∃ type ∈ literal.suffix, type.signed = false then .error .violated
        else .ok (some {
          value := if minus then -positional 10 literal.digits else positional 10 literal.digits
          isBin := false
          isOct := false
          isHex := false
          isDec := true
          isSigned := literal.suffix.all (·.signed)
          size := (literal.suffix.map (·.size)).getD 32 })) ∧
      ∀ (s : String) (minus : Bool), Integer.read s minus = .ok none ↔ Stops isDigit s.toList := by
  refine ⟨fun literal rest minus decimal short unextended => ?_, fun s minus => Integer.read_eq_none_iff⟩
  have read : Integer.read (literal.text ++ rest) minus = (literal.outcome minus).map some := by
    rw [← literal.ofParts_parts, Integer.read, WrittenInteger.scan_append decimal unextended]
  have value : literal.value = positional 10 literal.digits := by
    rw [WrittenInteger.value, decimal, Option.elim_none]
  have size : literal.size = (literal.suffix.map (·.size)).getD 32 := by
    rw [WrittenInteger.size]
    cases literal.suffix <;> rfl
  have refused : (minus && !literal.isSigned) = true ↔
      minus = true ∧ ∃ type ∈ literal.suffix, type.signed = false := by
    rw [WrittenInteger.isSigned]
    cases literal.suffix <;> simp
  rw [read, WrittenInteger.outcome, decimal, Option.isSome_none, if_neg (Nat.not_lt.mpr short),
    value, size]
  simp only [refused, Bool.false_eq_true, if_false]
  split <;> rfl

/-- In `00b1` the first two characters are read: two zeros do not begin a mark. -/
theorem zeros_before_letter_are_read : Unextended ['0', '0'] ['b', '1'] ∧
    Integer.read "00b1" true = .ok (some ⟨0, false, false, false, true, true, 32⟩) := by
  have unextended : Unextended ['0', '0'] ['b', '1'] := by
    intro more behind filled same isText
    obtain ⟨c, more, rfl⟩ := List.exists_cons_of_ne_nil filled
    obtain ⟨rfl, tail⟩ := List.cons.inj same
    generalize whole : ['0', '0'] ++ 'b' :: more = text at isText
    cases isText with
    | plain numeral =>
      cases numeral with
      | based base _ _ => cases base <;> cases whole
      | decimal _ areDigits => exact absurd (areDigits 'b' (by simp [← whole])) (by decide)
    | @typed cs _ type _ =>
      obtain ⟨word, starts⟩ := type.text_eq
      have inside : '_' ∈ ['0', '0'] ++ 'b' :: more := by simp [whole, starts]
      have behind : '_' ∈ ['1'] := tail ▸ List.mem_append_left _ (by simpa using inside)
      exact absurd behind (by decide)
  refine ⟨unextended, ?_⟩
  let zeros : WrittenInteger := ⟨none, ['0', '0'], none, by decide, List.all_eq_true.mp rfl, by decide⟩
  have front : zeros.text.toList = ['0', '0'] := String.toList_ofList
  have behind : "b1".toList = ['b', '1'] := by decide
  have read := decimal_integers_are_read.1 zeros "b1" true rfl (by decide) (by rwa [front, behind])
  have whole : zeros.text ++ "b1" = "00b1" := by decide +kernel
  rw [whole] at read
  exact read

end SwanModel.Numeral
