import Mathlib.Algebra.Group.Nat.Defs
import Mathlib.Data.List.TakeWhile
import SwanModel.Numeral.Decimal

/-!
# Rows of digits

A row of ASCII digits that is not too long is read as its value in base ten.
-/

namespace SwanModel

variable {c : Char} {cs sign : List Char}

/-! ### Digits -/

theorem digit_bounds (isDigit : c.isDigit = true) : 48 ≤ c.toNat ∧ c.toNat ≤ 57 := by
  simpa [Char.isDigit, UInt32.le_iff_toNat_le] using isDigit

theorem digit_of_ascii (isDigit : c.isDigit = true) : Text.digit? c = some (c.toNat - 48) := by
  obtain ⟨low, high⟩ := digit_bounds isDigit
  have found : Text.digitZeros.find? (fun z => z ≤ c.toNat && c.toNat < z + 10) = some 48 := by
    rw [Text.digitZeros, List.find?_cons_of_pos]
    simp only [Bool.and_eq_true, decide_eq_true_eq]
    omega
  rw [Text.digit?, found, Option.map_some]

theorem isDigit_of_ascii (isDigit : c.isDigit = true) : Text.isDigit c = true := by
  rw [Text.isDigit, digit_of_ascii isDigit, Option.isSome_some]

theorem ne_of_digit {d : Char} (isDigit : c.isDigit = true)
    (outside : d.toNat < 48 ∨ 57 < d.toNat) : c ≠ d := by
  obtain ⟨low, high⟩ := digit_bounds isDigit
  rintro rfl
  omega

/-- A character of ASCII that is neither white space nor a control character. -/
def IsVisible (c : Char) : Prop := 33 ≤ c.toNat ∧ c.toNat < 128

theorem isVisible_of_digit (isDigit : c.isDigit = true) : IsVisible c := by
  obtain ⟨low, high⟩ := digit_bounds isDigit
  exact ⟨by omega, by omega⟩

theorem IsVisible.not_isMargin (visible : IsVisible c) : Numeral.isMargin c = false := by
  obtain ⟨low, high⟩ := visible
  have notBlank : c ≠ ' ' := by
    rintro rfl
    exact absurd low (by decide)
  rw [Numeral.isMargin, if_pos high, Text.isAsciiBlank]
  simp only [Bool.or_eq_false_iff, beq_eq_false_iff_ne, Bool.and_eq_false_iff, decide_eq_false_iff_not]
  exact ⟨notBlank, .inr (by omega)⟩

/-! ### The value of a row -/

/-- The value of a digit; the letters go on after nine. -/
def digitValue (c : Char) : Nat :=
  if c.isDigit then c.toNat - '0'.toNat else c.toLower.toNat - 'a'.toNat + 10

/-- The value of a row of digits in a base, the first digit counting most. -/
def positional (base : Nat) : List Char → Nat
  | [] => 0
  | c :: cs => digitValue c * base ^ cs.length + positional base cs

theorem natOfDigits_eq (digits : ∀ c ∈ cs, c.isDigit = true) :
    Numeral.natOfDigits cs = positional 10 cs := by
  have onwards : ∀ n, cs.foldl (fun n c => 10 * n + (Text.digit? c).getD 0) n =
      n * 10 ^ cs.length + positional 10 cs := by
    induction cs with
    | nil => simp [positional]
    | cons c cs ih =>
      rw [List.forall_mem_cons] at digits
      intro n
      have value : digitValue c = c.toNat - 48 := if_pos digits.1
      rw [List.foldl_cons, ih digits.2, digit_of_ascii digits.1, Option.getD_some, positional,
        value, List.length_cons]
      grind
  simpa [Numeral.natOfDigits] using onwards 0

/-! ### Reading a row -/

theorem wellSeparated_digits (filled : cs ≠ []) (digits : ∀ c ∈ cs, c.isDigit = true) :
    Numeral.wellSeparated cs = true := by
  have plain : ∀ c ∈ cs, c ≠ '_' := fun c inside => ne_of_digit (digits c inside) (by decide)
  clear digits
  induction cs with
  | nil => contradiction
  | cons c cs ih =>
    cases cs with
    | nil => simpa [Numeral.wellSeparated] using plain c (by simp)
    | cons d cs =>
      have rest := ih (by simp) fun e inside => plain e (by simp [inside])
      simp [Numeral.wellSeparated, rest, plain c (by simp)]

theorem stripOf_of_none {p : Char → Bool} (none : ∀ c ∈ cs, p c = false) : Text.stripOf p cs = cs := by
  have front : ∀ cs : List Char, (∀ c ∈ cs, p c = false) → cs.dropWhile p = cs := by
    intro cs none
    cases cs with
    | nil => rfl
    | cons c cs => simp [List.dropWhile, none c (by simp)]
  rw [Text.stripOf, front cs none, front cs.reverse (by simpa using none), List.reverse_reverse]

def signs : List (List Char) := [[], ['+'], ['-']]

theorem isVisible_of_sign (isSign : sign ∈ signs) : ∀ c ∈ sign, IsVisible c := by
  simp only [signs, List.mem_cons, List.not_mem_nil, or_false] at isSign
  rcases isSign with rfl | rfl | rfl
  · exact List.forall_mem_nil _
  · exact List.forall_mem_singleton.mpr ⟨by decide, by decide⟩
  · exact List.forall_mem_singleton.mpr ⟨by decide, by decide⟩

theorem takeSign_append (isSign : sign ∈ signs) (filled : cs ≠ [])
    (digits : ∀ c ∈ cs, c.isDigit = true) (rest : List Char) :
    Numeral.takeSign (sign ++ (cs ++ rest)) = (sign == ['-'], cs ++ rest) := by
  simp only [signs, List.mem_cons, List.not_mem_nil, or_false] at isSign
  rcases isSign with rfl | rfl | rfl
  · obtain ⟨c, cs, rfl⟩ := List.exists_cons_of_ne_nil filled
    have isDigit := digits c (by simp)
    rw [List.nil_append, List.cons_append, Numeral.takeSign]
    · rfl
    · exact fun _ same => ne_of_digit isDigit (by decide) (List.cons.inj same).1
    · exact fun _ same => ne_of_digit isDigit (by decide) (List.cons.inj same).1
  · rfl
  · rfl

/-- Reading a sign, a row of digits and what stands behind it. -/
theorem intOfText_row {rest : List Char} (isSign : sign ∈ signs) (filled : cs ≠ [])
    (digits : ∀ c ∈ cs, c.isDigit = true) (visible : ∀ c ∈ rest, IsVisible c)
    (ends : rest.takeWhile (fun c => Text.isDigit c || c == '_') = []) :
    Numeral.intOfText (String.ofList (sign ++ (cs ++ rest))) =
      if cs.length > Numeral.digitLimit then .error .tooManyDigits
      else if rest = [] then .ok
        (if sign == ['-'] then -(Numeral.natOfDigits cs : Int) else Numeral.natOfDigits cs)
      else .error (.notAnInteger (Numeral.shown (String.ofList (sign ++ (cs ++ rest))))) := by
  have stripped : Text.stripOf Numeral.isMargin (sign ++ (cs ++ rest)) = sign ++ (cs ++ rest) := by
    refine stripOf_of_none fun c inside => IsVisible.not_isMargin ?_
    rcases List.mem_append.mp inside with inside | inside
    · exact isVisible_of_sign isSign c inside
    rcases List.mem_append.mp inside with inside | inside
    · exact isVisible_of_digit (digits c inside)
    · exact visible c inside
  have row : (cs ++ rest).takeWhile (fun c => Text.isDigit c || c == '_') = cs := by
    rw [List.takeWhile_append_of_pos fun c inside => by simp [isDigit_of_ascii (digits c inside)], ends,
      List.append_nil]
  have kept : cs.filter (· != '_') = cs :=
    List.filter_eq_self.mpr fun c inside => by simpa using ne_of_digit (digits c inside) (by decide)
  have headed : (cs.head?.any (· != '_')) = true := by
    obtain ⟨c, cs, rfl⟩ := List.exists_cons_of_ne_nil filled
    simpa using ne_of_digit (d := '_') (digits c (by simp)) (by decide)
  have shorter : cs.length < (cs ++ rest).length ↔ ¬rest = [] := by
    simp [List.length_pos_iff]
  simp only [Numeral.intOfText, String.toList_ofList, stripped,
    takeSign_append isSign filled digits, row, kept, headed, wellSeparated_digits filled digits,
    Bool.and_true, Bool.not_true, Bool.false_eq_true, if_false, shorter, ite_not]

theorem intOfText_signed (isSign : sign ∈ signs) (filled : cs ≠ [])
    (digits : ∀ c ∈ cs, c.isDigit = true) : Numeral.intOfText (String.ofList (sign ++ cs)) =
      if cs.length > Numeral.digitLimit then .error .tooManyDigits
      else .ok (if sign == ['-'] then -(Numeral.natOfDigits cs : Int) else Numeral.natOfDigits cs) := by
  simpa using intOfText_row isSign filled digits (List.forall_mem_nil _) rfl

theorem intOfText_digits {s : String} (filled : s.isEmpty = false)
    (digits : s.toList.all Char.isDigit = true) : Numeral.intOfText s =
      if s.length > Numeral.digitLimit then .error .tooManyDigits else .ok
        (Numeral.natOfDigits s.toList) := by
  rw [List.all_eq_true] at digits
  have notEmpty : s.toList ≠ [] := by
    intro empty
    simp [String.toList_eq_nil_iff.mp empty] at filled
  have read : Numeral.intOfText (String.ofList ([] ++ s.toList)) = _ :=
    intOfText_signed (by decide) notEmpty digits
  simpa [← String.length_toList] using read

end SwanModel
