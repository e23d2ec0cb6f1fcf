import SwanModel.Json.Reader
import SwanModel.Json.Writer

/-!
# Strings and integers in JSON texts

A string is read back from its escapes, and an integer from its digits if what comes behind it
cannot go on a number.
-/

namespace SwanModel.Json

open Numeral Text

/-! ### Escapes -/

theorem hexValue?_hexDigit (n : Nat) : hexValue? (hexDigit n) = some (n % 16) := by
  have all : ∀ d < 16, hexValue? (Nat.digitChar d) = some d := by decide
  exact all _ (Nat.mod_lt n (by decide))

theorem hex_four (n : Nat) :
    hex 4 n = [hexDigit (n / 16 / 16 / 16), hexDigit (n / 16 / 16), hexDigit (n / 16), hexDigit n] :=
  rfl

theorem hex4_hex {n : Nat} (small : n < 0x10000) (rest : List Char) :
    hex4 (hex 4 n ++ rest) = some (n, rest) := by
  have value : ((n / 16 / 16 / 16 % 16 * 16 + n / 16 / 16 % 16) * 16 + n / 16 % 16) * 16 + n % 16 =
      n := by omega
  simp [hex_four, hex4, hexValue?_hexDigit, value]

theorem toNat_scalar (c : Char) : c.toNat < 0xd800 ∨ 0xdfff < c.toNat ∧ c.toNat < 0x110000 := c.valid

theorem unicodeEscape_single {c : Char} (small : c.toNat < 0x10000) (rest : List Char) :
    unicodeEscape (hex 4 c.toNat ++ rest) = some (c, rest) := by
  have scalar := toNat_scalar c
  have notHigh : (0xd800 ≤ c.toNat && c.toNat ≤ 0xdbff) = false := by simp; omega
  have notHalf : (0xd800 ≤ c.toNat && c.toNat ≤ 0xdfff) = false := by simp; omega
  simp only [unicodeEscape, hex4_hex small, notHigh, charOfUnit, notHalf, Char.ofNat_toNat,
    Bool.false_eq_true, if_false]

theorem unicodeEscape_pair {c : Char} (large : 0x10000 ≤ c.toNat) (rest : List Char) :
    unicodeEscape (hex 4 (0xd800 + (c.toNat - 0x10000) / 0x400) ++
      (unitEscape (0xdc00 + (c.toNat - 0x10000) % 0x400) ++ rest)) = some (c, rest) := by
  have scalar := toNat_scalar c
  have high : (0xd800 ≤ 0xd800 + (c.toNat - 0x10000) / 0x400 &&
      0xd800 + (c.toNat - 0x10000) / 0x400 ≤ 0xdbff) = true := by
    simp; omega
  have low : (0xdc00 ≤ 0xdc00 + (c.toNat - 0x10000) % 0x400 &&
      0xdc00 + (c.toNat - 0x10000) % 0x400 ≤ 0xdfff) = true := by
    simp; omega
  have joined : joinUnits (0xd800 + (c.toNat - 0x10000) / 0x400)
      (0xdc00 + (c.toNat - 0x10000) % 0x400) = c := by
    have sum : 0x10000 + (0xd800 + (c.toNat - 0x10000) / 0x400 - 0xd800) * 0x400 +
        (0xdc00 + (c.toNat - 0x10000) % 0x400 - 0xdc00) = c.toNat := by omega
    rw [joinUnits, sum, Char.ofNat_toNat]
  rw [unicodeEscape, hex4_hex (by omega)]
  simp only [high, if_true, unitEscape, List.cons_append,
    hex4_hex (show 0xdc00 + (c.toNat - 0x10000) % 0x400 < 0x10000 by omega), low, joined]

/-! ### Strings -/

section
variable (fuel : Nat) (done rest : List Char)

theorem stringBody_simple {e c : Char} (known : simpleEscape e = some c) (other : e ≠ 'u') :
    stringBody (fuel + 1) done ('\\' :: e :: rest) = stringBody fuel (c :: done) rest := by
  simp [stringBody, known]

theorem stringBody_unicode {cs : List Char} {c : Char} (read : unicodeEscape cs = some (c, rest)) :
    stringBody (fuel + 1) done ('\\' :: 'u' :: cs) = stringBody fuel (c :: done) rest := by
  simp [stringBody, read]

theorem stringBody_single {c : Char} (small : c.toNat < 0x10000) :
    stringBody (fuel + 1) done (unitEscape c.toNat ++ rest) = stringBody fuel (c :: done) rest :=
  stringBody_unicode fuel done rest (unicodeEscape_single small rest)

theorem unitEscape_append (n : Nat) : unitEscape n ++ rest = '\\' :: 'u' :: (hex 4 n ++ rest) := rfl

theorem stringBody_pair {c : Char} (large : 0x10000 ≤ c.toNat) :
    stringBody (fuel + 1) done (unitEscape (0xd800 + (c.toNat - 0x10000) / 0x400) ++
      (unitEscape (0xdc00 + (c.toNat - 0x10000) % 0x400) ++ rest)) =
        stringBody fuel (c :: done) rest := by
  rw [unitEscape_append]
  exact stringBody_unicode fuel done rest (unicodeEscape_pair large rest)

theorem stringBody_plain {c : Char} (noQuote : c ≠ '"') (noEscape : c ≠ '\\')
    (printable : ¬ c.toNat < 0x20) :
    stringBody (fuel + 1) done (c :: rest) = stringBody fuel (c :: done) rest := by
  change (if c == '"' then _ else if c == '\\' then _ else if c.toNat < 0x20 then _ else _) = _
  rw [if_neg (by simpa using noQuote), if_neg (by simpa using noEscape), if_neg printable]

end

/-- The ways in which a character stands in a string that is written. -/
inductive WrittenChar (c : Char) : List Char → Prop
  | simple {e : Char} (known : simpleEscape e = some c) (other : e ≠ 'u') : WrittenChar c ['\\', e]
  | single (small : c.toNat < 0x10000) : WrittenChar c (unitEscape c.toNat)
  | pair (large : 0x10000 ≤ c.toNat) :
    WrittenChar c (unitEscape (0xd800 + (c.toNat - 0x10000) / 0x400) ++
      unitEscape (0xdc00 + (c.toNat - 0x10000) % 0x400))
  | plain (noQuote : c ≠ '"') (noEscape : c ≠ '\\') (printable : ¬ c.toNat < 0x20) : WrittenChar c [c]

theorem stringChar_written (ascii : Bool) (c : Char) : WrittenChar c (stringChar ascii c) := by
  unfold stringChar
  split
  next special =>
    simp only [Bool.or_eq_true, beq_iff_eq] at special
    rcases special with rfl | rfl <;> exact .simple rfl (by decide)
  next plain =>
  simp only [Bool.or_eq_true, beq_iff_eq, not_or] at plain
  -- The control characters that have a letter of their own.
  iterate 5
    split
    next same =>
      cases eq_of_beq same
      exact .simple rfl (by decide)
  split
  next => exact .single (by omega)
  next printable =>
  split
  next pair =>
    simp only [Bool.and_eq_true, decide_eq_true_eq, ge_iff_le] at pair
    exact .pair pair.2
  next notPair =>
  split
  next single =>
    simp only [Bool.and_eq_true, decide_eq_true_eq, ge_iff_le] at notPair single
    exact .single (Nat.not_le.mp fun large => notPair ⟨single.1, large⟩)
  next => exact .plain plain.1 plain.2 printable

namespace WrittenChar

variable {c : Char} {cs : List Char}

/-- The reader takes one step for each character that was written. -/
theorem stringBody_append (written : WrittenChar c cs) (fuel : Nat) (done rest : List Char) :
    stringBody (fuel + 1) done (cs ++ rest) = stringBody fuel (c :: done) rest := by
  cases written with
  | simple known other => exact stringBody_simple fuel done rest known other
  | single small => exact stringBody_single fuel done rest small
  | pair large =>
    rw [List.append_assoc]
    exact stringBody_pair fuel done rest large
  | plain noQuote noEscape printable => exact stringBody_plain fuel done rest noQuote noEscape printable

theorem length_pos (written : WrittenChar c cs) : 0 < cs.length := by
  cases written <;> simp [unitEscape]

theorem noReturn (written : WrittenChar c cs) : '\r' ∉ cs := by
  have digits : ∀ d < 16, '\r' ≠ Nat.digitChar d := by decide
  have escape (n : Nat) : '\r' ∉ unitEscape n := by
    simp [unitEscape, hex_four, Text.hexDigit, digits _ (Nat.mod_lt _ (show 0 < 16 by decide))]
  cases written with
  | simple known _ =>
    intro inside
    obtain same | same : '\r' = '\\' ∨ '\r' = _ := by simpa using inside
    · cases same
    · cases same
      cases known
  | single => exact escape _
  | pair =>
    rw [List.mem_append, not_or]
    exact ⟨escape _, escape _⟩
  | plain _ _ printable =>
    intro inside
    cases List.mem_singleton.mp inside
    exact printable (by decide)

end WrittenChar

theorem stringBody_written (ascii : Bool) (cs : List Char) {fuel : Nat}
    (enough : (cs.flatMap (stringChar ascii)).length < fuel) (done rest : List Char) :
    stringBody fuel done (cs.flatMap (stringChar ascii) ++ '"' :: rest) =
      .ok (String.ofList (done.reverse ++ cs), rest) := by
  induction cs generalizing fuel done with
  | nil =>
    obtain ⟨fuel, rfl⟩ := Nat.exists_eq_add_one_of_ne_zero (Nat.ne_of_gt enough)
    rw [List.append_nil]
    rfl
  | cons c cs ih =>
    obtain ⟨fuel, rfl⟩ := Nat.exists_eq_add_one_of_ne_zero (Nat.ne_of_gt (Nat.zero_lt_of_lt enough))
    have written := stringChar_written ascii c
    have step := written.length_pos
    rw [List.flatMap_cons, List.length_append] at enough
    rw [List.flatMap_cons, List.append_assoc, written.stringBody_append, ih (by omega)]
    simp

/-- A string that is written is read back, and all that comes behind it is left. -/
theorem stringBody_writeString (ascii : Bool) (s : String) (rest : List Char) :
    ∃ body, (writeString ascii s).toList = '"' :: body ∧
      stringBody (body ++ rest).length.succ [] (body ++ rest) = .ok (s, rest) := by
  refine ⟨s.toList.flatMap (stringChar ascii) ++ ['"'], by simp [writeString], ?_⟩
  rw [List.append_assoc, List.singleton_append, stringBody_written]
  · simp
  · rw [List.length_append]
    omega

/-! ### Integers -/

theorem natOfDigits_toDigits (n : Nat) : natOfDigits (Nat.toDigits 10 n) = n := by
  have digits : ∀ d < 10, (digit? (Nat.digitChar d)).getD 0 = d := by decide
  induction n using Nat.strongRecOn with
  | ind n ih =>
    rw [Nat.toDigits_eq_if (by decide)]
    split
    · rename_i small
      simp [natOfDigits, digits n small]
    · rw [natOfDigits_append_one, ih (n / 10) (by omega), digits _ (Nat.mod_lt n (by decide))]
      omega

theorem toDigits_head {n : Nat} (positive : 0 < n) : ∃ c cs, Nat.toDigits 10 n = c :: cs ∧ c ≠ '0' := by
  have digits : ∀ d < 10, 0 < d → Nat.digitChar d ≠ '0' := by decide
  induction n using Nat.strongRecOn with
  | ind n ih =>
    rw [Nat.toDigits_eq_if (by decide)]
    split
    · rename_i small
      exact ⟨_, [], rfl, digits n small positive⟩
    · obtain ⟨c, cs, row, other⟩ := ih (n / 10) (by omega) (by omega)
      exact ⟨c, cs ++ [(n % 10).digitChar], by rw [row]; rfl, other⟩

/-- A text that does not go on a number. -/
def Ends (rest : List Char) : Prop := ∀ c ∈ rest.head?, c.isDigit = false ∧ c ≠ '.' ∧ c ≠ 'e' ∧ c ≠ 'E'

theorem Ends.nil : Ends [] := by
  intro c member
  cases member

variable {rest : List Char}

theorem Ends.no_digit (ends : Ends rest) :
    rest.takeWhile Char.isDigit = [] ∧ rest.dropWhile Char.isDigit = rest := by
  cases rest with
  | nil => exact ⟨rfl, rfl⟩
  | cons c cs =>
    have other := (ends c rfl).1
    simp [other]

theorem Ends.no_fraction (ends : Ends rest) : fractionDigits rest = (none, rest) := by
  unfold fractionDigits
  split
  · exact absurd rfl (ends _ rfl).2.1
  · rfl

theorem Ends.no_exponent (ends : Ends rest) : exponentPart rest = (none, rest) := by
  unfold exponentPart
  split
  · have other := ends _ rfl
    simp [other.2.2]
  · rfl

theorem wholeDigits_toDigits (n : Nat) (ends : Ends rest) :
    wholeDigits (Nat.toDigits 10 n ++ rest) = some (Nat.toDigits 10 n, rest) := by
  rcases Nat.eq_zero_or_pos n with rfl | positive
  · rfl
  · obtain ⟨c, cs, row, other⟩ := toDigits_head positive
    have inside : ∀ d ∈ Nat.toDigits 10 n, d.isDigit = true :=
      fun d => Nat.isDigit_of_mem_toDigits (by decide) (by decide)
    have taken : (Nat.toDigits 10 n ++ rest).takeWhile Char.isDigit = Nat.toDigits 10 n := by
      rw [List.takeWhile_append_of_pos inside, ends.no_digit.1, List.append_nil]
    have dropped : (Nat.toDigits 10 n ++ rest).dropWhile Char.isDigit = rest := by
      rw [List.dropWhile_append_of_pos inside, ends.no_digit.2]
    unfold wholeDigits
    split
    · rename_i zero
      rw [row] at zero
      exact absurd (List.cons.inj zero).1 other
    · rw [taken, dropped]
      split
      · exact absurd ‹_› Nat.toDigits_ne_nil
      · rfl

theorem number_toDigits (negative : Bool) {n : Nat}
    (short : (Nat.toDigits 10 n).length ≤ digitLimit) (ends : Ends rest) :
    number negative (Nat.toDigits 10 n ++ rest) = .ok (.int (if negative then -n else n), rest) := by
  have length : ¬ digitLimit < (Nat.toDigits 10 n).length := Nat.not_lt.mpr short
  simp only [number, wholeDigits_toDigits n ends, ends.no_fraction, ends.no_exponent,
    natOfDigits_toDigits, gt_iff_lt, length, Option.isNone_none, Bool.and_self, if_true, if_false]

theorem ne_of_isDigit {c d : Char} (digit : c.isDigit = true) (other : d.isDigit = false) : c ≠ d := by
  rintro rfl
  rw [digit] at other
  cases other

theorem find?_constants {c : Char} (digit : c.isDigit = true) (cs : List Char) :
    constants.find? (fun entry => entry.1.isPrefixOf (c :: cs)) = none ∧
      constants.find? (fun entry => entry.1.isPrefixOf ('-' :: c :: cs)) = none := by
  have other : ∀ d : Char, d.isDigit = false → (d == c) = false :=
    fun d letter => beq_eq_false_iff_ne.mpr (ne_of_isDigit digit letter).symm
  simp [constants, List.isPrefixOf, other 'n' rfl, other 't' rfl, other 'f' rfl, other 'N' rfl,
    other 'I' rfl, other '-' rfl]

theorem scalar_digit {c : Char} (digit : c.isDigit = true) (cs : List Char) :
    scalar (c :: cs) = number false (c :: cs) := by
  have other : c ≠ '-' := ne_of_isDigit digit rfl
  unfold scalar
  rw [(find?_constants digit cs).1]
  simp [other]

theorem scalar_minus {c : Char} (digit : c.isDigit = true) (cs : List Char) :
    scalar ('-' :: c :: cs) = number true (c :: cs) := by
  unfold scalar
  rw [(find?_constants digit cs).2]
  rfl

theorem toDigits_cons (n : Nat) : ∃ c cs, Nat.toDigits 10 n = c :: cs ∧ c.isDigit = true := by
  obtain ⟨c, cs, row⟩ := List.exists_cons_of_ne_nil (Nat.toDigits_ne_nil (n := n) (b := 10))
  exact ⟨c, cs, row, Nat.isDigit_of_mem_toDigits (by decide) (by decide) (row ▸ List.mem_cons_self)⟩

theorem scalar_textOfInt {n : Int} (short : (Nat.toDigits 10 n.natAbs).length ≤ digitLimit)
    (ends : Ends rest) : scalar ((textOfInt n).toList ++ rest) = .ok (.int n, rest) := by
  cases n with
  | ofNat n =>
    have read : number false (Nat.toDigits 10 n ++ rest) = .ok (.int n, rest) :=
      number_toDigits false short ends
    obtain ⟨c, cs, row, digit⟩ := toDigits_cons n
    simp only [textOfInt, String.toList_ofList, row, List.cons_append] at read ⊢
    rw [scalar_digit digit, read]
    rfl
  | negSucc n =>
    have read : number true (Nat.toDigits 10 (n + 1) ++ rest) = .ok (.int (.negSucc n), rest) :=
      number_toDigits true short ends
    obtain ⟨c, cs, row, digit⟩ := toDigits_cons (n + 1)
    simp only [textOfInt, String.toList_ofList, row, List.cons_append] at read ⊢
    rw [scalar_minus digit, read]

end SwanModel.Json
