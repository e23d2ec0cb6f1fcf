import SwanModel.Proofs.Language.PhraseConversion
import SwanModel.Proofs.Numeral.Integers

/-!
# Integer and real literals are told apart

Of the two tests for numeric literals each looks at the start of the text only. It is clear which of
the two a literal is if both tests return and one of them holds.
-/

namespace SwanModel.Numeral

open Text Printing SwanModel.Convert

/-! ### The grammar of reals -/

structure Exponent where
  mark : Char
  sign : List Char
  digits : List Char
  isMark : mark = 'e' ∨ mark = 'E'
  isSign : sign ∈ signs
  filled : digits ≠ []
  areDigits : ∀ c ∈ digits, c.isDigit = true

/-- A real literal, with its digits in ASCII. There are digits on one side of the point or on
both. -/
structure WrittenReal where
  whole : List Char
  fraction : List Char
  exponent : Option Exponent
  size : Option Nat
  filled : whole ≠ [] ∨ fraction ≠ []
  areWhole : ∀ c ∈ whole, c.isDigit = true
  areFraction : ∀ c ∈ fraction, c.isDigit = true
  sized : ∀ n ∈ size, n ∈ [32, 64]

namespace WrittenReal

variable (literal : WrittenReal)

def exponentText : List Char := literal.exponent.elim [] fun e => e.mark :: (e.sign ++ e.digits)

def sizeText : List Char := literal.size.elim [] fun n => ['_', 'f'] ++ Nat.toDigits 10 n

def text : String :=
  String.ofList (literal.whole ++
    '.' :: (literal.fraction ++ (literal.exponentText ++ literal.sizeText)))

def parts : RealParts :=
  ⟨literal.whole, literal.fraction, literal.exponent.map fun e => e.sign ++ e.digits, literal.size⟩

def exponentDigits : List Char := literal.exponent.elim [] (·.digits)

end WrittenReal

/-! ### Scanning -/

namespace Real

variable {digits rest : List Char}

theorem scanMantissa_point {whole fraction : List Char} (areWhole : ∀ c ∈ whole, c.isDigit = true)
    (areFraction : ∀ c ∈ fraction, c.isDigit = true) (filled : whole ≠ [] ∨ fraction ≠ [])
    (stops : Stops isDigit rest) :
    scanMantissa (whole ++ '.' :: (fraction ++ rest)) = some (whole, fraction, rest) := by
  have point : Stops isDigit ('.' :: (fraction ++ rest)) := by
    change isDigit '.' = false
    decide
  have first := cut (fun c inside => isDigit_of_ascii (areWhole c inside)) point
  have second := cut (fun c inside => isDigit_of_ascii (areFraction c inside)) stops
  have someDigit : (whole.isEmpty && fraction.isEmpty) = false := by
    rw [Bool.and_eq_false_iff]
    simpa using filled
  simp only [scanMantissa, first.1, first.2, second.1, second.2, someDigit, Bool.false_eq_true, if_false]

theorem scanMantissa_of_no_point (areDigits : ∀ c ∈ digits, c.isDigit = true)
    (stops : Stops (fun c => isDigit c || c == '.') rest) : scanMantissa (digits ++ rest) = none := by
  have row := cut (fun c inside => isDigit_of_ascii (areDigits c inside))
    (stops.mono (p := isDigit) fun c inside => by simp [inside])
  rw [scanMantissa, row.2]
  cases rest with
  | nil => rfl
  | cons c rest =>
    have outside : (isDigit c || c == '.') = false := stops
    have notPoint : c ≠ '.' := by
      rintro rfl
      simp at outside
    split
    · rename_i same
      exact absurd (List.cons.inj same).1 notPoint
    · rfl

theorem scanSign_append {sign : List Char} (isSign : sign ∈ signs) (filled : digits ≠ [])
    (areDigits : ∀ c ∈ digits, c.isDigit = true) :
    scanSign (sign ++ (digits ++ rest)) = (sign, digits ++ rest) := by
  simp only [signs, List.mem_cons, List.not_mem_nil, or_false] at isSign
  rcases isSign with rfl | rfl | rfl
  · obtain ⟨c, digits, rfl⟩ := List.exists_cons_of_ne_nil filled
    have isDigit := areDigits c (by simp)
    rw [List.nil_append, List.cons_append, scanSign]
    · exact fun _ same => ne_of_digit isDigit (by decide) (List.cons.inj same).1
    · exact fun _ same => ne_of_digit isDigit (by decide) (List.cons.inj same).1
  · rfl
  · rfl

theorem scanExponent_append (e : Exponent) (stops : Stops isDigit rest) :
    scanExponent (e.mark :: (e.sign ++ (e.digits ++ rest))) = some (e.sign ++ e.digits, rest) := by
  have row := cut (fun c inside => isDigit_of_ascii (e.areDigits c inside)) stops
  have marked : (e.mark == 'e' || e.mark == 'E') = true := by simpa using e.isMark
  have filled : e.digits.isEmpty = false := by simpa using e.filled
  simp only [scanExponent, scanSign_append e.isSign e.filled e.areDigits, row.1, row.2, marked,
    filled, Bool.not_false, Bool.and_true, if_true]

end Real

namespace WrittenReal

variable (literal : WrittenReal)

theorem sizeText_stops {p : Char → Bool} (outside : p '_' = false) : Stops p literal.sizeText := by
  unfold sizeText
  cases literal.size with
  | none => trivial
  | some n => exact outside

theorem exponentText_stops {p : Char → Bool} (outside : p '_' = false ∧ p 'e' = false ∧ p 'E' = false) :
    Stops p (literal.exponentText ++ literal.sizeText) := by
  unfold exponentText
  cases literal.exponent with
  | none => exact literal.sizeText_stops outside.1
  | some e =>
    change p e.mark = false
    rcases e.isMark with mark | mark
    · exact mark ▸ outside.2.1
    · exact mark ▸ outside.2.2

theorem scanSize_sizeText : Real.scanSize literal.sizeText = literal.size := by
  unfold sizeText
  cases same : literal.size with
  | none => rfl
  | some n =>
    have sized := literal.sized n (by rw [same]; rfl)
    simp only [List.mem_cons, List.not_mem_nil, or_false] at sized
    rcases sized with rfl | rfl <;> decide +kernel

theorem scan_text : Real.scan literal.text = some literal.parts := by
  have found := Real.scanMantissa_point literal.areWhole literal.areFraction literal.filled
    (literal.exponentText_stops (p := isDigit) (by decide))
  simp only [Real.scan, text, String.toList_ofList, found, Option.map_some, parts]
  unfold exponentText
  cases literal.exponent with
  | none =>
    have noExponent : Real.scanExponent literal.sizeText = none := by
      unfold sizeText
      cases literal.size <;> rfl
    simp only [Option.elim_none, List.nil_append, noExponent, scanSize_sizeText, Option.map_none]
  | some e =>
    have exponent := Real.scanExponent_append e (literal.sizeText_stops (p := isDigit) (by decide))
    simp only [Option.elim_some, List.cons_append, List.append_assoc, exponent, scanSize_sizeText,
      Option.map_some]

end WrittenReal

/-! ### Tests of texts -/

theorem Integer.isInteger_of_scan {s : String} {parts : IntegerParts}
    (found : Integer.scan s = some parts) :
    Integer.isInteger s = (intOfText (String.ofList parts.digits)).map fun _ => true := by
  simp only [Integer.isInteger, Integer.read, found, Integer.ofParts, Bool.false_and]
  cases intOfText (String.ofList parts.digits) <;> rfl

theorem Real.isReal_of_scan {s : String} {parts : RealParts} (found : Real.scan s = some parts) :
    Real.isReal s = ((parts.exponent.map fun e => intOfText (String.ofList e)).getD (.ok 1)).map
      fun _ => true := by
  simp only [Real.isReal, Real.read, found, Real.ofParts]
  cases (parts.exponent.map fun e => intOfText (String.ofList e)).getD (.ok 1) <;> rfl

/-- An integer literal is no real: no point stands behind its first digits. -/
theorem WrittenInteger.isReal_text (literal : WrittenInteger) :
    Real.isReal literal.text = .ok false := by
  have inBase := literal.inBase
  have noMantissa : Real.scanMantissa (literal.numeral ++ literal.suffixText) = none := by
    unfold numeral
    cases same : literal.base with
    | none =>
      rw [same] at inBase
      exact Real.scanMantissa_of_no_point inBase (literal.suffixText_stops (by decide))
    | some base =>
      obtain ⟨letter, mark, isLetter, other⟩ := base.mark_eq
      have notPoint : letter ≠ '.' := by
        rintro rfl
        exact absurd isLetter (by decide)
      have stops : Stops (fun c =>
          isDigit c || c == '.') (letter :: (literal.digits ++ literal.suffixText)) := by
        simpa [Stops, notPoint] using (Bool.or_eq_false_iff.mp other).1
      have zero : Real.scanMantissa (['0'] ++ letter :: (literal.digits ++ literal.suffixText)) = none :=
        Real.scanMantissa_of_no_point (List.all_eq_true.mp rfl) stops
      simpa [mark] using zero
  rw [Real.isReal, Real.read, Real.scan, text, String.toList_ofList, noMantissa]
  rfl

namespace WrittenReal

variable (literal : WrittenReal)

theorem isReal_text : Real.isReal literal.text =
    if literal.exponentDigits.length > digitLimit then .error .tooManyDigits else .ok true := by
  rw [Real.isReal_of_scan literal.scan_text, parts]
  cases given : literal.exponent with
  | none =>
    have nothing : literal.exponentDigits = [] := by rw [exponentDigits, given, Option.elim_none]
    rw [nothing]
    rfl
  | some e =>
    have digits : literal.exponentDigits = e.digits := by rw [exponentDigits, given, Option.elim_some]
    rw [digits, Option.map_some, Option.map_some, Option.getD_some,
      intOfText_signed e.isSign e.filled e.areDigits]
    split <;> rfl

/-- The test for integers looks at the whole part of a real. -/
theorem isInteger_text : Integer.isInteger literal.text =
    if literal.whole = [] then .ok false
    else if literal.whole.length > digitLimit then .error .tooManyDigits
    else .ok true := by
  split
  case isTrue empty =>
    have none : Integer.scan literal.text = none := by
      rw [Integer.scan, text, String.toList_ofList, empty]
      rfl
    rw [Integer.isInteger, Integer.read, none]
    rfl
  case isFalse filled =>
    have noDigit (cs : List Char) : Stops isDigit ('.' :: cs) := (by decide : isDigit '.' = false)
    have found := Integer.scanNumeral_decimal filled literal.areWhole
      (noDigit (literal.fraction ++ (literal.exponentText ++ literal.sizeText))) rfl
    have scanned : Integer.scan literal.text = some ⟨literal.whole, none⟩ := by
      rw [Integer.scan, text, String.toList_ofList, found]
      rfl
    have read : intOfText (String.ofList ([] ++ literal.whole)) = _ :=
      intOfText_signed (by decide) filled literal.areWhole
    rw [List.nil_append] at read
    rw [Integer.isInteger_of_scan scanned, read]
    split <;> rfl

end WrittenReal

inductive WrittenNumeral where
  | integer (literal : WrittenInteger)
  | real (literal : WrittenReal)

namespace WrittenNumeral

def text : WrittenNumeral → String
  | integer literal => literal.text
  | real literal => literal.text

/-- What the test for integers gives: the whole part of a real is taken for an integer. -/
def asInteger : WrittenNumeral → Except Error Bool
  | integer literal => (literal.outcome false).map fun _ => true
  | real literal =>
    if literal.whole = [] then .ok false
    else if literal.whole.length > digitLimit then .error .tooManyDigits
    else .ok true

def asReal : WrittenNumeral → Except Error Bool
  | integer _ => .ok false
  | real literal =>
    if literal.exponentDigits.length > digitLimit then .error .tooManyDigits else .ok true

/-- Whether the tests tell which of the two a literal is. -/
def isClear : WrittenNumeral → Bool
  | integer literal => literal.base.isNone && decide (literal.digits.length ≤ digitLimit)
  | real literal => literal.whole.isEmpty && decide (literal.exponentDigits.length ≤ digitLimit)

theorem isInteger_text (literal : WrittenNumeral) :
    Integer.isInteger literal.text = literal.asInteger := by
  cases literal with
  | integer literal =>
    change Integer.isInteger literal.text = (literal.outcome false).map fun _ => true
    rw [Integer.isInteger, literal.read_text]
    cases literal.outcome false <;> rfl
  | real literal => exact literal.isInteger_text

theorem isReal_text (literal : WrittenNumeral) : Real.isReal literal.text = literal.asReal := by
  cases literal with
  | integer literal => exact literal.isReal_text
  | real literal => exact literal.isReal_text

theorem clear_iff (literal : WrittenNumeral) :
    (∃ holds, literal.asInteger = .ok holds ∧ literal.asReal = .ok !holds) ↔ literal.isClear = true := by
  cases literal with
  | integer literal =>
    simp only [asInteger, asReal, isClear, WrittenInteger.outcome, Bool.false_and,
      Bool.false_eq_true, if_false]
    cases literal.base with
    | some base => simp [Except.map]
    | none =>
      by_cases long : literal.digits.length > digitLimit
      · simp [long, Except.map]
      · simp [long, Except.map, Nat.not_lt.mp long]
  | real literal =>
    simp only [asInteger, asReal, isClear]
    by_cases long : literal.exponentDigits.length > digitLimit
    · simp [long]
    · by_cases empty : literal.whole = []
      · simp [long, empty, Nat.not_lt.mp long]
      · by_cases longer : literal.whole.length > digitLimit
        · simp [empty, longer]
        · simp [long, empty, longer]

end WrittenNumeral

/-! ### Tests of constructs -/

/-- A numeric literal, and what its tests for integers and for reals give. -/
def Tested (t : Term) (isInteger isReal : Except Error Bool) : Prop :=
  t.Shows (.expr .literal) [("is_numeric", .truth true)] ∧ t.shown "is_integer" = isInteger.map .truth ∧
    t.shown "is_float" = isReal.map .truth

theorem tested_text (s : String) :
    Tested (.node (.expr .literal) [.text s, .constant (.literalKind .numeric)])
      (Integer.isInteger s) (Real.isReal s) := by
  refine ⟨⟨rfl, rfl⟩, ?_, ?_⟩
  · change (((Integer.isInteger s).map Term.truth).map Found.made >>= fun found => found.term _) = _
    cases Integer.isInteger s <;> rfl
  · change (((Real.isReal s).map Term.truth).map Found.made >>= fun found => found.term _) = _
    cases Real.isReal s <;> rfl

theorem groupRenaming_position (position : ParseTree) (isShortcut : Bool) (new : Option Ident)
    (fields : List (String × ParseTree)) (reader : Reader) (state : Reading) :
    perform (convert .groupRenaming
      (.node (some "RenamingByPos") [position, .truth isShortcut, Ident.treeOf? new] fields)) reader
        state =
      (.ok (.node (.part .groupRenaming)
        [.node (.expr .literal) [Term.ofTree position, .constant (.literalKind .numeric)],
          Ident.termOf? new, .truth isShortcut]), state) := by
  rw [convert, perform_bind_ok (perform_read reader state)]
  change perform (groupRenaming _) reader state = _
  simp only [groupRenaming, tag_node, itemAt_first, itemAt_second, itemAt_third, pure_bind, make_expr,
    optional_identifier]
  rfl

/-- What the tests of numeric literals give, for the text of a literal, an expression and the
position of a renaming. They tell integers and reals apart for some of the literals, and they fail
for a position that is a number and no text. -/
theorem numeric_literals_are_tested (literal : WrittenNumeral) (reader : Reader) (state : Reading) :
    Integer.isInteger literal.text = literal.asInteger ∧ Real.isReal literal.text = literal.asReal ∧
    ((∃ holds, literal.asInteger = .ok holds ∧ literal.asReal = .ok !holds) ↔ literal.isClear = true) ∧
    (∀ fields, ∃ t, perform (convert .expr (.node (some "ENumLiteral") [.text literal.text] fields))
      reader state = (.ok t, state) ∧ Tested t literal.asInteger literal.asReal) ∧
    ∀ (isShortcut : Bool) (new : Option Ident) (fields : List (String × ParseTree)),
      (∃ t index, perform (convert .groupRenaming (.node (some "RenamingByPos")
          [.text literal.text, .truth isShortcut, Ident.treeOf? new] fields)) reader state = (.ok t,
            state) ∧
        t.Shows (.part .groupRenaming) [("source", index)] ∧
          Tested index literal.asInteger literal.asReal) ∧
      ∀ position : Int, ∃ t index, perform (convert .groupRenaming (.node (some "RenamingByPos")
          [.number position, .truth isShortcut, Ident.treeOf? new] fields)) reader state = (.ok t,
            state) ∧
        t.Shows (.part .groupRenaming) [("source", index)] ∧
          Tested index (.error .wrongKind) (.error .wrongKind) := by
  have tested := tested_text literal.text
  rw [literal.isInteger_text, literal.isReal_text] at tested
  refine ⟨literal.isInteger_text, literal.isReal_text, literal.clear_iff, fun fields => ?_,
    fun isShortcut new fields => ⟨?_, ?_⟩⟩
  · exact ⟨_, rfl, tested⟩
  · exact ⟨_, _, groupRenaming_position _ isShortcut new fields reader state, ⟨rfl, rfl⟩, tested⟩
  · intro position
    exact ⟨_, _, groupRenaming_position _ isShortcut new fields reader state, ⟨rfl, rfl⟩,
      ⟨rfl, rfl⟩, rfl, rfl⟩

/-- The literal `1.5` passes both tests. -/
theorem one_and_a_half_is_both :
    (∃ literal : WrittenNumeral, literal.text = "1.5") ∧
      Tested (.node (.expr .literal) [.text "1.5", .constant (.literalKind .numeric)]) (.ok true)
        (.ok true) := by
  refine ⟨⟨.real ⟨['1'], ['5'], none, none, by decide, List.all_eq_true.mp rfl,
    List.all_eq_true.mp rfl, by decide⟩, by decide +kernel⟩, ?_⟩
  have tested := tested_text "1.5"
  have integer : Integer.isInteger "1.5" = .ok true := rfl
  have real : Real.isReal "1.5" = .ok true := rfl
  rwa [integer, real] at tested

end SwanModel.Numeral
