import SwanModel.Error
import SwanModel.Text.Blank
import SwanModel.Text.Digit
import SwanModel.Text.Quoted

/-!
# Decimal integers

`natOfDigits` is the value of a row of decimal digits of any script, and `intOfText` reads an
integer.
-/

namespace SwanModel.Numeral

open Text

/-- The value of a row of digits; other characters count as zeros. -/
def natOfDigits (cs : List Char) : Nat :=
  cs.foldl (fun n c => 10 * n + (digit? c).getD 0) 0

theorem natOfDigits_append_one (cs : List Char) (c : Char) :
    natOfDigits (cs ++ [c]) = 10 * natOfDigits cs + (digit? c).getD 0 := by
  simp [natOfDigits, List.foldl_append]

/-- The greatest number of digits that an integer may have. -/
def digitLimit : Nat := 4300

/-- Whether digits are separated by at most one underscore each, with none at the ends. -/
def wellSeparated : List Char → Bool
  | [] => false
  | [c] => c != '_'
  | c :: d :: cs => (c != '_' || d != '_') && wellSeparated (d :: cs)

def takeSign : List Char → Bool × List Char
  | '-' :: cs => (true, cs)
  | '+' :: cs => (false, cs)
  | cs => (false, cs)

/-- White space that may stand around an integer. Separators of files, groups, records and units are
white space, and yet none of these. -/
def isMargin (c : Char) : Bool := if c.toNat < 128 then isAsciiBlank c else isBlank c

/-- The number of characters that are shown of a text that is no integer, its quotes counted. -/
def shownLimit : Nat := 200

def shown (s : String) : String := String.ofList ((quoted s).toList.take shownLimit)

/-- Reads an integer. The whole text has to be one. -/
def intOfText (s : String) : Except Error Int :=
  let (negative, body) := takeSign (stripOf isMargin s.toList)
  let row := body.takeWhile fun c => isDigit c || c == '_'
  let digits := row.filter (· != '_')
  let fails := Except.error (Error.notAnInteger (shown s))
  if !(row.head?.any (· != '_') && wellSeparated row) then fails
  else if digits.length > digitLimit then .error .tooManyDigits
  else if row.length < body.length then fails
  else
    let n : Int := natOfDigits digits
    .ok (if negative then -n else n)

def textOfInt : Int → String
  | .ofNat n => String.ofList (Nat.toDigits 10 n)
  | .negSucc n => String.ofList ('-' :: Nat.toDigits 10 (n + 1))

end SwanModel.Numeral
