import SwanModel.Json.Value
import SwanModel.Numeral.Decimal

/-!
# Reading JSON

Beside the JSON grammar the reader takes the words for the infinities and for "not a number".
-/

namespace SwanModel.Json

open Numeral

/-- A value or a piece of one, and the text behind it. -/
abbrev Read (α : Type) := Except Error (α × List Char)

def isSpace (c : Char) : Bool := c == ' ' || c == '\t' || c == '\n' || c == '\r'

def skip (cs : List Char) : List Char := cs.dropWhile isSpace

/-! ### Strings -/

def hexValue? (c : Char) : Option Nat :=
  if c.isDigit then some (c.toNat - 48)
  else if 'a' ≤ c && c ≤ 'f' then some (c.toNat - 87)
  else if 'A' ≤ c && c ≤ 'F' then some (c.toNat - 55)
  else none

def hex4 : List Char → Option (Nat × List Char)
  | a :: b :: c :: d :: rest => do
    let a ← hexValue? a
    let b ← hexValue? b
    let c ← hexValue? c
    let d ← hexValue? d
    return (((a * 16 + b) * 16 + c) * 16 + d, rest)
  | _ => none

/-- The character of a code unit; half of a pair alone has none and shows as a replacement. -/
def charOfUnit (n : Nat) : Char :=
  if 0xd800 ≤ n && n ≤ 0xdfff then Char.ofNat 0xfffd else Char.ofNat n

def joinUnits (high low : Nat) : Char :=
  Char.ofNat (0x10000 + (high - 0xd800) * 0x400 + (low - 0xdc00))

def unicodeEscape (cs : List Char) : Option (Char × List Char) :=
  match hex4 cs with
  | none => none
  | some (high, rest) =>
    if 0xd800 ≤ high && high ≤ 0xdbff then
      match rest with
      | '\\' :: 'u' :: more =>
        match hex4 more with
        | some (low, rest') =>
          if 0xdc00 ≤ low && low ≤ 0xdfff then some (joinUnits high low, rest')
          else some (charOfUnit high, rest)
        | none => none
      | _ => some (charOfUnit high, rest)
    else some (charOfUnit high, rest)

def simpleEscape : Char → Option Char
  | '"' => some '"'
  | '\\' => some '\\'
  | '/' => some '/'
  | 'b' => some '\x08'
  | 'f' => some '\x0c'
  | 'n' => some '\n'
  | 'r' => some '\r'
  | 't' => some '\t'
  | _ => none

/-- The characters of a string up to its closing quote. -/
def stringBody : Nat → List Char → List Char → Read String
  | 0, _, _ => .error .notJson
  | _, _, [] => .error .notJson
  | fuel + 1, done, c :: cs =>
    if c == '"' then .ok (String.ofList done.reverse, cs)
    else if c == '\\' then
      match cs with
      | 'u' :: rest =>
        match unicodeEscape rest with
        | some (d, rest) => stringBody fuel (d :: done) rest
        | none => .error .notJson
      | e :: rest =>
        match simpleEscape e with
        | some d => stringBody fuel (d :: done) rest
        | none => .error .notJson
      | [] => .error .notJson
    else if c.toNat < 0x20 then .error .notJson
    else stringBody fuel (c :: done) cs

/-! ### Numbers -/

/-- Digits before the point: a zero alone or a row that starts with another digit. -/
def wholeDigits : List Char → Option (List Char × List Char)
  | '0' :: rest => some (['0'], rest)
  | cs =>
    match cs.takeWhile Char.isDigit with
    | [] => none
    | digits => some (digits, cs.dropWhile Char.isDigit)

def fractionDigits (cs : List Char) : Option (List Char) × List Char :=
  match cs with
  | '.' :: rest =>
    match rest.takeWhile Char.isDigit with
    | [] => (none, cs)
    | digits => (some digits, rest.dropWhile Char.isDigit)
  | _ => (none, cs)

def exponentPart (cs : List Char) : Option Int × List Char :=
  match cs with
  | c :: rest =>
    if c == 'e' || c == 'E' then
      let (negative, digits) := takeSign rest
      match digits.takeWhile Char.isDigit with
      | [] => (none, cs)
      | row =>
        let n : Int := natOfDigits row
        (some (if negative then -n else n), digits.dropWhile Char.isDigit)
    else (none, cs)
  | [] => (none, cs)

def number (negative : Bool) (cs : List Char) : Read Json :=
  match wholeDigits cs with
  | none => .error .notJson
  | some (whole, rest) =>
    match fractionDigits rest with
    | (fraction, rest) =>
      match exponentPart rest with
      | (exponent, rest) =>
        if fraction.isNone && exponent.isNone then
          if whole.length > digitLimit then .error .tooManyDigits
          else
            let n : Int := natOfDigits whole
            .ok (.int (if negative then -n else n), rest)
        else
          let digits := fraction.getD []
          let x := Binary64.ofDecimal (natOfDigits (whole ++ digits))
            (exponent.getD 0 - digits.length)
          .ok (.real (if negative then x.neg else x), rest)

/-! ### Values -/

def constants : List (List Char × Json) :=
  [("null".toList, .null), ("true".toList, .bool true), ("false".toList, .bool false),
    ("NaN".toList, .real .nan), ("Infinity".toList, .real .infinity),
    ("-Infinity".toList, .real Binary64.infinity.neg)]

def scalar (cs : List Char) : Read Json :=
  match constants.find? fun (word, _) => word.isPrefixOf cs with
  | some (word, value) => .ok (value, cs.drop word.length)
  | none =>
    match cs with
    | '-' :: rest => number true rest
    | _ => number false cs

mutual

def value (fuel : Nat) (cs : List Char) : Read Json :=
  match fuel with
  | 0 => .error .notJson
  | fuel + 1 =>
    match cs with
    | '"' :: rest => (stringBody rest.length.succ [] rest).map fun (s, rest) => (.str s, rest)
    | '[' :: rest =>
      match skip rest with
      | ']' :: rest => .ok (.arr [], rest)
      | rest => (items fuel [] rest).map fun (vs, rest) => (.arr vs, rest)
    | '\x7b' :: rest =>
      match skip rest with
      | '\x7d' :: rest => .ok (.obj [], rest)
      | rest => (members fuel [] rest).map fun (vs, rest) => (.obj vs, rest)
    | _ => scalar cs

def items (fuel : Nat) (done : List Json) (cs : List Char) : Read (List Json) :=
  match fuel with
  | 0 => .error .notJson
  | fuel + 1 =>
    match value fuel cs with
    | .error e => .error e
    | .ok (v, rest) =>
      match skip rest with
      | ']' :: rest => .ok ((v :: done).reverse, rest)
      | ',' :: rest => items fuel (v :: done) (skip rest)
      | _ => .error .notJson

def members (fuel : Nat) (done : List (String × Json)) (cs : List Char) :
    Read (List (String × Json)) :=
  match fuel with
  | 0 => .error .notJson
  | fuel + 1 =>
    match cs with
    | '"' :: rest =>
      match stringBody rest.length.succ [] rest with
      | .error e => .error e
      | .ok (key, rest) =>
        match skip rest with
        | ':' :: rest =>
          match value fuel (skip rest) with
          | .error e => .error e
          | .ok (v, rest) =>
            match skip rest with
            | '\x7d' :: rest => .ok (put done key v, rest)
            | ',' :: rest => members fuel (put done key v) (skip rest)
            | _ => .error .notJson
        | _ => .error .notJson
    | _ => .error .notJson

end

def read (s : String) : Except Error Json :=
  let cs := s.toList
  match value (2 * cs.length + 2) (skip cs) with
  | .error e => .error e
  | .ok (v, rest) => if (skip rest).isEmpty then .ok v else .error .notJson

end SwanModel.Json
