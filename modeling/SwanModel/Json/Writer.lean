import SwanModel.Json.Value
import SwanModel.Numeral.Shortest
import SwanModel.Text.Quoted

/-! # Writing JSON -/

namespace SwanModel.Json

open Numeral Text

/-- How values are written. -/
structure Style where
  /-- White space of one level; without it everything stands on one line. -/
  indent : Option String := none
  sortKeys : Bool := false
  /-- Whether characters beyond ASCII are written as escapes. -/
  ascii : Bool := true
  /-- Between items; by default a comma, and a blank when everything stands on one line. -/
  itemSeparator : Option String := none
  keySeparator : String := ": "
  /-- Whether infinities and "not a number" may be written. -/
  allowNan : Bool := true
deriving Repr, Inhabited

def Style.comma (style : Style) : String :=
  style.itemSeparator.getD (if style.indent.isSome then "," else ", ")

def unitEscape (n : Nat) : List Char := '\\' :: 'u' :: hex 4 n

def stringChar (ascii : Bool) (c : Char) : List Char :=
  if c == '"' || c == '\\' then ['\\', c]
  else if c == '\n' then ['\\', 'n']
  else if c == '\r' then ['\\', 'r']
  else if c == '\t' then ['\\', 't']
  else if c == '\x08' then ['\\', 'b']
  else if c == '\x0c' then ['\\', 'f']
  else if c.toNat < 0x20 then unitEscape c.toNat
  else if ascii && c.toNat ≥ 0x10000 then
    let n := c.toNat - 0x10000
    unitEscape (0xd800 + n / 0x400) ++ unitEscape (0xdc00 + n % 0x400)
  else if ascii && c.toNat ≥ 0x7f then unitEscape c.toNat
  else [c]

def writeString (ascii : Bool) (s : String) : String :=
  String.ofList ('"' :: s.toList.flatMap (stringChar ascii) ++ ['"'])

def writeReal (x : Binary64) : String :=
  if x.isFinite then x.text
  else if x.isNan then "NaN"
  else if x.isNegative then "-Infinity"
  else "Infinity"

def Style.newline (style : Style) (depth : Nat) : String :=
  match style.indent with
  | none => ""
  | some blank => "\n" ++ String.join (List.replicate depth blank)

/-- Items between brackets, each on a line of its own if there is an indent. -/
def Style.enclose (style : Style) (depth : Nat) (opening closing : String) (items : List String) :
    String :=
  match items with
  | [] => opening ++ closing
  | _ => opening ++ style.newline (depth + 1)
      ++ (style.comma ++ style.newline (depth + 1)).intercalate items
      ++ style.newline depth ++ closing

def Style.order (style : Style) (fields : List (String × α)) : List (String × α) :=
  if style.sortKeys then fields.mergeSort fun a b => decide (a.1 ≤ b.1) else fields

mutual

def writeAt (style : Style) (depth : Nat) : Json → String
  | .null => "null"
  | .bool b => if b then "true" else "false"
  | .int n => textOfInt n
  | .real x => writeReal x
  | .str s => writeString style.ascii s
  | .arr items => style.enclose depth "[" "]" (writeItems style (depth + 1) items)
  | .obj fields =>
    style.enclose depth "\x7b" "\x7d" ((style.order (writeFields style (depth + 1) fields)).map
      fun (key, text) => writeString style.ascii key ++ style.keySeparator ++ text)

def writeItems (style : Style) (depth : Nat) : List Json → List String
  | [] => []
  | v :: vs => writeAt style depth v :: writeItems style depth vs

def writeFields (style : Style) (depth : Nat) : List (String × Json) → List (String × String)
  | [] => []
  | (key, v) :: rest => (key, writeAt style depth v) :: writeFields style depth rest

end

mutual

def allFinite : Json → Bool
  | .real x => x.isFinite
  | .arr items => allFiniteItems items
  | .obj fields => allFiniteFields fields
  | _ => true

def allFiniteItems : List Json → Bool
  | [] => true
  | v :: vs => allFinite v && allFiniteItems vs

def allFiniteFields : List (String × Json) → Bool
  | [] => true
  | (_, v) :: rest => allFinite v && allFiniteFields rest

end

def write (style : Style) (v : Json) : Except Error String :=
  if style.allowNan || allFinite v then .ok (writeAt style 0 v) else .error .unusable

end SwanModel.Json
