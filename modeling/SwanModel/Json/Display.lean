import SwanModel.Json.Value
import SwanModel.Numeral.Decimal
import SwanModel.Numeral.Shortest

/-!
# JSON values in messages

`Json.display` is the text of a value where any value may stand in place of a text.
-/

namespace SwanModel.Json

open Numeral Text

mutual

def displayInside : Json → String
  | .null => "None"
  | .bool b => if b then "True" else "False"
  | .int n => textOfInt n
  | .real x => x.text
  | .str s => quoted s
  | .arr items => "[" ++ ", ".intercalate (displayItems items) ++ "]"
  | .obj fields => "\x7b" ++ ", ".intercalate (displayFields fields) ++ "\x7d"

def displayItems : List Json → List String
  | [] => []
  | v :: vs => displayInside v :: displayItems vs

def displayFields : List (String × Json) → List String
  | [] => []
  | (key, v) :: rest => (quoted key ++ ": " ++ displayInside v) :: displayFields rest

end

def display : Json → String
  | .str s => s
  | v => displayInside v

end SwanModel.Json
