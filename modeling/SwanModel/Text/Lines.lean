/-! # Lines -/

namespace SwanModel.Text

def isLineEnd (c : Char) : Bool :=
  [0x0A, 0x0B, 0x0C, 0x0D, 0x1C, 0x1D, 0x1E, 0x85, 0x2028, 0x2029].contains c.toNat

/-- The lines of a text, the first of which has begun with some characters in reverse. -/
def linesFrom (begun : List Char) : List Char → List (List Char)
  | [] => if begun.isEmpty then [] else [begun.reverse]
  | '\r' :: '\n' :: rest => begun.reverse :: linesFrom [] rest
  | c :: rest =>
    if isLineEnd c then begun.reverse :: linesFrom [] rest else linesFrom (c :: begun) rest

def lines (s : String) : List String := (linesFrom [] s.toList).map String.ofList

end SwanModel.Text
