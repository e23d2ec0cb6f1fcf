import SwanModel.Text.Class

/-!
# Blanks

White space over all of Unicode (version 14), and its ASCII part.
-/

namespace SwanModel.Text

def blankClass : CharClass := ⟨[
  9, 14, 28, 33, 133, 134, 160, 161, 5760, 5761, 8192, 8203, 8232, 8234, 8239, 8240, 8287, 8288,
  12288, 12289]⟩

def isBlank (c : Char) : Bool := blankClass.contains c

/-- ASCII white space: blank, tab, line feed, vertical tab, form feed and carriage return. -/
def isAsciiBlank (c : Char) : Bool := c == ' ' || (9 ≤ c.toNat && c.toNat ≤ 13)

def stripOf (p : Char → Bool) (cs : List Char) : List Char :=
  ((cs.dropWhile p).reverse.dropWhile p).reverse

def strip (cs : List Char) : List Char := stripOf isBlank cs

end SwanModel.Text
