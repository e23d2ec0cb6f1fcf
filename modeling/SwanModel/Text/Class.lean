/-!
# Character classes

A class is given by its boundaries: the code points, in increasing order, at which membership
changes.
-/

namespace SwanModel.Text

/-- The code points at which membership changes, in increasing order; code point zero is outside. -/
structure CharClass where
  bounds : List Nat

/-- A character is inside when an odd number of boundaries lie at or below it. -/
def CharClass.contains (k : CharClass) (c : Char) : Bool :=
  (k.bounds.takeWhile (· ≤ c.toNat)).length % 2 == 1

end SwanModel.Text
