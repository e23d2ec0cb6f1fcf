import SwanModel.Numeral.Binary64

/-!
# JSON values

Objects keep their keys in the order in which they came, and a key stands once.
-/

namespace SwanModel

/-- A JSON value. Integers and reals are told apart. -/
inductive Json where
  | null
  | bool (b : Bool)
  | int (n : Int)
  | real (x : Numeral.Binary64)
  | str (s : String)
  | arr (items : List Json)
  | obj (fields : List (String × Json))
deriving Repr, Inhabited

namespace Json

/-- Puts a value under a key: in the place of the old one if there is one, else at the end. -/
def put [BEq κ] (fields : List (κ × α)) (key : κ) (value : α) : List (κ × α) :=
  match fields with
  | [] => [(key, value)]
  | (k, v) :: rest => if k == key then (k, value) :: rest else (k, v) :: put rest key value

def lookup [BEq κ] (fields : List (κ × α)) (key : κ) : Option α := fields.lookup key

def member? (key : String) : Json → Option Json
  | .obj fields => lookup fields key
  | _ => none

def isObject : Json → Bool
  | .obj _ => true
  | _ => false

/-- Whether a value counts as true: everything but null, false, zero and what is empty. -/
def isTruthy : Json → Bool
  | .null => false
  | .bool b => b
  | .int n => n != 0
  | .real x => !x.isZero
  | .str s => !s.isEmpty
  | .arr items => !items.isEmpty
  | .obj fields => !fields.isEmpty

theorem lookup_put_self [BEq κ] [LawfulBEq κ] (fields : List (κ × α)) (key : κ) (value : α) :
    lookup (put fields key value) key = some value := by
  induction fields with
  | nil => simp [put, lookup]
  | cons field rest ih =>
    obtain ⟨k, v⟩ := field
    by_cases same : k = key
    · subst same
      simp [put, lookup]
    · have other : (key == k) = false := by simpa using fun h => same h.symm
      simpa [put, same, lookup, List.lookup_cons, other] using ih

theorem lookup_put_of_ne [BEq κ] [LawfulBEq κ] (fields : List (κ × α)) (key : κ) (value : α)
    {other : κ} (different : other ≠ key) :
    lookup (put fields key value) other = lookup fields other := by
  have apart : (other == key) = false := by simpa using different
  induction fields with
  | nil => simp [put, lookup, List.lookup_cons, apart]
  | cons field rest ih =>
    obtain ⟨k, v⟩ := field
    by_cases same : k = key
    · subst same
      simp [put, lookup, List.lookup_cons, apart]
    · have step : (k == key) = false := by simpa using same
      simp only [lookup] at ih
      simp [put, step, lookup, List.lookup_cons, ih]

end Json

end SwanModel
