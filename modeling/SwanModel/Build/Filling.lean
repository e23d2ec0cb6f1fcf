import SwanModel.Property.Basic

/-!
# From arguments to parts

`Form.fill` says what the parts of a new construct are: most are the arguments as they are given.
-/

namespace SwanModel

/-- Where a part of a new construct comes from. -/
inductive Filling where
  /-- The argument at a position, as it is. -/
  | given (i : Nat)
  /-- A new value. -/
  | fresh (t : Term)

namespace Filling

/-- The argument at a position, or a new empty list if it counts as false. -/
def orEmpty (args : List Term) (i : Nat) : Filling :=
  if (partAt args i).isTruthy then .given i else .fresh (.list [])

/-- All arguments as they are, but for those at some positions, which may be left out. -/
def allBut (empty : List Nat) (args : List Term) : List Filling :=
  (List.range args.length).map fun i => if empty.contains i then orEmpty args i else .given i

def term (args : List Term) : Filling → Term
  | .given i => partAt args i
  | .fresh t => t

end Filling

open Filling

/-- An identifier has a text. -/
def fillIdentifier (args : List Term) : Except Error (List Filling) :=
  if (partAt args 0).isText then .ok (allBut [1] args) else .error .wrongKind

/-- A luid is kept without its number sign. -/
def fillLuid (args : List Term) : Except Error (List Filling) :=
  match partAt args 0 with
  | .text s =>
    match s.toList with
    | [] => .error .outOfRange
    | '#' :: rest => .ok [.fresh (.text (String.ofList rest))]
    | _ => .ok [.given 0]
  | .list [] => .error .outOfRange
  | .list (.text "#" :: rest) => .ok [.fresh (.list rest)]
  | .list _ => .ok [.given 0]
  | _ => .error .wrongKind

/-- A clock has a pattern or is negated, not both. -/
def fillClock (args : List Term) : Except Error (List Filling) :=
  if (partAt args 1).isTruthy && (partAt args 2).isTruthy then
    .error (.reported "ClockExpr: not and pattern together")
  else
    .ok (allBut [] args)

/-- Last and default values are given apart or shared. -/
def fillLastDefault (args : List Term) : Except Error (List Filling) :=
  let own := (partAt args 0).isTruthy || (partAt args 1).isTruthy
  let shared := (partAt args 2).isTruthy
  if shared == own then .error (.reported "Invalid ForwardLastDefault construction")
  else .ok (allBut [] args)

def Form.fill (form : Form) (args : List Term) : Except Error (List Filling) :=
  match form with
  | .name .identifier => fillIdentifier args
  | .name .luid => fillLuid args
  | .part .clock => fillClock args
  | .forward .lastDefault => fillLastDefault args
  | .forward .returnArray => .ok [.given 0, .fresh .anyIdentifier]
  | .equation .forkTree => .ok (allBut [1] args)
  | .equation .state => .ok (allBut [1, 2, 3] args)
  | .equation .machine => .ok (allBut [1] args)
  | .diagram .object => .ok (allBut [1] args)
  | .diagram .expression | .diagram .definition | .diagram .group | .diagram .sectionObject =>
    .ok (allBut [2] args)
  | .diagram .block | .diagram .wire => .ok (allBut [3] args)
  | .scope .verbatim => .error .wrongKind
  | .decl .signature => .ok (allBut [4, 5, 7] args)
  | .decl .operator => .ok (allBut [5, 6, 8] args ++ [.fresh (.truth false)])
  | .module .bare | .module .body | .module .interface => .ok (allBut [1, 2] args)
  | _ => .ok (allBut [] args)

end SwanModel
