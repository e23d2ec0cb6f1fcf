import SwanModel.Text.Words

/-!
# Paths of files

A path is a root and a list of components. Two slashes at the front are a root of their own, more
than two are one.
-/

namespace SwanModel

/-- A path of a file or a directory. -/
structure FilePath where
  root : String
  parts : List String
deriving DecidableEq, Repr, Inhabited

namespace FilePath

def rootOf (cs : List Char) : String :=
  match cs with
  | '/' :: '/' :: '/' :: _ => "/"
  | '/' :: '/' :: _ => "//"
  | '/' :: _ => "/"
  | _ => ""

def ofText (s : String) : FilePath :=
  let pieces := (Text.split ['/'] s.toList).map String.ofList
  ⟨rootOf s.toList, pieces.filter fun p => !(p.isEmpty || p == ".")⟩

def text (p : FilePath) : String :=
  if p.root.isEmpty && p.parts.isEmpty then "." else p.root ++ "/".intercalate p.parts

def isAbsolute (p : FilePath) : Bool := !p.root.isEmpty

def name (p : FilePath) : String := p.parts.getLast?.getD ""

/-- The position of the last dot, if it is neither at the front nor at the end. -/
def dotIndex? (name : String) : Option Nat :=
  let cs := name.toList
  let behind := (cs.reverse.takeWhile (· != '.')).length
  if behind < cs.length && 0 < behind && behind + 1 < cs.length then some (cs.length - behind - 1)
  else none

def stem (p : FilePath) : String :=
  match dotIndex? p.name with
  | some i => String.ofList (p.name.toList.take i)
  | none => p.name

/-- The part of the last component from its last dot on. -/
def suffix (p : FilePath) : String :=
  match dotIndex? p.name with
  | some i => String.ofList (p.name.toList.drop i)
  | none => ""

/-- The directory of a path; that of a root or of no component at all is itself. -/
def parent (p : FilePath) : FilePath := { p with parts := p.parts.dropLast }

def join (directory p : FilePath) : FilePath :=
  if p.isAbsolute then p else { directory with parts := directory.parts ++ p.parts }

/-- The text of a path with slashes for backslashes, as it is shown. -/
def slashed (s : String) : String := Text.replaceChar '\\' '/' s

end FilePath

end SwanModel
