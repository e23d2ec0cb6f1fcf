import SwanModel.Text.Blank
import SwanModel.Text.Word
import SwanModel.Text.Words

/-!
# Identifiers, paths and luids as texts

The recognisers of the spelling of names. A line feed at the very end of a text is passed over by
all of them.
-/

namespace SwanModel.Name

open Text

/-- The end of a text, or a line feed that ends it. -/
def atEnd : List Char → Bool
  | [] => true
  | ['\n'] => true
  | _ => false

def dropIdentifier : List Char → Option (List Char)
  | c :: cs => if c.isAlpha then some (cs.dropWhile isAsciiWord) else none
  | [] => none

/-- A letter and word characters. -/
def isIdentifier (s : String) : Bool := (dropIdentifier s.toList).any atEnd

/-- What follows an identifier in a path: the end, or a separator and the rest of the path. The
first argument bounds the number of steps. -/
def isPathTail (dropSeparator : List Char → Option (List Char)) : Nat → List Char → Bool
  | 0, _ => false
  | fuel + 1, cs =>
    atEnd cs ||
      match (dropSeparator cs).bind dropIdentifier with
      | some rest => isPathTail dropSeparator fuel rest
      | none => false

/-- Identifiers with separators between them. -/
def isSeparated (dropSeparator : List Char → Option (List Char)) (cs : List Char) : Bool :=
  (dropIdentifier cs).any (isPathTail dropSeparator (cs.length + 1))

/-- The separator of paths, with blanks around it. -/
def dropColons (cs : List Char) : Option (List Char) :=
  (dropWord [':', ':'] (cs.dropWhile isAsciiBlank)).map (·.dropWhile isAsciiBlank)

/-- Identifiers with `::` between them. -/
def isPath (s : String) : Bool := isSeparated dropColons s.toList

/-- Identifiers with a hyphen between them, as in the name of a module file. -/
def isFilePath (s : String) : Bool := isSeparated (dropWord ['-']) s.toList

def dropHash : List Char → List Char
  | '#' :: cs => cs
  | cs => cs

/-- A word character, then word characters and hyphens. -/
def isLuidBody : List Char → Bool
  | c :: cs => isWord c && atEnd (cs.dropWhile fun d => isWord d || d == '-')
  | [] => false

/-- A luid, with or without its number sign. -/
def isLuid (s : String) : Bool := isLuidBody (dropHash s.toList)

/-! ### Splitting paths -/

/-- How a text names a module. -/
inductive PathText where
  /-- Identifiers, the outermost first. -/
  | names (names : List String)
  /-- A text that is no path, kept as it is. -/
  | verbatim (text : String)
deriving DecidableEq, Repr

def readPath (s : String) : PathText :=
  if isFilePath s then .names ((split ['-'] s.toList).map String.ofList)
  else if isPath s then .names ((split [':', ':'] s.toList).map (String.ofList ∘ strip))
  else .verbatim s

end SwanModel.Name
