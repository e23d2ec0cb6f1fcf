import SwanModel.Text.Blank
import SwanModel.Text.Word
import SwanModel.Text.Words

/-! # Pragmas -/

namespace SwanModel.Name

open Text

/-- Key and value of a pragma. -/
structure PragmaParts where
  key : String
  value : String
deriving DecidableEq, Repr

/-- The text before the last occurrence of a word. -/
def beforeLast (word : List Char) : List Char → Option (List Char)
  | [] => if word.isEmpty then some [] else none
  | c :: cs =>
    match beforeLast word cs with
    | some front => some (c :: front)
    | none => if word.isPrefixOf (c :: cs) then some [] else none

def pragmaWord : List Char := "pragma".toList

def pragmaEnd : List Char := "#end".toList

/-- The blanks behind the opening word. -/
def pragmaBody (s : String) : Option (List Char) :=
  match dropWord pragmaWord s.toList with
  | some (c :: cs) => if isBlank c then some (cs.dropWhile isBlank) else none
  | _ => none

/-- The key and the text behind the one blank that follows it. -/
def pragmaKey (cs : List Char) : Option (List Char × List Char) :=
  match cs.takeWhile isWord, cs.dropWhile isWord with
  | [], _ => none
  | key, c :: rest => if isBlank c then some (key, rest) else none
  | _, [] => none

/-- Key and value of a pragma, if the text is one. -/
def readPragma (s : String) : Option PragmaParts := do
  let body ← pragmaBody s
  let (key, rest) ← pragmaKey body
  let value ← beforeLast pragmaEnd (rest.takeWhile (· != '\n'))
  return ⟨String.ofList key, String.ofList (strip value)⟩

end SwanModel.Name
