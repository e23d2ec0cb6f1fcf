import SwanModel.Command.Option
import SwanModel.Text.Digit
import SwanModel.Text.Words

/-!
# Words of a command line

A word is an argument or names an option. After two dashes every word is an argument.
-/

namespace SwanModel.Command

/-- An option as it stands in a word: the option if it is known, the name it goes by, and the
argument behind it in the same word. -/
structure Mention where
  choice : Option Choice
  name : String
  inline : Option String := none
  /-- Whether an equals sign stands before the argument. -/
  separated : Bool := false
deriving Repr, Inhabited

/-- What a word is. -/
inductive Role where
  | argument
  /-- Two dashes. -/
  | divider
  | option (m : Mention)
deriving Repr, Inhabited

/-- A word of a command line. -/
structure Word where
  text : String
  role : Role
deriving Repr, Inhabited

def cutAtEquals (s : String) : String × Option String :=
  let cs := s.toList
  let front := cs.takeWhile (· != '=')
  match cs.drop front.length with
  | [] => (s, none)
  | _ :: behind => (String.ofList front, some (String.ofList behind))

def beginsWith (start s : String) : Bool := start.toList.isPrefixOf s.toList

/-- The options that a word with two dashes may be short for. -/
def longMentions (menu : Menu) (s : String) : List Mention :=
  let (name, inline) := cutAtEquals s
  (menu.names.filter (beginsWith name ·.1)).map fun (full, choice) =>
    ⟨some choice, full, inline, inline.isSome⟩

/-- The options that a word with one dash may be short for. -/
def shortMentions (menu : Menu) (s : String) : List Mention :=
  let short := String.ofList (s.toList.take 2)
  menu.names.filterMap fun (full, choice) =>
    if full == short then some ⟨some choice, full, some (String.ofList (s.toList.drop 2)), false⟩
    else if beginsWith s full then some ⟨some choice, full, none, false⟩
    else none

def withoutLineFeed (cs : List Char) : List Char :=
  if cs.getLast? == some '\n' then cs.dropLast else cs

def isNegativeNumber (s : String) : Bool :=
  match withoutLineFeed s.toList with
  | '-' :: cs =>
    let whole := cs.takeWhile Text.isDigit
    match cs.drop whole.length with
    | [] => !whole.isEmpty
    | '.' :: part => !part.isEmpty && part.all Text.isDigit
    | _ => false
  | _ => false

/-- The message for a word that may be short for several options. -/
def ambiguous (s : String) (mentions : List Mention) : String :=
  "ambiguous option: " ++ s ++ " could match " ++ ", ".intercalate (mentions.map (·.name))

/-- The role of a word that begins with a dash and is no option by itself. -/
def guess (menu : Menu) (s : String) : Except String Role :=
  let mentions := if beginsWith "--" s then longMentions menu s else shortMentions menu s
  match mentions with
  | [m] => .ok (.option m)
  | _ :: _ :: _ => .error (ambiguous s mentions)
  | [] =>
    if isNegativeNumber s || s.toList.contains ' ' then .ok .argument
    else .ok (.option ⟨none, s, none, false⟩)

def roleOf (menu : Menu) (s : String) : Except String Role :=
  if !beginsWith "-" s then .ok .argument
  else
    match menu.names.lookup s with
    | some choice => .ok (.option ⟨some choice, s, none, false⟩)
    | none =>
      if s == "-" then .ok .argument
      else
        match cutAtEquals s with
        | (name, some inline) =>
          match menu.names.lookup name with
          | some choice => .ok (.option ⟨some choice, name, some inline, true⟩)
          | none => guess menu s
        | (_, none) => guess menu s

def words (menu : Menu) : List String → Except String (List Word)
  | [] => .ok []
  | "--" :: rest => .ok (⟨"--", .divider⟩ :: rest.map (⟨·, .argument⟩))
  | s :: rest => do
    let role ← roleOf menu s
    return ⟨s, role⟩ :: (← words menu rest)

end SwanModel.Command
