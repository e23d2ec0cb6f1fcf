import SwanModel.Command.Option

/-! # Help -/

namespace SwanModel.Command

/-- A command with the commands inside it, each with its help. -/
structure Program where
  menu : Menu
  inner : List (Menu × String) := []
deriving Inhabited

namespace Program

def innerName (c : Menu) : String :=
  String.ofList ((c.title.toList.reverse.takeWhile (· != ' ')).reverse)

/-- The choice of a command, as it is written in messages. -/
def innerTitle (program : Program) : String :=
  "\x7b" ++ ",".intercalate (program.inner.map (innerName ·.1)) ++ "\x7d"

end Program

def helpWidth : Nat := 78

def Choice.placeholder (choice : Choice) : String := choice.key.map Char.toUpper

def Choice.withArgument (choice : Choice) (name : String) : String :=
  if choice.action.takesArgument then name ++ " " ++ choice.placeholder else name

def Choice.usage (choice : Choice) : String :=
  choice.withArgument (choice.names.headD "")

namespace Menu

/-- The options on the line of usage; those that exclude each other stand together. -/
def usageParts (menu : Menu) : List String :=
  menu.choices.filterMap fun c =>
    match menu.exclusive.find? (·.contains c.key) with
    | none => some (if c.required then c.usage else "[" ++ c.usage ++ "]")
    | some group =>
      if group.head? == some c.key then
        let members := menu.choices.filter fun c => group.contains c.key
        some ("[" ++ " | ".intercalate (members.map Choice.usage) ++ "]")
      else
        none

end Menu

/-- Parts put on lines; a part that does not fit begins a new line behind an indent. -/
def breakLines (indent : Nat) (used : Nat) (line : List String) : List String → List String
  | [] => if line.isEmpty then [] else [" ".intercalate line]
  | part :: rest =>
    if helpWidth < used + 1 + part.length && !line.isEmpty then
      " ".intercalate line :: breakLines indent (indent + part.length) [part] rest
    else
      breakLines indent (used + 1 + part.length) (line ++ [part]) rest

/-- What stands before the line of usage. -/
def usageStart : String := "usage: "

def Program.usage (program : Program) : String :=
  let options := program.menu.usageParts
  let commands := if program.inner.isEmpty then [] else [program.innerTitle, "..."]
  let title := program.menu.title
  let whole := usageStart ++ " ".intercalate (title :: options ++ commands)
  if whole.length ≤ helpWidth then
    whole ++ "\n"
  else
    let indent := usageStart.length + title.length + 1
    let lines := breakLines indent (usageStart.length - 1) [] (title :: options)
      ++ breakLines indent (indent - 1) [] commands
    usageStart ++ ("\n" ++ String.ofList (List.replicate indent ' ')).intercalate lines ++ "\n"

/-- A row of a table: an indent, a title and its help. -/
structure Row where
  indent : Nat
  title : String
  help : String

def Row.print (column : Nat) (row : Row) : String :=
  let front := String.ofList (List.replicate row.indent ' ') ++ row.title
  if row.help.isEmpty then front ++ "\n"
  else front ++ String.ofList (List.replicate (column - front.length) ' ') ++ row.help ++ "\n"

def Program.commandRows (program : Program) (help : String) : List Row :=
  ⟨2, program.innerTitle, help⟩ :: program.inner.map fun (c, help) =>
    ⟨4, Program.innerName c, help⟩

def Choice.row (choice : Choice) : Row :=
  ⟨2, ", ".intercalate (choice.names.map choice.withArgument), choice.help⟩

/-- What the help says on the commands of a program. -/
def commandsHelp : String := "sub-commands, command --help for help"

def Program.help (program : Program) : String :=
  let options := program.menu.choices.map Choice.row
  let commands := if program.inner.isEmpty then [] else program.commandRows commandsHelp
  let column := (((options ++ commands).map fun row => 2 + row.title.length).foldl max 0) + 2
  let table (title : String) (rows : List Row) : List String :=
    if rows.isEmpty then [] else [title ++ ":\n" ++ String.join (rows.map (Row.print column))]
  let paragraph (text : String) : List String := if text.isEmpty then [] else [text ++ "\n"]
  "\n".intercalate ([program.usage] ++ paragraph program.menu.description
    ++ table "positional arguments" commands ++ table "options" options
    ++ paragraph program.menu.epilogue)

end SwanModel.Command
