import SwanModel.Command.Help
import SwanModel.Command.Word

/-!
# Reading a command line

The words of a command line are taken from left to right; those that nobody knows are collected.
-/

namespace SwanModel.Command

/-- Why a command line is not read to its end. -/
inductive Stop where
  /-- A text was asked for and is printed. -/
  | told (text : String)
  /-- The command line is wrong: the usage, the title of the command and what is wrong. -/
  | refused (usage title message : String)
deriving Repr

/-- What is read of a command line. -/
structure Progress where
  settings : Settings
  /-- The settings of the options that were given. -/
  given : List String := []
  unknown : List String := []
deriving Inhabited

namespace Program

def refuse (program : Program) (message : String) : Except Stop α :=
  .error (.refused program.usage program.menu.title message)

/-- Refuses the command line because of an option or a command. -/
def refuseAt (program : Program) (title message : String) : Except Stop α :=
  program.refuse ("argument " ++ title ++ ": " ++ message)

def apply (program : Program) (version : String) (progress : Progress) (choice : Choice)
    (argument : String) : Except Stop Progress :=
  match (program.menu.rivals choice).find? fun c => progress.given.contains c.key with
  | some rival => program.refuseAt choice.title ("not allowed with argument " ++ rival.title)
  | none =>
    match choice.action with
    | .help => .error (.told program.help)
    | .version => .error (.told (version ++ "\n"))
    | action =>
      let value := action.next argument (progress.settings.get choice.key)
      .ok { progress with
        settings := progress.settings.put choice.key value
        given := progress.given ++ [choice.key] }

/-- The message for an argument behind an option that takes none. -/
def ignored (argument : String) : String := "ignored explicit argument " ++ Text.quoted argument

/-- What a word with options gives: the options in it, the option at its end that takes the next
word, and the rest of it that nobody knows. -/
structure Bundle where
  taken : List (Choice × String) := []
  asking : Option Choice := none
  unknown : Option String := none

/-- The options that are written together in a word, from one on that stands before some
characters. -/
def bundle (program : Program) (choice : Choice) (taken : List (Choice × String)) :
    List Char → Except Stop Bundle
  | [] =>
    if choice.action.takesArgument then .ok { taken := taken, asking := some choice }
    else .ok { taken := taken ++ [(choice, "")] }
  | '=' :: argument =>
    if choice.action.takesArgument then
      .ok { taken := taken ++ [(choice, String.ofList argument)] }
    else
      program.refuseAt choice.title (ignored (String.ofList argument))
  | c :: rest =>
    if choice.action.takesArgument then
      .ok { taken := taken ++ [(choice, String.ofList (c :: rest))] }
    else if c == '-' then
      program.refuseAt choice.title (ignored (String.ofList (c :: rest)))
    else
      let taken := taken ++ [(choice, "")]
      match program.menu.names.lookup (String.ofList ['-', c]) with
      | none => .ok { taken := taken, unknown := some (String.ofList ('-' :: c :: rest)) }
      | some next => program.bundle next taken rest

def openMention (program : Program) (m : Mention) (choice : Choice) : Except Stop Bundle :=
  match m.inline with
  | none => program.bundle choice [] []
  | some argument =>
    if choice.action.takesArgument then .ok { taken := [(choice, argument)] }
    else if m.separated || beginsWith "--" m.name then
      program.refuseAt choice.title (ignored argument)
    else
      program.bundle choice [] argument.toList

def applyAll (program : Program) (version : String) (progress : Progress)
    (taken : List (Choice × String)) : Except Stop Progress :=
  taken.foldlM (fun progress (choice, argument) => program.apply version progress choice argument)
    progress

/-- Takes the option in a word; the answer says whether the next word is used too. -/
def takeMention (program : Program) (version : String) (progress : Progress) (m : Mention)
    (next : Option Word) : Except Stop (Progress × Bool) :=
  match m.choice with
  | none => .ok ({ progress with unknown := progress.unknown ++ [m.name] }, false)
  | some choice => do
    let b ← program.openMention m choice
    let progress := { progress with unknown := progress.unknown ++ b.unknown.toList }
    match b.asking, next with
    | none, _ => return (← program.applyAll version progress b.taken, false)
    | some asking, some ⟨argument, .argument⟩ =>
      return (← program.applyAll version progress (b.taken ++ [(asking, argument)]), true)
    | some asking, _ => program.refuseAt asking.title "expected one argument"

/-- Takes words from left to right. The first argument is given to `enter` with all words behind it,
if there are commands inside. -/
def takeWords (program : Program) (version : String)
    (enter : Progress → List String → Except Stop Progress) :
    List Word → Progress → Except Stop Progress
  | [], progress => .ok progress
  | word :: rest, progress =>
    match word.role with
    | .option m => do
      let (progress, usesNext) ← program.takeMention version progress m rest.head?
      match rest with
      | [] => return progress
      | next :: behind =>
        if usesNext then program.takeWords version enter behind progress
        else program.takeWords version enter (next :: behind) progress
    | .argument =>
      if program.inner.isEmpty then
        program.takeWords version enter rest { progress with unknown := progress.unknown ++ [word.text] }
      else
        enter progress (word.text :: rest.map (·.text))
    | .divider =>
      if program.inner.isEmpty || rest.isEmpty then
        program.takeWords version enter rest { progress with unknown := progress.unknown ++ [word.text] }
      else
        enter progress (word.text :: rest.map (·.text))
termination_by words => words.length

def readKnown (program : Program) (version : String)
    (enter : Progress → List String → Except Stop Progress) (line : List String) :
    Except Stop Progress := do
  let words ← match words program.menu line with
    | .ok words => .ok words
    | .error message => program.refuse message
  let progress ← program.takeWords version enter words { settings := program.menu.start }
  let missing := program.menu.choices.filter fun c => c.required && !progress.given.contains c.key
  if missing.isEmpty then return progress
  else
    program.refuse
      ("the following arguments are required: " ++ ", ".intercalate (missing.map Choice.title))

/-- Hands the words behind the name of a command inside the program to that command. -/
def enterInner (program : Program) (version : String) (progress : Progress) (line : List String) :
    Except Stop Progress :=
  let name := line.headD ""
  match program.inner.find? fun c => innerName c.1 == name with
  | some (menu, _) => do
    let inner := { menu : Program }
    let read ← inner.readKnown version (fun progress _ => .ok progress) line.tail
    return { progress with
      settings := progress.settings.merge read.settings
      unknown := progress.unknown ++ read.unknown }
  | none =>
    program.refuseAt program.innerTitle ("invalid choice: " ++ Text.quoted name ++ " (choose from "
      ++ ", ".intercalate (program.inner.map fun c => Text.quoted (innerName c.1)) ++ ")")

/-- Reads a command line; every word has to be known. -/
def read (program : Program) (version : String) (line : List String) : Except Stop Settings := do
  let progress ← program.readKnown version (program.enterInner version) line
  if progress.unknown.isEmpty then return progress.settings
  else program.refuse ("unrecognized arguments: " ++ " ".intercalate progress.unknown)

end Program

end SwanModel.Command
