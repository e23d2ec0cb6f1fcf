import SwanModel.Text.Quoted

/-! # Options of a command line -/

namespace SwanModel.Command

/-- What an option does. -/
inductive Action where
  /-- Prints the help of the command and ends the program. -/
  | help
  /-- Prints the version and ends the program. -/
  | version
  /-- Keeps the argument. -/
  | store
  /-- Adds the argument to those that were given before. -/
  | append
  /-- Counts how often the option is given. -/
  | count
  /-- Notes that the option is given. -/
  | flag
deriving DecidableEq, Repr, Inhabited

def Action.takesArgument : Action → Bool
  | .store | .append => true
  | _ => false

/-- An option of a command. -/
structure Choice where
  names : List String
  /-- The setting that the option writes. -/
  key : String
  action : Action
  required : Bool := false
  help : String := ""
deriving DecidableEq, Repr, Inhabited

/-- The name of an option in messages: all its names. -/
def Choice.title (choice : Choice) : String := "/".intercalate choice.names

/-- The value of a setting. -/
inductive Value where
  | absent
  | text (s : String)
  | texts (items : List String)
  | number (n : Nat)
  | truth (b : Bool)
deriving DecidableEq, Repr, Inhabited

def Value.print : Value → String
  | .absent => "None"
  | .text s => Text.quoted s
  | .texts items => "[" ++ ", ".intercalate (items.map Text.quoted) ++ "]"
  | .number n => toString n
  | .truth b => if b then "True" else "False"

/-- Settings in the order in which they came to be. -/
abbrev Settings := List (String × Value)

namespace Settings

def get (settings : Settings) (key : String) : Value := (settings.lookup key).getD .absent

def put (settings : Settings) (key : String) (value : Value) : Settings :=
  if settings.any (·.1 == key) then
    settings.map fun s => if s.1 == key then (key, value) else s
  else
    settings ++ [(key, value)]

def merge (settings others : Settings) : Settings :=
  others.foldl (fun settings (key, value) => settings.put key value) settings

def print (settings : Settings) : String :=
  "Namespace(" ++ ", ".intercalate (settings.map fun (key, value) => key ++ "=" ++ value.print)
    ++ ")"

end Settings

/-- The value of the setting of an option that is not given; help and version have no setting. -/
def Action.start? : Action → Option Value
  | .help | .version => none
  | .store | .append => some .absent
  | .count => some (.number 0)
  | .flag => some (.truth false)

def Action.next (action : Action) (argument : String) (value : Value) : Value :=
  match action, value with
  | .append, .texts items => .texts (items ++ [argument])
  | .append, _ => .texts [argument]
  | .count, .number n => .number (n + 1)
  | .count, _ => .number 1
  | .flag, _ => .truth true
  | _, _ => .text argument

/-- What a command offers: its title, its options and which of them exclude each other. -/
structure Menu where
  title : String
  choices : List Choice
  /-- Groups of options, by their settings, of which one at most may be given. -/
  exclusive : List (List String) := []
  description : String := ""
  epilogue : String := ""
deriving Repr, Inhabited

namespace Menu

def start (menu : Menu) : Settings :=
  menu.choices.filterMap fun c => c.action.start?.map (c.key, ·)

/-- The names of all options, each with its option. -/
def names (menu : Menu) : List (String × Choice) :=
  menu.choices.flatMap fun c => c.names.map (·, c)

def rivals (menu : Menu) (choice : Choice) : List Choice :=
  (menu.exclusive.filter (·.contains choice.key)).flatMap fun group =>
    menu.choices.filter fun c => group.contains c.key && c.key != choice.key

end Menu

end SwanModel.Command
