import SwanModel.Command.Arguments
import SwanModel.Command.Module
import SwanModel.Text.Lines
import SwanModel.Version

/-!
# The command line of the tool

The tool prints its settings. The command for scripts then looks for a script and runs it.
-/

namespace SwanModel.Command

variable {m : Type → Type} [Monad m]

def toolName : String := "pyscadeone"

def helpChoice : Choice where
  names := ["-h", "--help"]
  key := ""
  action := .help
  help := "show this help message and exit"

def codeCommand : Menu where
  title := toolName ++ " code"
  choices := [helpChoice,
    { names := ["--job"], key := "job", action := .store, required := true, help := "job name" },
    { names := ["--job-out"], key := "job_out", action := .store, help := "job output directory" }]

def testCommand : Menu where
  title := toolName ++ " test"
  choices := [helpChoice,
    { names := ["--test"], key := "test", action := .store, help := "execute test" }]

def scriptCommand : Menu where
  title := toolName ++ " script"
  choices := [helpChoice,
    { names := ["--file"], key := "script", action := .store, help := "load & run script file" },
    { names := ["--module"], key := "module", action := .store, help := "load & run module" },
    { names := ["--path"], key := "module_path", action := .append,
      help := "module path. Several --path can be given" }]

def tool : Program where
  menu :=
    { title := toolName
      choices := [helpChoice,
        { names := ["--version"], key := "version", action := .version,
          help := toolName ++ " version" },
        { names := ["--project"], key := "project", action := .store, help := "Scade One project" },
        { names := ["-v", "--verbosity"], key := "verbosity", action := .count },
        { names := ["-q", "--quiet"], key := "quiet", action := .flag }]
      exclusive := [["verbosity", "quiet"]]
      description := "Scade One API command line tool"
      epilogue := "For more information see <<pyscadeone one URL>>" }
  inner := [(codeCommand, "code generation command"), (testCommand, "testing command"),
    (scriptCommand, "script command")]

/-- How a run ends. -/
inductive Ending where
  /-- The program ends with a code, or without saying so. -/
  | exits (code : Option Nat)
  | fails (e : Error)
deriving DecidableEq, Repr

/-- A run: what is printed, what is printed on errors, and how it ends. -/
structure Run where
  output : String := ""
  complaint : String := ""
  ending : Ending

def expansionDepth : Nat := 980

/-- Why the words of a file cannot be had. -/
inductive Unread where
  /-- The system says why. -/
  | refused (message : String)
  | failed (e : Error)

/-- Puts the lines of files in place of the words that name them. -/
def expand (access : FileAccess m) : Nat → List String → ExceptT Unread m (List String)
  | 0, _ => throw (.failed .tooDeep)
  | depth + 1, line => do
    let parts ← line.mapM fun word => do
      match word.toList with
      | '@' :: name =>
        let name := String.ofList name
        match ← (if name.isEmpty then pure (.error .noSuchFile)
          else access.readText (.ofText name) : m (Except Error String)) with
        | .ok content => expand access depth (Text.lines content)
        | .error .unusable => throw (.failed .unusable)
        | .error e => throw (.refused (Files.explainName e name))
      | _ => return [word]
    return parts.flatten

/-- The module and the directories that the settings ask for; a script is a module in its own
directory. -/
def scriptOf (settings : Settings) : Except Error (Value × Value) :=
  match settings.lookup "script" with
  | none => .error .missingMember
  | some (.text script) =>
    if script.isEmpty then
      .ok (settings.get "module", settings.get "module_path")
    else
      let path := FilePath.ofText script
      if path.name.isEmpty then .error .unusable
      else .ok (.text path.stem, .texts [path.parent.text])
  | some _ => .ok (settings.get "module", settings.get "module_path")

def runScript (access : FileAccess m) (settings : Settings) : m Run := do
  let output := settings.print ++ "\n"
  match scriptOf settings with
  | .error e => return { output := output, ending := .fails e }
  | .ok (.text name, places) =>
    if name.isEmpty then
      return { output := output, ending := .exits none }
    else
      let directories := match places with
        | .texts items => items
        | _ => []
      match ← findModule access directories name with
      | .ok () => return { output := output, ending := .exits (some 0) }
      | .error message => return { output := output ++ message ++ "\n", ending := .exits (some 1) }
  | .ok _ => return { output := output, ending := .exits none }

def complain (usage title message : String) : Run :=
  { complaint := usage ++ title ++ ": error: " ++ message ++ "\n", ending := .exits (some 2) }

def run (access : FileAccess m) (line : List String) : m Run := do
  match ← (expand access expansionDepth line).run with
  | .error (.refused message) => return complain tool.usage toolName message
  | .error (.failed e) => return { ending := .fails e }
  | .ok line =>
    match tool.read versionText line with
    | .error (.told text) => return { output := text, ending := .exits (some 0) }
    | .error (.refused usage title message) => return complain usage title message
    | .ok settings => runScript access settings

end SwanModel.Command
