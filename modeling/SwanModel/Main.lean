import SwanModel.Command.Run

/-!
The command line of the tool on the files of the disk.
-/

open SwanModel

def causeOf : IO.Error → Error
  | .noFileOrDirectory .. => .noSuchFile
  | .inappropriateType .. => .isDirectory
  | _ => .unusable

def diskAccess : FileAccess IO where
  readText path := do
    try
      let content ← IO.FS.readFile path.text
      return .ok (String.ofList (Files.withLineFeeds content.toList))
    catch e => return .error (causeOf e)
  isFile path := do
    let place := (← IO.currentDir) / path.text
    return (← place.pathExists) && !(← place.isDir)
  isDirectory path := do ((← IO.currentDir) / path.text).isDir

def main (line : List String) : IO UInt32 := do
  let run ← Command.run diskAccess line
  IO.print run.output
  IO.eprint run.complaint
  match run.ending with
  | .exits code => return (code.getD 0).toUInt32
  | .fails _ => return 1
