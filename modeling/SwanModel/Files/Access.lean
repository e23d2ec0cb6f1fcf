import SwanModel.Files.Tree

/-! # Access to files -/

namespace SwanModel

/-- What a program asks of a file system. -/
structure FileAccess (m : Type → Type) where
  readText : FilePath → m (Except Error String)
  isFile : FilePath → m Bool
  isDirectory : FilePath → m Bool

def Files.access (files : Files) : FileAccess Id where
  readText := files.readText
  isFile path :=
    match files.find path with
    | .ok (.file _) => true
    | _ => false
  isDirectory := files.isDirectory

end SwanModel
