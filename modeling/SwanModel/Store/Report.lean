import SwanModel.Store.Show

/-! # Reports -/

namespace SwanModel

/-- The text of a thing. -/
inductive ReportText where
  /-- The thing is no construct and no pragma. -/
  | notAsked
  /-- The construct has no text of its own. -/
  | silent
  | made (text : Except Error String)

/-- A report on a thing. -/
structure Report where
  text : ReportText
  value : Option Shown

namespace Work

def isObject (store : Store) : Slot → Bool
  | .atom (.pragma _) => true
  | slot => (store.form? slot).isSome

def reportText (slot : Slot) : Work ReportText := do
  let store ← store
  if isObject store slot then
    match store.form? slot with
    | some form => if form.isSilent then return .silent else return .made (← settle (print slot))
    | none => return .made (← settle (print slot))
  else
    return .notAsked

def report (textOnly : Bool) (slot : Slot) : Work Report := do
  let text ← reportText slot
  if textOnly && isObject (← store) slot then return ⟨text, none⟩
  return ⟨text, some (← shown slot)⟩

end Work

/-- Runs a computation in a new workspace, and gives its outcome and what reading has left
behind. -/
def Work.runNew (reader : Reader) (reading : Reading) (work : Work α) :
    Except Error α × Reading :=
  let (result, workspace) := ((Work.settle work) reader).run { reading := reading }
  match result with
  | .ok result => (result, workspace.reading)
  | .error e => (.error e, workspace.reading)

end SwanModel
