import SwanModel.Information.Basic

/-! # Sessions with information -/

namespace SwanModel

/-- A step of a session with information. -/
inductive InformationStep where
  | contains (key : String)
  | get (key : String)
  | put (key : String) (place : Information.Place) (value : Json)
  /-- An inspection of the information as a whole, with its model tree. -/
  | tree

/-- What a step answers. -/
inductive InformationAnswer where
  | value (j : Json)
  | view (shown : Information.View)

namespace Information

def take (info : Information) : InformationStep → Except Error InformationAnswer × Information
  | .contains key => (.ok (.value (.bool (info.contains key))), info)
  | .get key =>
    let (value, info) := info.get key
    (.ok (.value value.json), info)
  | .put key place value =>
    let (done, info) := info.put key place value
    (done.map fun _ => .value .null, info)
  | .tree =>
    let (shown, info) := info.inspect
    (.ok (.view shown), info)

def run (info : Information) : List InformationStep → List (Except Error InformationAnswer)
  | [] => []
  | step :: rest =>
    let (answer, info) := info.take step
    answer :: info.run rest

end Information

end SwanModel
