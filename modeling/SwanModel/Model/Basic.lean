import SwanModel.Files.Source
import SwanModel.Reading.Parse
import SwanModel.Store.Owners

/-!
# Models

A model holds the sources of a project in order. A cursor goes through the declarations of all
modules; it loads a source only when it gets there, and what is loaded stays.
-/

namespace SwanModel

/-- The sources of a project, each with its module once it is loaded. -/
structure Model where
  entries : List (SwanFile × Option Nat) := []
deriving Inhabited

namespace Model

def ofSources (sources : List SwanFile) : Model := ⟨sources.map (·, none)⟩

def sources (model : Model) : List SwanFile := model.entries.map (·.1)

def positions (model : Model) : List Nat := List.range model.entries.length

def modules (model : Model) : List Nat := model.entries.filterMap (·.2)

def allLoaded (model : Model) : Bool := model.entries.all (·.2.isSome)

def source? (model : Model) (position : Nat) : Option SwanFile :=
  model.entries[position]?.map (·.1)

def module? (model : Model) (position : Nat) : Option Nat := model.entries[position]?.bind (·.2)

def put (model : Model) (position : Nat) (module : Nat) : Model :=
  ⟨model.entries.modify position fun entry => (entry.1, some module)⟩

def add (model : Model) (file : SwanFile) (module : Nat) : Model :=
  ⟨model.entries ++ [(file, some module)]⟩

end Model

/-- A model and the workspace that its modules are in. -/
structure Browser where
  model : Model
  workspace : Workspace := {}

/-- What loading takes from outside: files, and a reader of texts. -/
structure Supply where
  files : Files
  reader : Reader

/-- A computation on a model. What is loaded stays loaded when it fails. -/
abbrev Browse := ReaderT Supply (ExceptT Error (StateM Browser))

namespace Browse

def work (w : Work α) : Browse α := do
  let supply ← read
  let browser ← get
  let (result, workspace) := (w supply.reader).run browser.workspace
  set { browser with workspace := workspace }
  match result with
  | .ok a => return a
  | .error e => throw e

def model : Browse Model := return (← get).model

def modifyModel (f : Model → Model) : Browse Unit :=
  modify fun browser => { browser with model := f browser.model }

/-- The failure for a file that is neither a module nor an interface. -/
def unexpectedKind : Error :=
  .reported "Model.load_source: unexpected file kind \x7bswan.path\x7d"

def kindOf (file : SwanFile) : Except Error ModuleKind :=
  if file.isModule then .ok .body
  else if file.isInterface then .ok .interface
  else .error unexpectedKind

/-- Reads a file as a module, which belongs to the model. -/
def loadFile (file : SwanFile) : Browse Nat := do
  let files := (← read).files
  work do
    let kind ← Work.ofExcept (kindOf file)
    let (module, _) ← Work.ofConversion (parseModule kind (file.source files))
    match ← Work.load module with
    | .ref id =>
      Work.modifyStore (·.setOwner id .model)
      return id
    | _ => throw .missingMember

/-- Loads the source at a position, also if it is loaded. -/
def load (position : Nat) : Browse Nat := do
  match (← model).source? position with
  | some file =>
    let module ← loadFile file
    modifyModel (·.put position module)
    return module
  | none => throw .outOfRange

/-- The module at a position, which is loaded if it is not yet. -/
def moduleAt (position : Nat) : Browse Nat := do
  match (← model).module? position with
  | some module => return module
  | none => load position

/-- Loads every source, also those that are loaded. -/
def loadAll : Browse Unit := do
  (← model).positions.forM fun position => do
    let _ ← load position

/-- Loads a file that is not among the sources and adds it to them. -/
def loadNew (file : SwanFile) : Browse Nat := do
  let module ← loadFile file
  modifyModel (·.add file module)
  return module

/-- The position of the declarations among the parts of a module. -/
def declarationsIndex : Nat := 2

/-- The things in the list at a position inside a construct. -/
def itemsOf (id : Nat) (index : Nat) : Browse (List Slot) := work do
  let store ← Work.store
  match store.place? [index] (.ref id) with
  | some slot => Work.ofExcept (store.members slot)
  | none => throw .missingMember

def declarationsAt (position : Nat) : Browse (List Slot) := do
  itemsOf (← moduleAt position) declarationsIndex

end Browse

/-- A place among the declarations of a model: the declarations that are left of the module it is
in, and the positions of the sources that come after it. -/
structure Cursor where
  rest : List Slot := []
  ahead : List Nat

namespace Cursor

def start (model : Model) : Cursor := ⟨[], model.positions⟩

/-- The first declaration of the sources ahead, and the cursor behind it. -/
def enter : List Nat → Browse (Option (Slot × Cursor))
  | [] => return none
  | position :: ahead => do
    match ← Browse.declarationsAt position with
    | declaration :: rest => return some (declaration, ⟨rest, ahead⟩)
    | [] => enter ahead

/-- The next declaration and the cursor behind it. -/
def next (cursor : Cursor) : Browse (Option (Slot × Cursor)) :=
  match cursor.rest with
  | declaration :: rest => return some (declaration, { cursor with rest := rest })
  | [] => enter cursor.ahead

def eachIn (use : Slot → Browse (List α)) : List Slot → Browse (List α)
  | [] => return []
  | declaration :: rest => do
    let first ← use declaration
    return first ++ (← eachIn use rest)

/-- What the declarations of the sources ahead give. -/
def eachAhead (use : Slot → Browse (List α)) : List Nat → Browse (List α)
  | [] => return []
  | position :: ahead => do
    let first ← eachIn use (← Browse.declarationsAt position)
    return first ++ (← eachAhead use ahead)

/-- What the declarations that are left give, one after the other. -/
def each (use : Slot → Browse (List α)) (cursor : Cursor) : Browse (List α) := do
  let first ← eachIn use cursor.rest
  return first ++ (← eachAhead use cursor.ahead)

def findIn (test : Slot → Browse Bool) : List Slot → Browse (Option Slot)
  | [] => return none
  | declaration :: rest => do
    if ← test declaration then return some declaration else findIn test rest

/-- The first declaration of the sources ahead that passes a test. -/
def findAhead (test : Slot → Browse Bool) : List Nat → Browse (Option Slot)
  | [] => return none
  | position :: ahead => do
    match ← findIn test (← Browse.declarationsAt position) with
    | some declaration => return some declaration
    | none => findAhead test ahead

/-- The first declaration that is left and passes a test. -/
def find? (test : Slot → Browse Bool) (cursor : Cursor) : Browse (Option Slot) := do
  match ← findIn test cursor.rest with
  | some declaration => return some declaration
  | none => findAhead test cursor.ahead

end Cursor

end SwanModel
