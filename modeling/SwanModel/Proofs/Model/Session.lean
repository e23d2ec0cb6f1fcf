import SwanModel.Proofs.Model.Generator

/-!
# Queries side by side

Any number of generators share a model. A session makes one move at a time.
-/

namespace SwanModel

variable {supply : Supply} {b b' : Browser}

/-- A model under work and the queries under way. -/
structure Session where
  browser : Browser
  generators : List Generator := []

inductive Move where
  /-- Starts a query. -/
  | query (selection : Selection)
  /-- Takes the next thing from a generator. -/
  | next (i : Nat)
  /-- Finds the first thing that a selection gives. -/
  | find (selection : Selection)

/-- What came of a move, and the sources that were tried. -/
structure Event where
  outcome : Except Error (Option Slot) := .ok none
  tried : List Try := []

namespace Session

def opening (sources : List SwanFile) (workspace : Workspace) : Session :=
  ⟨⟨.ofSources sources, workspace⟩, []⟩

def step (supply : Supply) (s : Session) : Move → Event × Session
  | .query selection => ({}, { s with generators := s.generators ++ [.start selection s.browser.model] })
  | .next i =>
    match s.generators[i]? with
    | some g =>
      let pull := g.next supply s.browser
      (⟨pull.outcome, pull.tried⟩, ⟨pull.browser, s.generators.set i pull.generator⟩)
    | none => ({}, s)
  | .find selection =>
    let pull := (Generator.start selection s.browser.model).next supply s.browser
    (⟨pull.outcome, pull.tried⟩, { s with browser := pull.browser })

def run (supply : Supply) (s : Session) : List Move → List Event × Session
  | [] => ([], s)
  | move :: rest =>
    let stepped := s.step supply move
    let ran := stepped.2.run supply rest
    (stepped.1 :: ran.1, ran.2)

end Session

/-! ### What a step does to the model -/

theorem seekIn_looking (selection : Selection) (rest : List Slot) (b : Browser) :
    Looking supply b (selection.seekIn supply rest b).2 := by
  induction rest generalizing b with
  | nil => exact Lasting.refl supply b
  | cons declaration rest ih =>
    have looks := selection.looks declaration
    rw [Selection.seekIn]
    rcases ran : perform (selection.pick declaration) supply b with ⟨e | _ | ⟨slot, more⟩, b'⟩
    · exact looks.after ran
    · exact Lasting.trans (looks.after ran) (ih b')
    · exact looks.after ran

theorem seek_loading {selection : Selection} {ahead : List Nat} {onward : Browser → Pull}
    (later : ∀ b, Loading supply b (onward b).browser) (rest : List Slot) (b : Browser) :
    Loading supply b (selection.seek supply ahead onward rest b).browser := by
  have first : Looking supply b _ := seekIn_looking selection rest b
  rw [Selection.seek]
  rcases sought : selection.seekIn supply rest b with ⟨_ | _ | _, b'⟩
  · rw [sought] at first
    exact Lasting.trans first.loading (later b')
  · rw [sought] at first
    exact first.loading
  · rw [sought] at first
    exact first.loading

theorem enter_loading (selection : Selection) (ahead : List Nat) (b : Browser) :
    Loading supply b (selection.enter supply ahead b).browser := by
  induction ahead generalizing b with
  | nil => exact Lasting.refl supply b
  | cons position ahead ih =>
    rw [Selection.enter]
    rcases ran : perform (Browse.declarationsAt position) supply b with ⟨e | declarations, b'⟩
    · exact Keeps.after ran
    · exact Lasting.trans (Keeps.after ran) (seek_loading ih declarations b')

theorem next_loading (g : Generator) (b : Browser) : Loading supply b (g.next supply b).browser := by
  rw [Generator.next]
  split
  · exact Lasting.refl supply b
  · exact seek_loading (enter_loading g.selection g.cursor.ahead) g.cursor.rest b

theorem step_loading (s : Session) (move : Move) :
    Loading supply s.browser (s.step supply move).2.browser := by
  cases move with
  | query selection => exact Lasting.refl supply s.browser
  | next i =>
    rw [Session.step]
    split
    · exact next_loading _ s.browser
    · exact Lasting.refl supply s.browser
  | find selection => exact next_loading _ s.browser

theorem run_loading (s : Session) (moves : List Move) :
    Loading supply s.browser (s.run supply moves).2.browser := by
  induction moves generalizing s with
  | nil => exact Lasting.refl supply s.browser
  | cons move rest ih => exact Lasting.trans (step_loading s move) (ih (s.step supply move).2)

theorem Session.opening_faithful (sources : List SwanFile) (workspace : Workspace) :
    (opening sources workspace).browser.Faithful supply := by
  intro position module found
  have absent : (Model.ofSources sources).module? position = none := by
    cases source : sources[position]? <;> simp [Model.ofSources, Model.module?, source]
  exact absurd (absent.symm.trans found) (by simp)

end SwanModel
