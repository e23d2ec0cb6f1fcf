import SwanModel.Proofs.Model.Faithful

/-!
# Generators

Asking a model for everything at once is going on until nothing is left (`collect_next`), and
finding a declaration is the first step of a generator (`find?_eq_next`).
-/

namespace SwanModel

variable {supply : Supply} {b b' : Browser}

/-! ### Selections -/

instance (slot : Slot) : Keeps Looking (Browse.formOf? slot) := by unfold Browse.formOf?; infer_instance

instance (slot : Slot) : Keeps Looking (Browse.titleOf slot) := by
  refine Keeps.bind inferInstance fun form => ?_
  split <;> infer_instance

instance (slot : Slot) : Keeps Looking (Browse.identifierText slot) := by
  refine work_looking (Keeps.bind inferInstance fun store => ?_)
  split <;> infer_instance

instance (test : DeclarationTest) (slot : Slot) : Keeps Looking (Browse.passes test slot) := by
  unfold Browse.passes
  split
  · infer_instance
  · infer_instance
  · infer_instance
  · refine Keeps.bind inferInstance fun form => ?_
    split <;> infer_instance

instance (block : ModuleForm) (slot : Slot) : Keeps Looking (Browse.blockMembers block slot) := by
  refine Keeps.bind inferInstance fun form => ?_
  split <;> infer_instance

instance (forms : List Form) (slot : Slot) : Keeps Looking (Browse.ofForms forms slot) := by
  refine Keeps.bind inferInstance fun form => ?_
  split <;> infer_instance

instance (query : ModelQuery) (slot : Slot) : Keeps Looking (Browse.select query slot) := by
  cases query <;> unfold Browse.select <;> infer_instance

/-- What a query takes from each declaration. -/
structure Selection where
  pick : Slot → Browse (List Slot)
  /-- Whether a generator goes on behind a declaration on which the selection fails. -/
  resumes : Bool
  /-- To look at a declaration loads nothing. -/
  looks : ∀ slot, Keeps Looking (pick slot)

namespace Selection

/-- The selection of a query; a filter goes on behind a declaration that cannot be tested. -/
def ofQuery (query : ModelQuery) : Selection where
  pick := Browse.select query
  resumes := match query with
    | .filter _ => true
    | _ => false
  looks := inferInstance

def satisfying (test : Slot → Browse Bool) (looks : ∀ slot, Keeps Looking (test slot)) : Selection where
  pick slot := do if ← test slot then return [slot] else return []
  resumes := true
  looks := inferInstance

end Selection

/-! ### Generators -/

/-- A query under way: what is found and not yet handed out, and where the query stands. -/
structure Generator where
  selection : Selection
  found : List Slot := []
  cursor : Cursor

abbrev Try := Nat × Except Error Nat

/-- A step of a generator: what it hands out, the sources tried on the way, and what is behind
it. -/
structure Pull where
  outcome : Except Error (Option Slot)
  tried : List Try
  generator : Generator
  browser : Browser

inductive Sought where
  | nothing
  | found (slot : Slot) (more rest : List Slot)
  | failed (e : Error) (rest : List Slot)

namespace Selection

/-- Goes through a list of declarations up to the first that gives something. -/
def seekIn (selection : Selection) (supply : Supply) : List Slot → Browser → Sought × Browser
  | [], b => (.nothing, b)
  | declaration :: rest, b =>
    match perform (selection.pick declaration) supply b with
    | (.ok [], b') => seekIn selection supply rest b'
    | (.ok (slot :: more), b') => (.found slot more rest, b')
    | (.error e, b') => (.failed e rest, b')

def finished (selection : Selection) : Generator := ⟨selection, [], ⟨[], []⟩⟩

def behind (selection : Selection) (cursor : Cursor) : Generator :=
  if selection.resumes then ⟨selection, [], cursor⟩ else selection.finished

/-- The attempt that entering the source at a position takes; a source that is loaded takes none. -/
def triedAt (supply : Supply) (b : Browser) (position : Nat) : List Try :=
  match b.model.module? position with
  | some _ => []
  | none => [(position, (perform (Browse.load position) supply b).1)]

/-- Goes on through a list of declarations, and onward when nothing is found in it. -/
def seek (selection : Selection) (supply : Supply) (ahead : List Nat) (onward : Browser → Pull)
    (rest : List Slot) (b : Browser) : Pull :=
  match selection.seekIn supply rest b with
  | (.nothing, b') => onward b'
  | (.found slot more rest, b') => ⟨.ok (some slot), [], ⟨selection, more, ⟨rest, ahead⟩⟩, b'⟩
  | (.failed e rest, b') => ⟨.error e, [], selection.behind ⟨rest, ahead⟩, b'⟩

/-- Goes on through the sources ahead, up to the first thing that is found. -/
def enter (selection : Selection) (supply : Supply) : List Nat → Browser → Pull
  | [], b => ⟨.ok none, [], selection.finished, b⟩
  | position :: ahead, b =>
    let tried := triedAt supply b position
    match perform (Browse.declarationsAt position) supply b with
    | (.error e, b') => ⟨.error e, tried, selection.finished, b'⟩
    | (.ok declarations, b') =>
      let pull := selection.seek supply ahead (selection.enter supply ahead) declarations b'
      { pull with tried := tried ++ pull.tried }

end Selection

namespace Generator

def start (selection : Selection) (model : Model) : Generator := ⟨selection, [], .start model⟩

def next (g : Generator) (supply : Supply) (b : Browser) : Pull :=
  match g.found with
  | slot :: more => ⟨.ok (some slot), [], { g with found := more }, b⟩
  | [] => g.selection.seek supply g.cursor.ahead (g.selection.enter supply g.cursor.ahead)
      g.cursor.rest b

def collect (g : Generator) : Browse (List Slot) := do
  return g.found ++ (← g.cursor.each g.selection.pick)

end Generator

def Pull.collect (pull : Pull) (supply : Supply) : Except Error (List Slot) × Browser :=
  match pull.outcome with
  | .ok (some slot) => perform (do return slot :: (← pull.generator.collect)) supply pull.browser
  | .ok none => (.ok [], pull.browser)
  | .error e => (.error e, pull.browser)

/-! ### Asking for everything -/

variable (selection : Selection)

theorem eachIn_seekIn (rest : List Slot) (b : Browser) :
    perform (Cursor.eachIn selection.pick rest) supply b = match selection.seekIn supply rest b with
      | (.nothing, b') => (.ok [], b')
      | (.found slot more rest', b') =>
        perform (do return slot :: (more ++ (← Cursor.eachIn selection.pick rest'))) supply b'
      | (.failed e _, b') => (.error e, b') := by
  induction rest generalizing b with
  | nil => rfl
  | cons declaration rest ih =>
    rw [Cursor.eachIn, Selection.seekIn, perform_bind]
    rcases perform (selection.pick declaration) supply b with ⟨e | _ | ⟨slot, more⟩, b'⟩
    · rfl
    · simp only [List.nil_append, bind_pure]
      exact ih b'
    · rfl

theorem eachAhead_cons (use : Slot → Browse (List Slot)) (position : Nat) (ahead : List Nat) :
    Cursor.eachAhead use (position :: ahead) =
      Browse.declarationsAt position >>= fun declarations => Cursor.each use ⟨declarations, ahead⟩ := by
  rw [Cursor.eachAhead]
  rfl

theorem found_collect (slot : Slot) (more rest : List Slot) (ahead : List Nat) :
    (do
      let first ← (do return slot :: (more ++ (← Cursor.eachIn selection.pick rest)))
      return first ++ (← Cursor.eachAhead selection.pick ahead)) =
      (do return slot :: (← Generator.collect ⟨selection, more, ⟨rest, ahead⟩⟩)) := by
  simp only [Generator.collect, Cursor.each, bind_assoc, pure_bind, List.cons_append, List.append_assoc]

theorem each_seek {ahead : List Nat} {onward : Browser → Pull}
    (later : ∀ b, perform (Cursor.eachAhead selection.pick ahead) supply b = (onward b).collect supply)
    (rest : List Slot) (b : Browser) :
    perform (Cursor.each selection.pick ⟨rest, ahead⟩) supply b =
      (selection.seek supply ahead onward rest b).collect supply := by
  have first : perform (Cursor.eachIn selection.pick rest) supply b = _ := eachIn_seekIn selection rest b
  rw [Cursor.each, Selection.seek]
  rcases sought : selection.seekIn supply rest b with ⟨_ | ⟨slot, more, rest'⟩ | ⟨e, rest'⟩, b'⟩
  · rw [sought] at first
    rw [perform_bind_ok first]
    simp only [List.nil_append, bind_pure]
    exact later b'
  · rw [sought] at first
    rw [perform_bind_congr first, found_collect]
    rfl
  · rw [sought] at first
    exact perform_bind_error first _

theorem eachAhead_enter (ahead : List Nat) (b : Browser) :
    perform (Cursor.eachAhead selection.pick ahead) supply b =
      (selection.enter supply ahead b).collect supply := by
  induction ahead generalizing b with
  | nil => rfl
  | cons position ahead ih =>
    rw [eachAhead_cons, perform_bind, Selection.enter]
    rcases perform (Browse.declarationsAt position) supply b with ⟨e | declarations, b'⟩
    · rfl
    · exact each_seek selection ih declarations b'

/-- To ask for all that is left is to go on one step and to ask for all that is left behind it. -/
theorem collect_next (g : Generator) (b : Browser) :
    perform g.collect supply b = (g.next supply b).collect supply := by
  obtain ⟨selection, found, cursor⟩ := g
  cases found with
  | nil =>
    simp only [Generator.collect, List.nil_append, bind_pure]
    exact each_seek selection (eachAhead_enter selection cursor.ahead) cursor.rest b
  | cons slot more =>
    simp only [Generator.collect, Generator.next, Pull.collect, bind_assoc, pure_bind, List.cons_append]

/-- A query that keeps what it finds asks for all that a new generator gives. -/
theorem ask_eq_collect (query : ModelQuery) (b : Browser) :
    perform (Browse.ask query pure) supply b =
      perform (Generator.start (.ofQuery query) b.model).collect supply b := by
  have kept (slots : List Slot) :
      (slots.mapM fun slot => pure slot : Browse (List Slot)) = pure slots := by
    rw [List.mapM_pure, List.map_id']
  rw [Browse.ask, perform_bind_ok perform_model]
  simp only [kept, Generator.collect, Generator.start, List.nil_append, bind_pure]
  rfl

/-! ### Finding one declaration -/

section
variable (test : Slot → Browse Bool) (looks : ∀ slot, Keeps Looking (test slot))

theorem findIn_seekIn (rest : List Slot) (b : Browser) :
    perform (Cursor.findIn test rest) supply b =
      match (Selection.satisfying test looks).seekIn supply rest b with
      | (.nothing, b') => (.ok none, b')
      | (.found slot _ _, b') => (.ok (some slot), b')
      | (.failed e _, b') => (.error e, b') := by
  induction rest generalizing b with
  | nil => rfl
  | cons declaration rest ih =>
    rw [Cursor.findIn, Selection.seekIn, Selection.satisfying, perform_bind, perform_bind]
    rcases perform (test declaration) supply b with ⟨e | _ | _, b'⟩
    · rfl
    · exact ih b'
    · rfl

theorem find_seek {ahead : List Nat} {onward : Browser → Pull}
    (later : ∀ b, perform (Cursor.findAhead test ahead) supply b =
      ((onward b).outcome, (onward b).browser))
    (rest : List Slot) (b : Browser) :
    perform (Cursor.find? test ⟨rest, ahead⟩) supply b =
      (((Selection.satisfying test looks).seek supply ahead onward rest b).outcome,
        ((Selection.satisfying test looks).seek supply ahead onward rest b).browser) := by
  have first : perform (Cursor.findIn test rest) supply b = _ := findIn_seekIn test looks rest b
  rw [Cursor.find?, Selection.seek]
  rcases sought : (Selection.satisfying test looks).seekIn supply rest b with
    ⟨_ | ⟨slot, more, rest'⟩ | ⟨e, rest'⟩, b'⟩
  · rw [sought] at first
    rw [perform_bind_ok first]
    exact later b'
  · rw [sought] at first
    exact perform_bind_ok first _
  · rw [sought] at first
    exact perform_bind_error first _

theorem findAhead_enter (ahead : List Nat) (b : Browser) :
    perform (Cursor.findAhead test ahead) supply b =
      (((Selection.satisfying test looks).enter supply ahead b).outcome,
        ((Selection.satisfying test looks).enter supply ahead b).browser) := by
  induction ahead generalizing b with
  | nil => rfl
  | cons position ahead ih =>
    rw [Cursor.findAhead, perform_bind, Selection.enter]
    rcases perform (Browse.declarationsAt position) supply b with ⟨e | declarations, b'⟩
    · rfl
    · exact find_seek test looks ih declarations b'

/-- To find a declaration is the first step of a new generator. -/
theorem find?_eq_next (b : Browser) :
    perform ((Cursor.start b.model).find? test) supply b =
      (((Generator.start (.satisfying test looks) b.model).next supply b).outcome,
        ((Generator.start (.satisfying test looks) b.model).next supply b).browser) :=
  find_seek test looks (findAhead_enter test looks b.model.positions) [] b

end

end SwanModel
