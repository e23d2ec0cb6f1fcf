import SwanModel.Layout.Describe
import SwanModel.Session.Route

/-!
# Sessions

A step that fails leaves what it has done, and the session goes on.
-/

namespace SwanModel

/-- What a construct can be asked to do. -/
inductive Method where
  | fullPath | hasMarkup | flowText | describe | luid
deriving DecidableEq, Repr

/-- A step of a session. -/
inductive SessionStep where
  /-- Builds a thing and binds it to a name. -/
  | bind (name : String) (b : Blueprint)
  | get (route : Route)
  | text (route : Route)
  | call (route : Route) (method : Method) (args : List Blueprint)
  | append (route : Route) (item : Blueprint)
  | setOwner (route : Route) (owner : Option Route)
  /-- Marks an operator as written in text. -/
  | setText (route : Route) (value : Term)
  | owners (route : Route)

/-- What a step answers. -/
inductive Answer where
  | shown (s : Shown)
  | count (n : Nat)
  | names (names : List String)

namespace Work

/-- Whether the construct at a slot keeps text under a markup. -/
def hasMarkup (form : Form) (parts : List Term) (markup : Term) : Except Error Term :=
  if (Term.node form parts).isVerbatim then do
    match form.property? "markup" with
    | some p => return .truth ((← (← p parts).term parts).same markup)
    | none => .error .missingMember
  else
    .error .missingMember

/-- A text that a construct gives without arguments. -/
def plainText (args : List Term) (text : Except Error String) : Except Error Term :=
  if args.isEmpty then text.map .text else .error .wrongKind

def luidOf (form : Form) (parts : List Printed) (args : List Term) : Except Error Term :=
  match form, parts with
  | .equation .byCase, [_, name] => plainText args (luidLayout name)
  | .equation .machine, [_, _, name] => plainText args (luidLayout name)
  | .equation .activateIf, [_, _, name] => plainText args (luidLayout name)
  | .equation .activateWhen, [_, _, _, name] => plainText args (luidLayout name)
  | _, _ => .error .missingMember

/-- The declaration of a flow on a line of its own. -/
def flowText (form : Form) (parts : List Printed) (args : List Term) : Except Error Term :=
  if form == .decl .flowDecl then
    plainText args do return "var " ++ (← form.text parts) ++ ";\n"
  else
    .error .missingMember

def perform (id : Nat) (method : Method) (args : List Slot) : Work Term :=
  observe fun store => do
    let argTerms ← args.mapM store.view
    match ← store.view (.ref id) with
    | .node form parts =>
      let printed := Term.printedAll parts
      match method, argTerms with
      | .describe, _ => form.describe printed (Term.printedAll argTerms)
      | .fullPath, [] => store.fullPath id
      | .hasMarkup, [markup] => hasMarkup form parts markup
      | .hasMarkup, _ => do
        let _ ← hasMarkup form parts .absent
        .error .wrongKind
      | .flowText, args => flowText form printed args
      | .luid, args => luidOf form printed args
      | .fullPath, _ => .error .wrongKind
    | _ => .error .missingMember

def call (slot : Slot) (method : Method) (args : List Slot) : Work Term := do
  match (← store).form? slot, slot with
  | some _, .ref id => perform id method args
  | _, _ =>
    match slot, method, args with
    | .atom (.constant c), .describe, args =>
      if c.isWritten then
        match args with
        | [arg] => ofExcept (Constant.textAs c.family (← view arg))
        | _ => throw .wrongKind
      else
        throw .missingMember
    | _, _, _ => throw .missingMember

/-- Appends to the list at the end of a route; the answer is its new length. -/
def append (given : Given) (item : Slot) : Work Nat := do
  match given with
  | .list items => return items.length + 1
  | .slot (.ref id) =>
    match (← store).cell? id with
    | some (.list items) =>
      modifyStore (·.set id (.list (items ++ [item])))
      return items.length + 1
    | _ => throw .missingMember
  | _ => throw .missingMember

def giveOwner (slot owner : Slot) : Work Unit := do
  match slot with
  | .ref id =>
    match (← store).form? slot, owner with
    | some _, .ref ownerId => modifyStore (·.setOwner id (.construct ownerId))
    | some _, .atom .absent | some _, .delayed _ => modifyStore (·.setOwner id .none)
    | some _, .atom t => modifyStore (·.setOwner id (.plain t))
    | none, _ => throw .missingMember
  | .atom t => if t.isAdoptable then return () else throw .missingMember
  | .delayed _ => throw .missingMember

def markText (slot : Slot) (value : Term) : Work Term := do
  match slot with
  | .ref id =>
    match (← store).cell? id with
    | some (.node form slots owner) =>
      if form == .decl .operator then
        modifyStore (·.set id (.node form (slots.set Operator.textIndex (.atom value)) owner))
      return value
    | _ => throw .missingMember
  | .atom t => if t.isAdoptable then return value else throw .missingMember
  | .delayed _ => throw .missingMember

def shownGiven (given : Given) : Work Shown := showGiven showDepth given

/-- The text of the thing at a slot; some constructs have none. -/
def textOf (slot : Slot) : Work Shown := do
  match (← store).form? slot with
  | some form => if form.isSilent then return .atom .absent else return .atom (.text (← print slot))
  | none => return .atom (.text (← print slot))

def take (step : SessionStep) : Work Answer := do
  match step with
  | .bind name b =>
    let slot ← build b
    modify fun w => { w with names := (name, slot) :: w.names }
    return .shown (.atom (.text (kindName (← store) slot)))
  | .get route => return .shown (← shownGiven (← follow route))
  | .text route => return .shown (← textOf (← arrive route))
  | .call route method args =>
    let slot ← arrive route
    let args ← buildAll args
    return .shown (← shown (← load (← call slot method args)))
  | .append route item =>
    let given ← follow route
    let slot ← build item
    return .count (← append given slot)
  | .setOwner route owner =>
    let slot ← arrive route
    let ownerSlot ← match owner with
      | some r => arrive r
      | none => pure (.atom .absent)
    giveOwner slot ownerSlot
    return .shown (.atom .absent)
  | .setText route value =>
    let slot ← arrive route
    return .shown (.atom (← markText slot value))
  | .owners route =>
    match ← arrive route with
    | .ref id => return .names (← ofExcept ((← store).chain id))
    | .atom .absent => return .names []
    | _ => throw .missingMember

end Work

/-- Takes the steps of a session one after the other, and gives for each its answer and its log. -/
def runSession (reader : Reader) (steps : List SessionStep) :
    List (Except Error Answer × List LogLine) :=
  (steps.foldl (fun (workspace, done) step =>
    let start := { workspace with reading := { workspace.reading with logs := [] } }
    let (answer, workspace) := ((Work.settle (Work.take step)) reader).run start
    let answer := match answer with
      | .ok answer => answer
      | .error e => .error e
    (workspace, done ++ [(answer, workspace.reading.logs)]))
    (({} : Workspace), ([] : List (Except Error Answer × List LogLine)))).2

end SwanModel
