import SwanModel.Proofs.Convert.Partition
import SwanModel.Proofs.Store.Apart
import SwanModel.Proofs.Store.HasBody

/-!
# Modules and their lines

No two declarations of a module have a cell in common, so that each has the text that it has by
itself.
-/

namespace SwanModel

open Work

variable {reader : Reader} {w w' v v' : Workspace} {store : Store} {t u : Term} {ts : List Term}
  {slot : Slot} {slots used declared : List Slot} {a b m low high : Nat} {kind : ModuleKind}

/-! ### Rows of cells -/

/-- A cell behind the row of its parts closes the row. -/
theorem LaidAll.closes_top {cell : Cell} (laid : LaidAll store ts slots low high)
    (inner : store.Closes fun id => low ≤ id ∧ id < high) (found : store.cell? high = some cell)
    (same : cell.slots = slots) : store.Closes fun id => low ≤ id ∧ id < high + 1 := by
  intro id other inside present member listed
  by_cases top : id = high
  · subst top
    cases found.symm.trans present
    rw [same] at listed
    obtain ⟨_, -, _, _, above, below, laid⟩ := laid.mem listed
    have within := laid.ref_within
    omega
  · have within := inner (by omega) present member listed
    omega

mutual

theorem Laid.closes {t : Term} {slot : Slot} {low high : Nat} (laid : Laid store t slot low high) :
    store.Closes fun id => low ≤ id ∧ id < high := by
  cases laid with
  | plain =>
    intro id _ inside
    omega
  | delayed =>
    intro id _ inside
    omega
  | list members cell => exact members.closes_top members.closes cell rfl
  | node members cell => exact members.closes_top members.closes cell rfl

theorem LaidAll.closes {ts : List Term} {slots : List Slot} {low high : Nat}
    (laid : LaidAll store ts slots low high) : store.Closes fun id => low ≤ id ∧ id < high := by
  cases laid with
  | nil =>
    intro id _ inside
    omega
  | cons head tail =>
    have start := head.low_le
    have stop := tail.low_le
    have first := head.closes
    have second := tail.closes
    rename_i middle
    intro id cell inside present other listed
    by_cases before : id < middle
    · have within := first ⟨inside.1, before⟩ present other listed
      omega
    · have within := second ⟨by omega, inside.2⟩ present other listed
      omega

end

theorem Laid.ground (laid : Laid store t (.ref a) low high) :
    store.Ground a fun id => low ≤ id ∧ id < high where
  top := laid.ref_within
  present id inside := by
    cases laid with
    | list _ cell | node _ cell =>
      have last := Store.lt_of_cell? cell
      omega
  closes := laid.closes

/-- Of two terms one behind the other, no cell can be reached in common. -/
theorem Laid.apart {start stop : Nat} (first : Laid store t (.ref a) low high)
    (second : Laid store u (.ref b) start stop) (behind : high ≤ start) : store.Apart a b := by
  refine ⟨_, _, first.ground, second.ground, ?_⟩
  intro id here there
  omega

theorem LaidAll.apart {ids : List Nat} (laid : LaidAll store ts (ids.map .ref) low high) :
    ids.Pairwise store.Apart := by
  induction ids generalizing ts low with
  | nil => exact .nil
  | cons a ids ih =>
    cases laid with
    | cons head tail =>
      refine List.pairwise_cons.mpr ⟨fun b member => ?_, ih tail⟩
      obtain ⟨_, -, _, _, behind, -, laid⟩ := tail.mem (List.mem_map_of_mem member)
      exact head.apart laid behind

theorem HeldAll.refs (held : HeldAll .none store ts slots)
    (constructs : ∀ t ∈ ts, ∃ form parts, t = .node form parts) :
    ∃ ids : List Nat, slots = ids.map .ref := by
  induction ts generalizing slots with
  | nil =>
    cases held
    exact ⟨[], rfl⟩
  | cons t ts ih =>
    rw [List.forall_mem_cons] at constructs
    cases held with
    | cons head tail =>
      obtain ⟨ids, rfl⟩ := ih tail constructs.2
      obtain ⟨form, parts, rfl⟩ := constructs.1
      cases head with
      | plain plain => cases plain
      | @node id => exact ⟨id :: ids, rfl⟩

/-! ### The lines of a module -/

/-- A module has two lists: one of the modules that it uses and one of its declarations. -/
def Store.HasLines (store : Store) (kind : ModuleKind) (m : Nat) (used declared : List Slot) : Prop :=
  ∃ name uses others owner,
    store.cell? m = some (.node (.module kind.form) [name, .ref uses, .ref others] owner) ∧
      store.cell? uses = some (.list used) ∧ store.cell? others = some (.list declared)

theorem texts_of_views {slots : List Slot} {shown : List Term}
    (seen : slots.mapM store.view = .ok shown) : slots.mapM store.text = shown.mapM Term.print := by
  induction slots generalizing shown with
  | nil =>
    cases seen
    rfl
  | cons slot slots ih =>
    rw [List.mapM_cons] at seen
    obtain ⟨first, here, seen⟩ := ok_of_bind seen
    obtain ⟨rest, there, seen⟩ := ok_of_bind seen
    cases seen
    rw [List.mapM_cons, List.mapM_cons, ih there, Store.text, here]
    rfl

theorem Held.viewInside_list {levels id : Nat} {outer : List Nat} (held : Held .none store t (.ref id))
    (inside : Inside store levels outer t) (cell : store.cell? id = some (.list slots)) :
    ∃ shown, store.viewInside levels outer (.ref id) = .ok (.list shown) ∧
      slots.mapM store.view = .ok shown := by
  obtain ⟨levels, rfl, outside⟩ := inside.step held
  cases held with
  | node found => cases found.symm.trans cell
  | computed stands => exact stands.elim
  | list found members =>
    cases found.symm.trans cell
    obtain ⟨shown, seen⟩ := members.viewAll_ok (store.cells.size + 1) [] (f := store.view) fun _ =>
      .inl rfl
    refine ⟨shown, ?_, seen⟩
    simp only [Store.viewInside, List.contains_eq_mem, outside, decide_false, Bool.false_eq_true,
      if_false, cell]
    rw [mapM_congr (g := store.view), seen]
    · rfl
    · intro slot member
      obtain ⟨part, present, held⟩ := members.mem member
      exact held.viewInside_eq (inside.deeper (.list found members) outside (sizeOf_item present))
        (.top store part)

theorem print_module (kind : ModuleKind) (name : Term) (uses others : List Term) :
    (Term.node (.module kind.form) [name, .list uses, .list others]).print =
      (do return "\n".intercalate (← (uses ++ others).mapM Term.print)) := by
  have texts (ts : List Term) : (Term.list ts).printed.texts = ts.mapM Term.print := by
    rw [Printed.texts, items_printed, ok_bind, List.mapM_map]
    rfl
  have layout : (Term.node (.module kind.form) [name, .list uses, .list others]).print =
      moduleLayout (Term.list uses).printed (Term.list others).printed := by
    rw [Term.print_node]
    cases kind <;> rfl
  rw [layout, moduleLayout, texts, texts, List.mapM_append]
  simp only [bind_assoc, pure_bind]

/-- The text of a module is made of the texts that its lines have by themselves. -/
theorem Store.HasLines.text (lines : store.HasLines kind m used declared)
    (held : Held .none store t (.ref m)) :
    store.text (.ref m) = (do return "\n".intercalate (← (used ++ declared).mapM store.text)) := by
  obtain ⟨name, uses, others, owner, cell, usesCell, othersCell⟩ := lines
  cases held with
  | list found => cases found.symm.trans cell
  | computed stands => exact stands.elim
  | node found members =>
    cases found.symm.trans cell
    have deeper {u : Term} (present : u ∈ _) : Inside store store.cells.size [m] u :=
      (Inside.top store _).deeper (.node found members) List.not_mem_nil (sizeOf_part present)
    obtain ⟨shown, whole⟩ := (Held.node found members).viewInside_ok (store.cells.size + 1) []
    obtain _ | ⟨-, _ | ⟨second, _ | ⟨third, ⟨⟩⟩⟩⟩ := members
    obtain ⟨us, front, usesSeen⟩ := second.viewInside_list (deeper (by simp)) usesCell
    obtain ⟨ds, back, othersSeen⟩ := third.viewInside_list (deeper (by simp)) othersCell
    have viewed : ∃ n, store.view (.ref m) =
        .ok (.node (.module kind.form) [n, .list us, .list ds]) := by
      rw [Store.viewInside, cell] at whole
      obtain ⟨parts, all, -⟩ := mapped_ok whole
      rw [List.mapM_cons] at all
      obtain ⟨n, here, -⟩ := ok_of_bind all
      refine ⟨n, ?_⟩
      rw [Store.view, Store.viewInside, cell]
      simp only [List.mapM_cons, here, front, back]
      rfl
    obtain ⟨n, viewed⟩ := viewed
    have seen : (used ++ declared).mapM store.view = .ok (us ++ ds) := by
      rw [List.mapM_append, usesSeen, othersSeen]
      rfl
    rw [texts_of_views seen, ← print_module kind n, Store.text, viewed]
    rfl

/-- No line moves when bodies are computed: a module has no part for a body. -/
theorem Store.HasLines.later {store' : Store} (lines : store.HasLines kind m used declared)
    (settle : CellsSettle reader store store') : store'.HasLines kind m used declared := by
  obtain ⟨name, uses, others, owner, cell, usesCell, othersCell⟩ := lines
  obtain ⟨cell', found, change⟩ := settle.kept cell
  cases change with
  | same =>
    exact ⟨name, uses, others, owner, found, settle.refines.lists usesCell,
      settle.refines.lists othersCell⟩
  | computed delayed => simp [Operator.bodyIndex] at delayed

/-- A property of a construct gives a list with some members, and nothing changes. -/
def GivesList (reader : Reader) (v : Workspace) (id : Nat) (name : String) (members : List Slot) :
    Prop :=
  ∃ list, perform (property name (.ref id)) reader v = (.ok (.slot list), v) ∧
    v.store.members list = .ok members

theorem givesList {name : String} {i id : Nat} {form : Form} {owner : Owner}
    (held : Held .none v.store t (.ref m)) (cell : v.store.cell? m = some (.node form slots owner))
    (known : form.property? name = some (Property.part i)) (other : name ≠ "owner")
    (part : slots[i]? = some (.ref id)) (list : v.store.cell? id = some (.list used)) :
    GivesList reader v m name used := by
  have isForm : v.store.form? (.ref m) = some form := by simp [Store.form?, cell]
  obtain ⟨shown, viewed⟩ : ∃ parts, v.store.view (.ref m) = .ok (.node form parts) := by
    obtain ⟨shown, seen⟩ := held.viewInside_ok (v.store.cells.size + 1) []
    rw [Store.viewInside, cell] at seen
    obtain ⟨parts, all, -⟩ := mapped_ok seen
    refine ⟨parts, ?_⟩
    rw [Store.view, Store.viewInside, cell]
    simp only [all]
    rfl
  refine ⟨.ref id, ?_, by simp [Store.members, list]⟩
  rw [perform_property reader isForm known other, readProperty,
    perform_bind_ok (observe_ok (a := Found.stored [i]) ?_)]
  · have place : v.store.place? [i] (.ref m) = some (.ref id) := by
      simp [Store.place?, Store.child?, cell, part]
    dsimp only
    rw [perform_bind, slotAt, perform_bind_ok perform_store, place]
    rfl
  · rw [viewed]
    rfl

theorem Store.HasLines.given (reader : Reader) (lines : v.store.HasLines kind m used declared)
    (held : Held .none v.store t (.ref m)) :
    GivesList reader v m "use_directive_list" used ∧
      GivesList reader v m "declaration_list" declared := by
  obtain ⟨name, uses, others, owner, cell, usesCell, othersCell⟩ := lines
  have known (name : String) :
      (Form.module kind.form).property? name = (Form.module .bare).property? name := by
    cases kind <;> rfl
  constructor
  · exact givesList held cell (known _) (by decide) rfl usesCell
  · exact givesList held cell (known _) (by decide) rfl othersCell

/-! ### Printing -/

/-- A module in a workspace, with its lines in cells of their own. -/
structure ModuleAt (reader : Reader) (v : Workspace) (kind : ModuleKind) (m : Nat)
    (used declared : List Slot) : Prop where
  closed : v.store.ClosedFrom 0
  lines : v.store.HasLines kind m used declared
  offers : v.store.Offers reader m
  abreast : ∃ ids : List Nat, used ++ declared = ids.map .ref ∧ AllAbreast reader v ids

theorem ModuleAt.later (here : ModuleAt reader v kind m used declared) (working : Working reader v v') :
    ModuleAt reader v' kind m used declared := by
  induction working with
  | refl => exact here
  | tail _ step ih =>
    obtain ⟨ids, same, abreast⟩ := ih.abreast
    have settle := step.cells ih.closed
    exact ⟨step.closed ih.closed, ih.lines.later settle, ih.offers.later settle, ids, same,
      abreast.later (.single step)⟩

theorem ModuleAt.text (here : ModuleAt reader v kind m used declared) :
    v.store.text (.ref m) = (do return "\n".intercalate (← (used ++ declared).mapM v.store.text)) := by
  obtain ⟨t, held, -⟩ := here.offers.current
  exact here.lines.text held

theorem prints_ok {texts : List String} (all : slots.mapM v.store.text = .ok texts) :
    perform (slots.mapM print) reader v = (.ok texts, v) := by
  induction slots generalizing texts with
  | nil =>
    cases all
    rfl
  | cons slot slots ih =>
    rw [List.mapM_cons] at all
    obtain ⟨first, here, all⟩ := ok_of_bind all
    obtain ⟨rest, there, all⟩ := ok_of_bind all
    cases all
    have printed : perform (print slot) reader v = (.ok first, v) := observe_ok here
    rw [List.mapM_cons, perform_bind_ok printed, perform_bind_ok (ih there)]
    rfl

/-- The text of a construct is made of lines: whether it is printed first or they are. -/
def PrintsLines (reader : Reader) (v : Workspace) (id : Nat) (lines : List Slot) : Prop :=
  (∀ text v', perform (print (.ref id)) reader v = (.ok text, v') →
    ∃ texts, perform (lines.mapM print) reader v' = (.ok texts, v') ∧ text = "\n".intercalate texts) ∧
  ∀ texts v', perform (lines.mapM print) reader v = (.ok texts, v') →
    perform (print (.ref id)) reader v' = (.ok ("\n".intercalate texts), v')

theorem ModuleAt.lines_of_print {text : String} (here : ModuleAt reader v kind m used declared)
    (printed : perform (print (.ref m)) reader v = (.ok text, v')) :
    ∃ texts, perform ((used ++ declared).mapM print) reader v' = (.ok texts, v') ∧
      text = "\n".intercalate texts := by
  have there : ModuleAt reader v' kind m used declared := here.later (Keeps.after printed)
  have answer : v'.store.text (.ref m) = .ok text := observe_answer printed
  rw [there.text] at answer
  obtain ⟨texts, all, same⟩ := ok_of_bind answer
  cases same
  exact ⟨texts, prints_ok all, rfl⟩

theorem ModuleAt.print_of_lines {texts : List String} (here : ModuleAt reader v kind m used declared)
    (printed : perform ((used ++ declared).mapM print) reader v = (.ok texts, v')) :
    perform (print (.ref m)) reader v' = (.ok ("\n".intercalate texts), v') := by
  have there : ModuleAt reader v' kind m used declared := here.later (Keeps.after printed)
  obtain ⟨ids, same, abreast⟩ := here.abreast
  have all : (used ++ declared).mapM v'.store.text = .ok texts := by
    rw [same] at printed ⊢
    exact abreast.prints printed
  refine observe_ok ?_
  change v'.store.text (.ref m) = _
  rw [there.text, all]
  rfl

theorem ModuleAt.printsLines (here : ModuleAt reader v kind m used declared) :
    PrintsLines reader v m (used ++ declared) :=
  ⟨fun _ _ printed => here.lines_of_print printed, fun _ _ printed => here.print_of_lines printed⟩

/-! ### Building of a module -/

variable {uses others : List Term}

theorem Laid.module_lines {name : Term}
    (laid : Laid store (.node (.module kind.form) [name, .list uses, .list others]) (.ref m) low high) :
    ∃ used declared start middle stop, store.HasLines kind m used declared ∧
      LaidAll store uses used start middle ∧ LaidAll store others declared (middle + 1) stop ∧
      ∀ d, .ref d ∈ used ++ declared → store.owner d = .construct m := by
  obtain ⟨usesAt, othersAt, first, second, -, -, owned⟩ := laid.module_members
  cases laid with
  | node members cell =>
    obtain _ | ⟨-, _ | ⟨uses, _ | ⟨others, ⟨⟩⟩⟩⟩ := members
    cases uses with
    | plain plain => cases plain
    | list used usesCell =>
      cases others with
      | plain plain => cases plain
      | list declared othersCell =>
        simp only [Store.child?, cell] at first second
        cases first
        cases second
        rw [Store.listed_list usesCell, Store.listed_list othersCell] at owned
        exact ⟨_, _, _, _, _, ⟨_, _, _, _, cell, usesCell, othersCell⟩, used, declared, owned⟩

theorem LaidAll.apart_append {ids ids' : List Nat} {start stop : Nat}
    (first : LaidAll store uses (ids.map .ref) low high)
    (second : LaidAll store others (ids'.map .ref) start stop) (behind : high ≤ start) :
    (ids ++ ids').Pairwise store.Apart := by
  refine List.pairwise_append.mpr ⟨first.apart, second.apart, fun a here b there => ?_⟩
  obtain ⟨_, -, _, _, -, below, one⟩ := first.mem (List.mem_map_of_mem here)
  obtain ⟨_, -, _, _, above, -, two⟩ := second.mem (List.mem_map_of_mem there)
  exact one.apart two (by omega)

theorem HeldAll.offers {a : Nat} (held : HeldAll .none store ts slots) (clear : Term.pendingsAll ts = [])
    (inside : .ref a ∈ slots) : store.Offers reader a := by
  obtain ⟨t, member, held⟩ := held.mem inside
  exact ⟨t, held.of_none, Term.pendings_of_mem clear member⟩

theorem ModuleAt.of_rows {start stop low high : Nat} (closed : v.store.ClosedFrom 0)
    (lines : v.store.HasLines kind m used declared) (offers : v.store.Offers reader m)
    (first : LaidAll v.store uses used low high) (second : LaidAll v.store others declared start stop)
    (behind : high ≤ start) (clear : Term.pendingsAll uses = [] ∧ Term.pendingsAll others = [])
    (declares : ∀ d ∈ uses ++ others, d.Declares) : ModuleAt reader v kind m used declared := by
  have constructs (d : Term) (member : d ∈ uses ++ others) := (declares d member).construct
  obtain ⟨ids, rfl⟩ := first.held.refs fun d member => constructs d (List.mem_append_left _ member)
  obtain ⟨ids', rfl⟩ := second.held.refs fun d member => constructs d (List.mem_append_right _ member)
  refine ⟨closed, lines, offers, ids ++ ids', List.map_append.symm, ?_⟩
  have each (a : Nat) (member : a ∈ ids ++ ids') : v.store.Offers reader a := by
    rcases List.mem_append.mp member with member | member
    · exact first.held.offers clear.1 (List.mem_map_of_mem member)
    · exact second.held.offers clear.2 (List.mem_map_of_mem member)
  exact (first.apart_append second behind).imp_of_mem fun here there apart =>
    ⟨closed, apart, each _ here, each _ there⟩

def Work.buildModule (kind : ModuleKind) (name : String) (tree : ParseTree) : Work Slot := do
  load (← ofConversion (convertModule kind.form name tree))

theorem buildModule_eq (kind : ModuleKind) (name : String) (tree : ParseTree) (reader : Reader)
    (w : Workspace) : perform (buildModule kind name tree) reader w =
      match perform (convertModule kind.form name tree) reader w.reading with
      | (.ok t, s) => perform (load t) reader { w with reading := s }
      | (.error e, s) => (.error e, { w with reading := s }) := by
  rw [buildModule, perform_bind, perform_ofConversion]
  rcases perform (convertModule kind.form name tree) reader w.reading with ⟨_ | _, s⟩ <;> rfl

/-- A module has the use directives among some declarations in one list and the others in a second
one, and all of them belong to it. -/
structure PartedModule (reader : Reader) (v : Workspace) (kind : ModuleKind) (m : Nat)
    (items : List Term) (used declared : List Slot) : Prop where
  form : v.store.form? (.ref m) = some (.module kind.form)
  uses : GivesList reader v m "use_directive_list" used
  others : GivesList reader v m "declaration_list" declared
  usesHeld : HeldAll .none v.store (items.filter Term.isUse) used
  othersHeld : HeldAll .none v.store (items.filter (!·.isUse)) declared
  owned : ∀ line ∈ used ++ declared, ∃ d, line = .ref d ∧ v.store.owner d = .construct m

theorem load_module {name : String} {items : List Term} (made : (Term.module kind name items).Made)
    (declares : ∀ d ∈ items, d.Declares) (reader : Reader) (w : Workspace) :
    ∃ m w' used declared, perform (load (Term.module kind name items)) reader w = (.ok (.ref m), w') ∧
      PartedModule reader w' kind m items used declared ∧
      (w.store.ClosedFrom 0 → ModuleAt reader w' kind m used declared) := by
  obtain ⟨slot, w', loaded, -, -⟩ := (load_spec _ reader w).ok made.isLoadable
  have laid := load_laid _ _ loaded
  obtain ⟨m, rfl, shape⟩ := laid.ref_of_node
  obtain ⟨used, declared, _, _, _, lines, first, second, owned⟩ := laid.module_lines
  obtain ⟨uses, others⟩ := lines.given reader laid.held
  have declares := parted_declares declares
  refine ⟨m, w', used, declared, loaded, ⟨shape, uses, others, first.held, second.held, ?_⟩,
    fun closed => ?_⟩
  · intro line inside
    obtain ⟨ids, refs⟩ := (first.held.append second.held).refs fun d member =>
      (declares d member).construct
    obtain ⟨d, -, rfl⟩ := List.mem_map.mp (refs ▸ inside)
    exact ⟨d, rfl, owned d inside⟩
  · have settled : Settling reader w w' := Keeps.after loaded
    have clear := made.pendings_eq
    have part (t : Term) (member : t ∈ _) : t.pendings = [] := Term.pendings_of_mem clear member
    exact .of_rows (settled closed).closed lines ⟨_, laid.held.of_none, clear⟩ first second
      (Nat.le_succ _) ⟨part (.list _) (by simp), part (.list _) (by simp)⟩ declares

/-- A module has its use directives apart from its other declarations, both in their order, as if
they came first; its text is made of theirs, however it is used. It fails with the first declaration
that cannot be converted. -/
theorem declarations_are_parted (reader : Reader) (kind : ModuleKind) (name : String) {tree : ParseTree}
    {trees : List ParseTree} (listed : tree.field "MDecls" = .ok (.list trees)) (w : Workspace) :
    (∀ items s, perform (trees.mapM (convertMember reader tree)) reader w.reading = (.ok items, s) →
      ∃ m w' used declared, perform (buildModule kind name tree) reader w = (.ok (.ref m), w') ∧
        perform (buildModule kind name
          (tree.withField "MDecls" (.list (ParseTree.usesFirst trees)))) reader w = (.ok (.ref m), w') ∧
        PartedModule reader w' kind m items used declared ∧
        (w.store.ClosedFrom 0 → ∀ accesses,
          PrintsLines reader (w'.after reader accesses) m (used ++ declared))) ∧
    ∀ front bad rest done s e s', trees = front ++ bad :: rest →
      perform (front.mapM (convertMember reader tree)) reader w.reading = (.ok done, s) →
      perform (convertMember reader tree bad) reader s = (.error e, s') →
      perform (buildModule kind name tree) reader w = (.error e, { w with reading := s' }) := by
  constructor
  · intro items s converted
    have whole : perform (convertModule kind.form name tree) reader w.reading =
        (.ok (Term.module kind name items), s) := by
      rw [convertModule_eq kind name listed, converted]
    have made : (Term.module kind name items).Made := Composed.made inferInstance ⟨reader, _, _, whole⟩
    obtain ⟨m, w', used, declared, loaded, parts, moduleAt⟩ :=
      load_module made (convertMember_declares converted) reader { w with reading := s }
    have built : perform (buildModule kind name tree) reader w = (.ok (.ref m), w') := by
      rw [buildModule_eq, whole]
      exact loaded
    refine ⟨m, w', used, declared, built, ?_, parts, fun closed accesses => ?_⟩
    · rw [buildModule_eq, convertModule_usesFirst kind name listed converted, ← buildModule_eq]
      exact built
    · exact ((moduleAt closed).later (working_after reader w' accesses)).printsLines
  · rintro front bad rest done s e s' rfl before failed
    rw [buildModule_eq, convertModule_eq kind name listed, mapM_failed before failed]

def unsortedTrees : List ParseTree :=
  let operator : ParseTree := .node none []
    [("OpNode", .truth false), ("OpId", .located (.text "f")), ("OpInputs", .list []),
      ("OpOutputs", .list []), ("OpSizes", .list []), ("OpConstraints", .list []),
      ("OpSpecialization", .absent), ("OpPragmas", .list []), ("OpBody", .node (some "SDEmpty") [] [])]
  let path : ParseTree := .list [.identifier (.text "Other") (.list [])]
  [.node (some "DOperator") [operator] [],
    .node (some "DRaw") [.protectedText (.text "const ?") (.text "const")] [],
    .node (some "DUse") [.node none [] [("UPath", path), ("UAs", .absent)], .absent] []]

def brokenTrees : List ParseTree := [.node (some "DNone") [] [], .node (some "DUse") [] []]

def unsortedTree (more : List ParseTree) : ParseTree :=
  .node none [] [("MDecls", .list (unsortedTrees ++ more))]

theorem answered_eq {α σ : Type} {x : Except Error α × σ} {a : α} (given : x.1.toOption = some a) :
    x = (.ok a, x.2) := by
  obtain ⟨_ | b, s⟩ := x
  · cases given
  · cases given
    rfl

theorem unsorted_declarations_are_parted :
    (∃ items w used declared v texts, items.map Term.isUse = [false, false, true] ∧
      perform (buildModule .body "M" (unsortedTree [])) (.ofTable []) {} = (.ok (.ref 20), w) ∧
      PartedModule (.ofTable []) w .body 20 items used declared ∧
      perform (print (.ref 20)) (.ofTable []) w =
        (.ok "use Other;\nfunction f () returns ();\n{const%const ?%const}", v) ∧
      perform ((used ++ declared).mapM print) (.ofTable []) v = (.ok texts, v) ∧
      "use Other;\nfunction f () returns ();\n{const%const ?%const}" = "\n".intercalate texts) ∧
    ∃ w, perform (buildModule .body "M" (unsortedTree brokenTrees)) (.ofTable []) {} =
      (.error (.reported "unexpected ast class: "), w) := by
  have closed : ({} : Workspace).store.ClosedFrom 0 := Store.closedFrom_size {}
  -- How deep a conversion goes depends on the height of the whole tree.
  have converts (more : List ParseTree)
      (level : levelsFor (.ofTable []) (unsortedTree more) = levelsFor (.ofTable []) (unsortedTree [])) :
      (perform (unsortedTrees.mapM (convertMember (.ofTable []) (unsortedTree more))) (.ofTable [])
        {}).1.toOption.map (·.map Term.isUse) = some [false, false, true] := by
    rw [convertMember, level]
    decide +kernel
  constructor
  · have listed : (unsortedTree []).field "MDecls" = .ok (.list unsortedTrees) := rfl
    have place : placeOf (perform (buildModule .body "M" (unsortedTree [])) (.ofTable []) {}).1 =
        some 20 := by
      decide +kernel
    have shown :
        (perform (buildModule .body "M" (unsortedTree []) >>= print) (.ofTable []) {}).1.toOption =
          some "use Other;\nfunction f () returns ();\n{const%const ?%const}" := by decide +kernel
    obtain ⟨items, given, uses⟩ := Option.map_eq_some_iff.mp (converts [] rfl)
    obtain ⟨m, w, used, declared, built, -, parted, prints⟩ :=
      (declarations_are_parted (.ofTable []) .body "M" listed {}).1 items _ (answered_eq given)
    rw [built] at place
    cases place
    rw [perform_bind_ok built] at shown
    obtain ⟨texts, lines, same⟩ := (prints closed []).1 _ _ (answered_eq shown)
    exact ⟨items, w, used, declared, _, texts, uses, built, parted, answered_eq shown, lines, same⟩
  · have listed : (unsortedTree brokenTrees).field "MDecls" =
        .ok (.list (unsortedTrees ++ brokenTrees)) := rfl
    obtain ⟨items, given, -⟩ := Option.map_eq_some_iff.mp (converts brokenTrees (by decide +kernel))
    exact ⟨_, (declarations_are_parted (.ofTable []) .body "M" listed
      {}).2 _ _ _ _ _ _ _ rfl (answered_eq given) rfl⟩

end SwanModel
