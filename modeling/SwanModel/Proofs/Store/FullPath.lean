import SwanModel.Proofs.Convert.Declared
import SwanModel.Proofs.Store.Once
import SwanModel.Proofs.Store.Ownership

/-!
# Full paths of declarations

Each declaration of a module that is built is owned by the module, each member of a block by the
block, and each of them has a full path.
-/

namespace SwanModel

open Work

variable {rest pragmas parts : List Term} {name first : Term} {kind : ModuleKind}

variable {reader : Reader} {store : Store} {t : Term} {slot : Slot} {slots : List Slot}
  {low high id new steps levels : Nat} {outer : List Nat} {form : Form} {path : String}

/-! ### Looking at constructs -/

theorem exists_ok_bind {α β : Type} {x : Except Error α} (f : α → Term) {g : β → α}
    (h : ∃ b, x = .ok (g b)) : ∃ b, (do return f (← x)) = Except.ok (f (g b)) := by
  obtain ⟨b, rfl⟩ := h
  exact ⟨b, rfl⟩

theorem mapM_first {f : Slot → Except Error Term} {shown : Term} (first : f slot = .ok shown)
    (rest : ∃ others, slots.mapM f = .ok others) :
    ∃ others, (slot :: slots).mapM f = .ok (shown :: others) := by
  obtain ⟨others, rest⟩ := rest
  refine ⟨others, ?_⟩
  rw [List.mapM_cons, first]
  simp only [bind, Except.bind, rest]
  rfl

mutual

theorem Held.viewInside_ok {t : Term} {slot : Slot} (held : Held .none store t slot) (levels : Nat)
    (outer : List Nat) : ∃ shown, store.viewInside levels outer slot = .ok shown := by
  cases held with
  | plain => cases levels <;> exact ⟨_, rfl⟩
  | delayed => cases levels <;> exact ⟨_, rfl⟩
  | computed stands => exact stands.elim
  | @list id _ _ cell members =>
    cases levels with
    | zero => exact ⟨_, rfl⟩
    | succ levels =>
      rw [Store.viewInside, cell]
      split
      · exact ⟨_, rfl⟩
      · obtain ⟨_, seen⟩ :=
          exists_ok_bind Term.list (members.viewAll_ok levels (id :: outer) fun _ => .inl rfl)
        exact ⟨_, seen⟩
  | @node id _ _ _ _ cell members =>
    cases levels with
    | zero => exact ⟨_, rfl⟩
    | succ levels =>
      rw [Store.viewInside, cell]
      split
      · exact ⟨_, rfl⟩
      · refine (exists_ok_bind (Term.node _)
          (members.viewAll_ok levels (id :: outer) fun slot => ?_)).imp' _ fun _ seen => seen
        split
        · exact .inr ⟨_, rfl⟩
        · exact .inl rfl

theorem HeldAll.viewAll_ok {ts : List Term} {slots : List Slot}
    (held : HeldAll .none store ts slots) (levels : Nat) (outer : List Nat)
    {f : Slot → Except Error Term}
    (same : ∀ slot, f slot = store.viewInside levels outer slot ∨ ∃ shown, f slot = .ok shown) :
    ∃ shown, slots.mapM f = .ok shown := by
  cases held with
  | nil => exact ⟨[], rfl⟩
  | @cons _ slot _ _ head tail =>
    obtain ⟨shown, first⟩ : ∃ shown, f slot = .ok shown := by
      rcases same slot with inside | known
      · rw [inside]
        exact head.viewInside_ok levels outer
      · exact known
    obtain ⟨others, all⟩ := mapM_first first (tail.viewAll_ok levels outer same)
    exact ⟨shown :: others, all⟩

end

theorem Held.view_first {p : Term → Prop}
    (held : Held .none store (.node form (first :: rest)) (.ref id))
    (seen : ∀ slot, Held .none store first slot → Inside store store.cells.size [id] first →
      (∀ d, slot ≠ .delayed d) ∧ ∃ shown, store.viewInside store.cells.size [id] slot = .ok shown ∧
      p shown) :
    ∃ shown others, store.view (.ref id) = .ok (.node form (shown :: others)) ∧ p shown := by
  cases held with
  | node cell members =>
    have deeper : Inside store store.cells.size [id] first :=
      (Inside.top store _).deeper (.node cell members) (List.not_mem_nil)
        (sizeOf_part List.mem_cons_self)
    cases members with
    | @cons _ slot _ slots head tail =>
      obtain ⟨ready, shown, seen, holds⟩ := seen slot head deeper
      have viewed : ∃ others, store.view (.ref id) = .ok (.node form (shown :: others)) := by
        rw [Store.view, Store.viewInside, cell]
        refine exists_ok_bind (Term.node form)
          (mapM_first ?_ (tail.viewAll_ok store.cells.size [id] fun slot => ?_))
        · cases slot with
          | delayed d => exact absurd rfl (ready d)
          | _ => exact seen
        · split
          · exact .inr ⟨_, rfl⟩
          · exact .inl rfl
      obtain ⟨others, viewed⟩ := viewed
      exact ⟨shown, others, viewed, holds⟩

theorem Held.parts_ok {p : Term → Prop}
    (held : Held .none store (.node form (first :: rest)) (.ref id))
    (seen : ∀ slot, Held .none store first slot → Inside store store.cells.size [id] first →
      (∀ d, slot ≠ .delayed d) ∧ ∃ shown, store.viewInside store.cells.size [id] slot = .ok shown ∧
      p shown) :
    ∃ shown others, store.parts id = .ok (shown :: others) ∧ p shown := by
  obtain ⟨shown, others, viewed, holds⟩ := held.view_first seen
  exact ⟨shown, others, by rw [Store.parts, viewed]; rfl, holds⟩

theorem Held.moduleName_ok (held : Held .none store (.node form (first :: rest)) (.ref id))
    (isPath : first.IsPath path) :
    (do Store.moduleName (← store.parts id)) = Except.ok (.text path) := by
  obtain ⟨_, others, parts, rfl⟩ := held.parts_ok fun slot held inside =>
    ⟨held.not_delayed isPath.settled, first, held.viewInside isPath.settled inside, rfl⟩
  obtain ⟨ids, rfl, fullName⟩ := isPath.ids
  rw [parts]
  exact fullName

/-! ### Identifiers -/

/-- The value of the identifier that stands first in a construct: a name has an apostrophe in
front. -/
def Store.identifierValue? (store : Store) (id : Nat) : Option String :=
  match (store.child? (.ref id) 0).bind store.form?, store.place? [0, 0] (.ref id),
    store.place? [0, 3] (.ref id) with
  | some (.name .identifier), some (.atom (.text text)), some (.atom (.truth isName)) =>
    some (if isName then "'" ++ text else text)
  | _, _, _ => none

theorem HeldAll.atom_head {ts : List Term} (plain : t.isPlain = true)
    (held : HeldAll .none store (t :: ts) slots) :
    ∃ rest, slots = .atom t :: rest ∧ HeldAll .none store ts rest := by
  cases held with
  | cons head tail =>
    cases head with
    | plain => exact ⟨_, rfl, tail⟩
    | computed stands => exact stands.elim
    | _ => cases plain

theorem Held.identifier_cell {text : String} (held : Held .none store (.identifier text pragmas) slot) :
    ∃ id marks owner, slot = .ref id ∧ Held .none store (.list pragmas) marks ∧ store.cell? id =
      some (.node (.name .identifier) [.atom (.text text), marks, .atom .absent,
        .atom (.truth false)] owner) := by
  cases held with
  | plain plain => cases plain
  | @node id _ slots owner _ cell members =>
    obtain ⟨_, rfl, others⟩ := members.atom_head rfl
    cases others with
    | cons head tail =>
      obtain ⟨_, rfl, comment⟩ := tail.atom_head rfl
      obtain ⟨_, rfl, none⟩ := comment.atom_head rfl
      cases none
      exact ⟨id, _, owner, rfl, head, cell⟩

theorem Held.viewInside_identifier {text : String}
    (held : Held .none store (.identifier text pragmas) slot)
    (inside : Inside store levels outer (.identifier text pragmas)) :
    (∀ d, slot ≠ .delayed d) ∧
      ∃ shown, store.viewInside levels outer slot = .ok shown ∧
        shown.valueMember = .ok (.text text) := by
  obtain ⟨id, marks, owner, rfl, pragmas, cell⟩ := held.identifier_cell
  obtain ⟨levels, rfl, outside⟩ := inside.step held
  obtain ⟨shown, seen⟩ := pragmas.viewInside_ok levels (id :: outer)
  have viewed : store.viewInside (levels + 1) outer (.ref id) =
      .ok (.node (.name .identifier) [.text text, shown, .absent, .truth false]) := by
    simp only [Store.viewInside, List.contains_eq_mem, outside, decide_false, Bool.false_eq_true,
      if_false, cell]
    cases marks with
    | delayed d => cases pragmas
    | _ =>
      simp only [List.mapM_cons, List.mapM_nil, seen]
      cases levels <;> rfl
  exact ⟨by simp, _, viewed, rfl⟩

theorem Held.identified {text : String}
    (held : Held .none store (.node form (.identifier text pragmas :: rest)) (.ref id)) :
    store.identifierValue? id = some text ∧
      ∃ parts, store.parts id = .ok parts ∧ (partAt parts 0).valueMember = .ok (.text text) := by
  constructor
  · cases held with
    | node cell members =>
      cases members with
      | cons head tail =>
        obtain ⟨_, _, _, rfl, -, inner⟩ := head.identifier_cell
        simp [Store.identifierValue?, Store.place?, Store.child?, Store.form?, cell, inner]
  · obtain ⟨shown, others, parts, value⟩ :=
      held.parts_ok fun _ held inside => held.viewInside_identifier inside
    exact ⟨_, parts, value⟩

/-! ### Paths -/

/-- The full path that is expected of a construct in a module with a name. -/
def Store.pathIn (store : Store) (path : String) (id : Nat) : Option String :=
  match store.form? (.ref id) with
  | some (.module .use) | some (.module .types) | some (.module .constants) | some (.module .sensors)
  | some (.module .groups) => some path
  | some (.module .verbatim) => some (path ++ "::<protected>")
  | some (.decl .type) | some (.decl .constant) | some (.decl .sensor) | some (.decl .group)
  | some (.decl .signature) | some (.decl .operator) =>
    (store.identifierValue? id).map (path ++ "::" ++ ·)
  | _ => none

/-- A construct has the full path that is expected of it, which is found through a number of
owners. -/
def Store.Reaches (store : Store) (path : String) (owners : Nat) (id : Nat) : Prop :=
  ∃ expected, store.pathIn path id = some expected ∧
    ∀ steps, store.fullPathUpTo (steps + owners + 1) id = .ok (.text expected)

theorem Store.Reaches.fullPath {owners : Nat} (reaches : store.Reaches path owners id)
    (enough : owners ≤ store.cells.size) :
    ∃ expected, store.pathIn path id = some expected ∧ store.fullPath id = .ok (.text expected) := by
  obtain ⟨expected, shown, found⟩ := reaches
  refine ⟨expected, shown, ?_⟩
  obtain ⟨steps, size⟩ := Nat.exists_eq_add_of_le' enough
  rw [Store.fullPath, size]
  exact found steps

section Owned

variable {owners : Nat} (cell : store.cell? id = some (.node form slots (.construct new)))
  (front : ∀ steps, store.fullPathUpTo (steps + owners + 1) new = .ok (.text path))
include cell front

theorem Store.reaches_inherited (shown : store.pathIn path id = some path)
    (kind : form.pathKind = .inherited) : store.Reaches path (owners + 1) id := by
  refine ⟨path, shown, fun steps => ?_⟩
  rw [Store.fullPathUpTo, cell]
  simp only [kind, ← Nat.add_assoc, front steps]
  rfl

theorem Store.reaches_verbatim (shown : store.pathIn path id = some (path ++ "::<protected>"))
    (kind : form.pathKind = .verbatim) : store.Reaches path (owners + 1) id := by
  refine ⟨_, shown, fun steps => ?_⟩
  rw [Store.fullPathUpTo, cell]
  simp only [kind, ← Nat.add_assoc, front steps]
  rfl

theorem Store.reaches_identified {text : String}
    (shown : store.pathIn path id = some (path ++ "::" ++ text))
    (kind : form.pathKind = .identified) (looked : store.parts id = .ok parts)
    (value : (partAt parts 0).valueMember = .ok (.text text)) : store.Reaches path (owners + 1) id := by
  refine ⟨_, shown, fun steps => ?_⟩
  rw [Store.fullPathUpTo, cell]
  simp only [kind, ← Nat.add_assoc, front steps, looked]
  show (do let value ← (partAt parts 0).valueMember; return Term.text (path ++ "::" ++ (← value.print))) = _
  rw [value]
  rfl

end Owned

theorem Laid.cell_of_owner (laid : Laid store (.node form parts) (.ref id) low high)
    (owner : store.owner id = .construct new) :
    ∃ slots, store.cell? id = some (.node form slots (.construct new)) := by
  cases laid with
  | node members cell =>
    simp only [Store.owner, cell] at owner
    rw [owner] at cell
    exact ⟨_, cell⟩

def DeclForm.isGlobal : DeclForm → Bool
  | .type | .constant | .sensor | .group | .signature | .operator => true
  | _ => false

def Store.blockMembers (store : Store) (slot : Slot) : List Slot :=
  match store.form? slot with
  | some (.module form) => if form.isBlock then store.listed ((store.child? slot 0).getD default) else []
  | _ => []

theorem Laid.ref_of_node (laid : Laid store (.node form parts) slot low high) :
    ∃ id, slot = .ref id ∧ store.form? slot = some form := by
  cases laid with
  | plain plain => cases plain
  | node members cell => exact ⟨_, rfl, by simp [Store.form?, cell]⟩

theorem Laid.listed_laid {items : List Term} (laid : Laid store (.list items) slot low high) :
    ∃ last, LaidAll store items (store.listed slot) low last := by
  cases laid with
  | plain plain => cases plain
  | list members cell => exact ⟨_, by rwa [Store.listed_list cell]⟩

theorem Laid.block_members {form : ModuleForm} {items : List Term} (isBlock : form.isBlock = true)
    (laid : Laid store (.node (.module form) [.list items]) (.ref id) low high) :
    (∃ last, LaidAll store items (store.blockMembers (.ref id)) low last) ∧
      ∀ member, .ref member ∈ store.blockMembers (.ref id) → store.owner member = .construct id := by
  cases laid with
  | node members cell owned =>
    cases members with
    | @cons _ slot _ _ _ _ _ head tail =>
      cases tail
      have listed : store.blockMembers (.ref id) = store.listed slot := by
        simp [Store.blockMembers, Store.form?, Store.child?, cell, isBlock]
      rw [listed]
      refine ⟨head.listed_laid, fun member inside => owned member ?_⟩
      have adopts : (Form.module form).adoptions = [.argumentMembers 0] := by
        cases form <;> cases isBlock <;> rfl
      rw [Form.taken, adopts]
      exact List.mem_flatMap.mpr ⟨_, List.mem_cons_self, inside⟩

section Declared

variable {owners : Nat} (front : ∀ steps, store.fullPathUpTo (steps + owners + 1) new = .ok (.text path))
include front

/-- A named declaration has the path of its owner and its own identifier behind it. -/
theorem Laid.reaches_named {form : DeclForm} (laid : Laid store t slot low high) (names : t.Names form)
    (global : form.isGlobal = true) (owner : ∀ id, slot = .ref id → store.owner id = .construct new) :
    ∃ id, slot = .ref id ∧ store.form? slot = some (.decl form) ∧
      store.Reaches path (owners + 1) id := by
  cases names with
  | intro text pragmas rest =>
    obtain ⟨id, rfl⟩ : ∃ id, slot = .ref id := by
      cases laid with
      | plain plain => cases plain
      | node => exact ⟨_, rfl⟩
    obtain ⟨slots, cell⟩ := laid.cell_of_owner (owner id rfl)
    obtain ⟨value, parts, looked, member⟩ := laid.held.identified
    have shape : store.form? (.ref id) = some (.decl form) := by simp [Store.form?, cell]
    refine ⟨id, rfl, shape, Store.reaches_identified cell front ?_ ?_ looked member⟩
    · cases form <;> cases global <;> simp [Store.pathIn, shape, value]
    · cases form <;> cases global <;> rfl

/-- A declaration of a module has the expected path, and so have its members. -/
theorem Laid.reaches (laid : Laid store t slot low high) (declares : t.Declares)
    (owner : ∀ id, slot = .ref id → store.owner id = .construct new) :
    (∃ id, slot = .ref id ∧ store.Reaches path (owners + 1) id) ∧
      ∀ member ∈ store.blockMembers slot, ∃ id, member = .ref id ∧
        store.Reaches path (owners + 2) id := by
  cases declares with
  | @block form items isBlock named =>
    obtain ⟨id, rfl, shape⟩ := laid.ref_of_node
    obtain ⟨slots, cell⟩ := laid.cell_of_owner (owner id rfl)
    have expected : store.pathIn path id = some path := by
      cases form <;> cases isBlock <;> simp [Store.pathIn, shape]
    have reaches : store.Reaches path (owners + 1) id :=
      Store.reaches_inherited cell front expected (by cases form <;> cases isBlock <;> rfl)
    refine ⟨⟨id, rfl, reaches⟩, fun member inside => ?_⟩
    -- The members are owned by the block, which has the path of the module.
    obtain ⟨_, found, behind⟩ := reaches
    cases expected.symm.trans found
    obtain ⟨⟨_, members⟩, owned⟩ := laid.block_members isBlock
    obtain ⟨item, present, _, _, -, -, laid⟩ := members.mem inside
    obtain ⟨member, rfl, -, reaches⟩ := laid.reaches_named behind (named item present)
      (by cases form <;> cases isBlock <;> rfl) fun _ same => by cases same; exact owned _ inside
    exact ⟨member, rfl, reaches⟩
  | signature names =>
    obtain ⟨id, rfl, shape, reaches⟩ := laid.reaches_named front names rfl owner
    exact ⟨⟨id, rfl, reaches⟩, by simp [Store.blockMembers, shape]⟩
  | operator names =>
    obtain ⟨id, rfl, shape, reaches⟩ := laid.reaches_named front names rfl owner
    exact ⟨⟨id, rfl, reaches⟩, by simp [Store.blockMembers, shape]⟩
  | verbatim =>
    obtain ⟨id, rfl, shape⟩ := laid.ref_of_node
    obtain ⟨slots, cell⟩ := laid.cell_of_owner (owner id rfl)
    refine ⟨⟨id, rfl, Store.reaches_verbatim cell front ?_ rfl⟩, ?_⟩
    · simp [Store.pathIn, shape]
    · simp [Store.blockMembers, shape, ModuleForm.isBlock]
  | use =>
    obtain ⟨id, rfl, shape⟩ := laid.ref_of_node
    obtain ⟨slots, cell⟩ := laid.cell_of_owner (owner id rfl)
    refine ⟨⟨id, rfl, Store.reaches_inherited cell front ?_ rfl⟩, ?_⟩
    · simp [Store.pathIn, shape]
    · simp [Store.blockMembers, shape, ModuleForm.isBlock]

end Declared

/-! ### Modules -/

/-- What the module at a slot declares: the modules that it uses, its other declarations, and the
members of blocks. -/
def Store.declared (store : Store) (slot : Slot) : List Slot :=
  let direct := store.listed ((store.child? slot 1).getD default) ++ store.declarations slot
  direct ++ direct.flatMap store.blockMembers

/-- A module has its own path, whatever its owner is. -/
theorem Held.module_path
    (held : Held .none store (.node (.module kind.form) (name :: rest)) (.ref id))
    (named : name.IsPath path) (steps : Nat) :
    store.fullPathUpTo (steps + 1) id = .ok (.text path) := by
  have found := held.moduleName_ok named
  cases held with
  | node cell =>
    rw [Store.fullPathUpTo, cell]
    cases kind <;> exact found

theorem Laid.module_members {uses others : List Term}
    (laid : Laid store (.node (.module kind.form) [name, .list uses, .list others]) (.ref id) low high) :
    ∃ used declared, store.child? (.ref id) 1 = some used ∧ store.child? (.ref id) 2 = some declared ∧
      (∃ start stop, LaidAll store uses (store.listed used) start stop) ∧
      (∃ start stop, LaidAll store others (store.listed declared) start stop) ∧
      ∀ member, .ref member ∈ store.listed used ++ store.listed declared →
        store.owner member = .construct id := by
  cases laid with
  | node members cell owned =>
    cases members with
    | cons _ tail =>
      cases tail with
      | @cons _ used _ _ _ _ _ first tail =>
        cases tail with
        | @cons _ declared _ _ _ _ _ second tail =>
          cases tail
          refine ⟨used, declared, by simp [Store.child?, cell], by simp [Store.child?, cell],
            ⟨_, first.listed_laid⟩, ⟨_, second.listed_laid⟩, fun member inside => owned member ?_⟩
          have adopts : (Form.module kind.form).adoptions =
              [.argumentMembers 2, .argumentMembers 1] := by
            cases kind <;> rfl
          rw [Form.taken, adopts]
          rcases List.mem_append.mp inside with inside | inside
          · exact List.mem_flatMap.mpr ⟨.argumentMembers 1, by simp, inside⟩
          · exact List.mem_flatMap.mpr ⟨.argumentMembers 2, by simp, inside⟩

theorem Laid.module_size (laid : Laid store (.node form (name :: rest)) (.ref id) low high)
    (named : name.IsPath path) : 2 ≤ store.cells.size := by
  obtain ⟨ids, rfl, -⟩ := named.ids
  cases laid with
  | node members cell =>
    cases members with
    | cons head tail =>
      obtain ⟨first, rfl, -⟩ := head.ref_of_node
      have below := head.ref_within.2
      have after := tail.low_le
      have present := Store.lt_of_cell? cell
      omega

/-- What a module that is laid out declares has the expected paths. -/
theorem Laid.module_reaches {uses others : List Term}
    (laid : Laid store (.node (.module kind.form) [name, .list uses, .list others]) (.ref id) low high)
    (named : name.IsPath path) (declares : ∀ d ∈ uses ++ others, d.Declares) :
    ∀ part ∈ store.declared (.ref id), ∃ member, part = .ref member ∧
      (store.Reaches path 1 member ∨ store.Reaches path 2 member) := by
  obtain ⟨used, declared, usedAt, declaredAt, ⟨_, _, first⟩, ⟨_, _, second⟩, owned⟩ :=
    laid.module_members
  have direct : ∀ part ∈ store.listed used ++ store.listed declared,
      (∃ member, part = .ref member ∧ store.Reaches path 1 member) ∧
        ∀ member ∈ store.blockMembers part, ∃ id, member = .ref id ∧ store.Reaches path 2 id := by
    intro part inside
    obtain ⟨d, present, _, _, inner⟩ :
        ∃ d ∈ uses ++ others, ∃ start stop, Laid store d part start stop := by
      rcases List.mem_append.mp inside with inside | inside
      · obtain ⟨d, present, start, stop, -, -, laid⟩ := first.mem inside
        exact ⟨d, List.mem_append_left _ present, start, stop, laid⟩
      · obtain ⟨d, present, start, stop, -, -, laid⟩ := second.mem inside
        exact ⟨d, List.mem_append_right _ present, start, stop, laid⟩
    refine inner.reaches (laid.held.module_path named) (declares d present) fun id same => owned id ?_
    rwa [← same]
  intro part inside
  simp only [Store.declared, Store.declarations, usedAt, declaredAt, Option.getD_some] at inside
  rcases List.mem_append.mp inside with inside | inside
  · obtain ⟨member, same, reaches⟩ := (direct part inside).1
    exact ⟨member, same, .inl reaches⟩
  · obtain ⟨block, present, inside⟩ := List.mem_flatMap.mp inside
    obtain ⟨member, same, reaches⟩ := (direct block present).2 part inside
    exact ⟨member, same, .inr reaches⟩

/-- A module has its name for a full path, and whatever it declares has the full path that is
expected of it: through its owners each declaration finds the module, and each member of a block the
module behind the block. -/
theorem declarations_have_full_paths (reader : Reader) (kind : ModuleKind) (name : String)
    (tree : ParseTree) (w : Workspace) {slot : Slot} {w' : Workspace}
    (built : perform (do load (← ofConversion (convertModule kind.form name tree))) reader w =
      (.ok slot, w')) :
    ∃ id, slot = .ref id ∧ w'.store.form? slot = some (.module kind.form) ∧
      w'.store.fullPath id = .ok (.text (Name.readPath name).fullName) ∧
      ∀ part ∈ w'.store.declared slot, ∃ member expected, part = .ref member ∧
        w'.store.pathIn (Name.readPath name).fullName member = some expected ∧
        w'.store.fullPath member = .ok (.text expected) := by
  obtain ⟨t, w₁, converted, loaded⟩ := bind_ok built
  rw [perform_ofConversion] at converted
  obtain ⟨given, rfl⟩ := Prod.mk.inj converted
  obtain ⟨first, uses, others, rfl, named, declares⟩ := convertModule_declares (Prod.ext given rfl)
  have laid := load_laid _ _ loaded
  obtain ⟨id, rfl, shape⟩ := laid.ref_of_node
  refine ⟨id, rfl, shape, laid.held.module_path named _, fun part inside => ?_⟩
  obtain ⟨member, rfl, reaches⟩ := laid.module_reaches named declares part inside
  have enough := laid.module_size named
  rcases reaches with reaches | reaches
  · obtain ⟨expected, shown, found⟩ := reaches.fullPath (Nat.le_of_lt enough)
    exact ⟨member, expected, rfl, shown, found⟩
  · obtain ⟨expected, shown, found⟩ := reaches.fullPath enough
    exact ⟨member, expected, rfl, shown, found⟩

def mixedTree : ParseTree :=
  let id (text : String) : ParseTree := .identifier (.text text) (.list [])
  let use : ParseTree := .node none [] [("UPath", .list [id "Other"]), ("UAs", .absent)]
  let type : ParseTree := .node none [] [("TypeId", id "T"), ("TypeDef", .node (some "TDefNone") [] [])]
  let kept (text markup : String) : ParseTree :=
    .node (some "DRaw") [.protectedText (.text text) (.text markup)] []
  .node none [] [("MDecls", .list
    [kept "function f;" "text", .node (some "DType") [.list [type], .absent] [], kept "const ?" "const",
      .node (some "DUse") [use, .absent] []])]

def mixedReader : Reader :=
  .ofTable [((.userOperator, "function f;"), ⟨[], .tree (.node none []
    [("OpNode", .truth false), ("OpId", .located (.text "f")), ("OpInputs", .list []),
      ("OpOutputs", .list []), ("OpSizes", .list []), ("OpConstraints", .list []),
      ("OpSpecialization", .absent), ("OpPragmas", .list []), ("OpBody", .absent)])⟩)]

theorem mixed_declarations_have_full_paths :
    ∃ w, perform (do load (← ofConversion (convertModule (ModuleKind.body).form "P-Q" mixedTree)))
        mixedReader { reading := { source := some "P-Q" } } = (.ok (.ref 27), w) ∧
      (w.store.declared (.ref 27)).map (fun part => placeOf (.ok part)) =
        [some 10, some 19, some 24, some 25, some 22] ∧
      [10, 19, 24, 25, 22].map (w.store.pathIn "P::Q") =
        [some "P::Q", some "P::Q::f", some "P::Q", some "P::Q::<protected>", some "P::Q::T"] ∧
      ∀ part ∈ w.store.declared (.ref 27), ∃ member expected, part = .ref member ∧
        w.store.pathIn "P::Q" member = some expected ∧
          w.store.fullPath member = .ok (.text expected) := by
  have name : (Name.readPath "P-Q").fullName = "P::Q" := by decide +kernel
  have built : perform
      (do load (← ofConversion (convertModule (ModuleKind.body).form "P-Q" mixedTree))) mixedReader
        { reading := { source := some "P-Q" } } = (.ok (.ref 27), _) := placeOf_eq (by decide +kernel)
  obtain ⟨_, -, -, -, paths⟩ := declarations_have_full_paths mixedReader .body "P-Q" mixedTree _ built
  rw [name] at paths
  exact ⟨_, built, by decide +kernel, by decide +kernel, paths⟩

end SwanModel
