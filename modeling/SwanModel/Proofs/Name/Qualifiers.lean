import SwanModel.Proofs.Store.HasBody

/-!
# Paths, their names and what stands in front

The path in front of the name stops before the last but one identifier, which is then in neither
part.
-/

namespace SwanModel

open Work

variable {reader : Reader} {store : Store} {w : Workspace} {id : Nat} {slot : Slot}
  {ids : List Slot} {form : Form} {parts shown : List Term} {p : Property} {value : String}
  {values : List String}

/-! ### Identifiers and paths in a store -/

/-- The thing at a slot is an identifier with a value: its text, with an apostrophe in front if it
is a name. -/
def Store.IsIdentifier (store : Store) (value : String) (slot : Slot) : Prop :=
  ∃ id text pragmas comment isName owner, slot = .ref id ∧
    store.cell? id = some (.node (.name .identifier) [.atom (.text text), pragmas, comment,
      .atom isName] owner) ∧
    value = if isName.isTruthy then "'" ++ text else text

/-- The construct at a place is a path that is not a kept text: it has a list of identifiers. -/
def Store.IsPath (store : Store) (ids : List Slot) (id : Nat) : Prop :=
  ∃ list owner, store.cell? id = some (.node (.name .path) [.ref list] owner) ∧
    store.cell? list = some (.list ids)

def SeenIdentifier (value : String) (t : Term) : Prop :=
  ∃ parts, t = .node (.name .identifier) parts ∧
    Term.word (partAt parts 0) (partAt parts 3) = .text value

theorem SeenIdentifier.valueMember {t : Term} (seen : SeenIdentifier value t) :
    t.valueMember = .ok (.text value) := by
  obtain ⟨parts, rfl, word⟩ := seen
  exact congrArg Except.ok word

/-- An identifier is seen from inside any cells that are no identifiers. -/
theorem Store.IsIdentifier.viewInside (identified : store.IsIdentifier value slot)
    (closed : store.ClosedFrom 0) (levels : Nat) {outer : List Nat}
    (others : ∀ other ∈ outer, store.form? (.ref other) ≠ some (.name .identifier)) :
    ∃ t, store.viewInside (levels + 1) outer slot = .ok t ∧ SeenIdentifier value t := by
  obtain ⟨id, text, pragmas, comment, isName, owner, rfl, cell, rfl⟩ := identified
  have outside : id ∉ outer := fun member => others id member (by simp [Store.form?, cell])
  have atom (t : Term) : store.viewInside levels (id :: outer) (.atom t) = .ok t := by
    cases levels <;> rfl
  have within : (Slot.ref id).Within 0 store.cells.size := ⟨Nat.zero_le _, Store.lt_of_cell? cell⟩
  obtain ⟨t, viewed⟩ := (viewInside_succeeds closed (levels + 1) outer within).ok
  refine ⟨t, viewed, ?_⟩
  rw [Store.viewInside, if_neg (by simpa using outside), cell] at viewed
  obtain ⟨parts, made, rfl⟩ := mapped_ok viewed
  obtain ⟨first, isFirst, seen⟩ := mapM_getElem? (i := 0) made rfl
  obtain ⟨last, isLast, seen'⟩ := mapM_getElem? (i := 3) made rfl
  cases (atom _).symm.trans seen
  cases (atom _).symm.trans seen'
  refine ⟨parts, rfl, ?_⟩
  simp only [partAt, List.getD_eq_getElem?_getD, isFirst, isLast, Option.getD_some]
  exact (apply_ite Term.text _ _ _).symm

theorem mapM_seen {f : Slot → Except Error Term}
    (each : List.Forall₂ (fun value slot => ∃ t, f slot = .ok t ∧ SeenIdentifier value t) values ids) :
    ∃ shown, ids.mapM f = .ok shown ∧ List.Forall₂ SeenIdentifier values shown := by
  induction each with
  | nil => exact ⟨[], rfl, .nil⟩
  | cons head tail ih =>
    obtain ⟨t, first, seen⟩ := head
    obtain ⟨shown, rest, others⟩ := ih
    refine ⟨t :: shown, ?_, .cons seen others⟩
    rw [List.mapM_cons, first, ok_bind, rest]
    rfl

theorem Store.IsPath.view (isPath : store.IsPath ids id) (closed : store.ClosedFrom 0)
    (identified : List.Forall₂ store.IsIdentifier values ids) :
    ∃ shown, store.view (.ref id) = .ok (.node (.name .path) [.list shown]) ∧
      List.Forall₂ SeenIdentifier values shown := by
  obtain ⟨list, owner, cell, listCell⟩ := isPath
  have different : list ≠ id := by
    rintro rfl
    rw [cell] at listCell
    cases listCell
  -- The path and its list are two cells, so that there are levels left for the identifiers.
  obtain ⟨levels, size⟩ : ∃ levels, store.cells.size = levels + 2 := by
    have := Store.lt_of_cell? cell
    have := Store.lt_of_cell? listCell
    exact ⟨store.cells.size - 2, by omega⟩
  have others : ∀ other ∈ [list, id], store.form? (.ref other) ≠ some (.name .identifier) := by
    simp [Store.form?, cell, listCell]
  obtain ⟨shown, viewed, seen⟩ :=
    mapM_seen (identified.imp fun _ _ one => one.viewInside closed levels others)
  refine ⟨shown, ?_, seen⟩
  have inner : store.viewInside (levels + 2) [id] (.ref list) = .ok (.list shown) := by
    rw [Store.viewInside, if_neg (by simpa using different), listCell]
    simp only [viewed, ok_bind]
    rfl
  rw [Store.view, Store.viewInside, if_neg (by simp), cell, size]
  simp only [List.mapM_cons, List.mapM_nil, inner, ok_bind]
  rfl

/-! ### The parts of a path -/

section
variable (seen : List.Forall₂ SeenIdentifier values shown)
include seen

theorem Path.values_seen : shown.mapM Term.valueMember = .ok (values.map .text) := by
  induction seen with
  | nil => rfl
  | cons head tail ih =>
    rw [List.mapM_cons, head.valueMember, ok_bind, ih]
    rfl

theorem Path.qualifier_seen :
    Path.qualifier (.list shown) = .ok (.list ((values.take (values.length - 2)).map .text)) := by
  simp only [Path.qualifier, Path.values, Term.isList, Term.members, if_true, ok_bind,
    Path.values_seen seen, List.length_map, List.map_take]
  rfl

theorem Path.name_seen (filled : values ≠ []) :
    Path.name (.list shown) = .ok (.text (values.getLast filled)) := by
  have last : ∃ t, shown.getLast? = some t ∧ SeenIdentifier (values.getLast filled) t := by
    induction seen with
    | nil => contradiction
    | cons head tail ih =>
      cases tail with
      | nil => exact ⟨_, rfl, head⟩
      | cons next rest => exact ih (by simp)
  obtain ⟨t, isLast, seen⟩ := last
  simp only [Path.name, isLast, Option.map_some, Option.getD_some]
  exact seen.valueMember

end

/-- A list that is not empty has one member, or it has two at the end. -/
theorem single_or_two_last {α : Type} {xs : List α} (filled : xs ≠ []) :
    (∃ last, xs = [last]) ∨ ∃ front middle last, xs = front ++ [middle, last] := by
  obtain ⟨front, last, rfl⟩ := (List.eq_nil_or_concat xs).resolve_left filled
  rcases List.eq_nil_or_concat front with rfl | ⟨front, middle, rfl⟩
  · exact .inl ⟨last, rfl⟩
  · exact .inr ⟨front, middle, last, by simp⟩

/-- A text that is left out makes what is joined shorter, also if it is empty. -/
theorem join_shorter (front : List String) (middle last : String) :
    ("::".intercalate (front ++ [last])).length <
      ("::".intercalate (front ++ [middle, last])).length := by
  have short : last.length < ("::".intercalate [middle, last]).length := by
    rw [String.intercalate_cons_cons, String.intercalate_singleton, String.length_append,
      String.length_append]
    exact Nat.lt_add_of_pos_left (Nat.add_pos_right _ (by decide))
  by_cases empty : front = []
  · simpa [empty] using short
  · rw [String.intercalate_append_of_ne_nil empty (by simp),
      String.intercalate_append_of_ne_nil empty (by simp)]
    simpa [String.length_append] using short

/-! ### Reading of texts -/

/-- The thing at a slot is asked for a property: it answers, and nothing changes. -/
def Answers (reader : Reader) (w : Workspace) (slot : Slot) (name : String) (given : Given) : Prop :=
  perform (property name slot) reader w = (.ok given, w)

theorem perform_loadAll_texts (texts : List String) :
    perform (loadAll (texts.map .text)) reader w = (.ok (texts.map fun s => .atom (.text s)), w) := by
  induction texts with
  | nil => rfl
  | cons s texts ih =>
    have first : perform (load (.text s)) reader w = (.ok (.atom (.text s)), w) := rfl
    rw [List.map_cons, loadAll, perform_bind_ok first, perform_bind_ok ih]
    rfl

section
variable (viewed : w.store.view (.ref id) = .ok (.node form parts))
  (isForm : w.store.form? (.ref id) = some form) {name : String}
  (known : form.property? name = some p) (other : name ≠ "owner")
include viewed isForm known other

theorem answers_text {s : String} (given : p parts = .ok (.made (.text s))) :
    Answers reader w (.ref id) name (.slot (.atom (.text s))) := by
  rw [Answers, perform_property reader isForm known other, readProperty,
    perform_bind_ok (observe_ok (a := Found.made (.text s)) (by rw [viewed]; exact given))]
  rfl

theorem answers_texts {texts : List String} (given : p parts = .ok (.made (.list (texts.map .text)))) :
    Answers reader w (.ref id) name (.list (texts.map fun s => .atom (.text s))) := by
  rw [Answers, perform_property reader isForm known other, readProperty,
    perform_bind_ok (observe_ok (a := Found.made (.list (texts.map .text)))
      (by rw [viewed]; exact given))]
  dsimp only
  rw [perform_bind_ok (perform_loadAll_texts texts)]
  rfl

end

/-! ### Paths and their parts -/

theorem Store.IsIdentifier.answers_value (identified : w.store.IsIdentifier value slot)
    (closed : w.store.ClosedFrom 0) (reader : Reader) :
    Answers reader w slot "value" (.slot (.atom (.text value))) := by
  obtain ⟨t, viewed, parts, rfl, word⟩ :=
    identified.viewInside closed w.store.cells.size (List.forall_mem_nil _)
  obtain ⟨id, _, _, _, _, _, rfl, cell, -⟩ := identified
  have isForm : w.store.form? (.ref id) = some (.name .identifier) := by simp [Store.form?, cell]
  exact answers_text viewed isForm rfl (by decide) (congrArg (Except.ok ∘ Found.made) word)

/-- A path with a list of identifiers answers what its properties make of the values of the
identifiers. -/
theorem Store.IsPath.answers (isPath : w.store.IsPath ids id) (closed : w.store.ClosedFrom 0)
    (identified : List.Forall₂ w.store.IsIdentifier values ids) (filled : values ≠ [])
    (reader : Reader) :
    Answers reader w (.ref id) "full_name" (.slot (.atom (.text ("::".intercalate values)))) ∧
      Answers reader w (.ref id) "name" (.slot (.atom (.text (values.getLast filled)))) ∧
      Answers reader w (.ref id) "path"
        (.list ((values.take (values.length - 2)).map fun s => .atom (.text s))) := by
  obtain ⟨shown, viewed, seen⟩ := isPath.view closed identified
  obtain ⟨list, owner, cell, -⟩ := isPath
  have isForm : w.store.form? (.ref id) = some (.name .path) := by simp [Store.form?, cell]
  have made {x : Except Error Term} {t : Term} (given : x = .ok t) :
      x.map Found.made = .ok (.made t) := by
    rw [given]
    rfl
  refine ⟨?_, ?_, ?_⟩
  · exact answers_text viewed isForm rfl (by decide) (made (fullName_of_values (Path.values_seen seen)))
  · exact answers_text viewed isForm rfl (by decide) (made (Path.name_seen seen filled))
  · exact answers_texts viewed isForm rfl (by decide) (made (Path.qualifier_seen seen))

/-- A path with a list of identifiers is asked for its parts. It answers the last value as its name,
all values with colons between them as its full name, and the values before the last two as the path
in front of the name. So the path and the name together are all values, and joined they are the full
name, exactly if there is a single identifier; else the last but one is missing. -/
theorem path_and_name_rejoin_iff (isPath : w.store.IsPath ids id) (closed : w.store.ClosedFrom 0)
    (identified : List.Forall₂ w.store.IsIdentifier values ids) (filled : values ≠ [])
    (reader : Reader) :
    List.Forall₂ (fun value slot =>
      Answers reader w slot "value" (.slot (.atom (.text value)))) values ids ∧
        Answers reader w (.ref id) "full_name" (.slot (.atom (.text ("::".intercalate values)))) ∧
      ∃ (path : List String) (name : String),
        Answers reader w (.ref id) "path" (.list (path.map fun s => .atom (.text s))) ∧
        Answers reader w (.ref id) "name" (.slot (.atom (.text name))) ∧
        (path ++ [name] = values ↔ values.length = 1) ∧
        ("::".intercalate (path ++ [name]) = "::".intercalate values ↔ values.length = 1) ∧
        (values.length ≠ 1 → ∃ missing, values = path ++ [missing, name]) := by
  obtain ⟨fullName, name, path⟩ := isPath.answers closed identified filled reader
  have valued := identified.imp fun _ _ one => one.answers_value closed reader
  refine ⟨valued, fullName, _, _, path, name, ?_⟩
  rcases single_or_two_last filled with ⟨last, rfl⟩ | ⟨front, middle, last, rfl⟩
  · simp
  · -- The cut that leaves out two values leaves out one too many.
    have kept : (front ++ [middle, last]).take ((front ++ [middle, last]).length - 2) = front := by simp
    have isLast : (front ++ [middle, last]).getLast filled = last := by simp
    have many : (front ++ [middle, last]).length ≠ 1 := by simp
    rw [kept, isLast]
    refine ⟨iff_of_false ?_ many, iff_of_false ?_ many, fun _ => ⟨middle, rfl⟩⟩
    · intro same
      simpa using congrArg List.length same
    · intro same
      exact absurd (congrArg String.length same) (Nat.ne_of_lt (join_shorter front middle last))

def loadedPath (words : List (String × Bool)) : Workspace :=
  let ids := words.map fun word =>
    .node (.name .identifier) [.text word.1, .list [], .absent, .truth word.2]
  (perform (load (.node (.name .path) [.list ids])) Reader.none {}).2

theorem loadedPath_closed (words : List (String × Bool)) : (loadedPath words).store.ClosedFrom 0 := by
  have settled (t : Term) : Settling Reader.none {} (perform (load t) Reader.none {}).2 :=
    Keeps.keeps (x := load t) Reader.none {}
  exact (settled _ (Store.closedFrom_size {})).closed

/-- Of three identifiers, the last of them a name, the one in the middle is in no part. -/
theorem middle_of_three_is_missing :
    let w := loadedPath [("P", false), ("Q", false), ("m", true)]
    Answers Reader.none w (.ref 7) "full_name" (.slot (.atom (.text "P::Q::'m"))) ∧
      ∃ (path : List String) (name : String),
        Answers Reader.none w (.ref 7) "path" (.list (path.map fun s => .atom (.text s))) ∧
        Answers Reader.none w (.ref 7) "name" (.slot (.atom (.text name))) ∧
        path ++ [name] ≠ ["P", "Q", "'m"] := by
  intro w
  have isPath : w.store.IsPath [.ref 1, .ref 3, .ref 5] 7 := ⟨6, .none, rfl, rfl⟩
  have identified : List.Forall₂ w.store.IsIdentifier ["P", "Q", "'m"] [.ref 1, .ref 3, .ref 5] :=
    .cons ⟨_, _, _, _, _, _, rfl, rfl, rfl⟩ (.cons ⟨_, _, _, _, _, _, rfl, rfl, rfl⟩
      (.cons ⟨_, _, _, _, _, _, rfl, rfl, rfl⟩ .nil))
  obtain ⟨-, fullName, path, name, asked, named, whole, -⟩ :=
    path_and_name_rejoin_iff isPath (loadedPath_closed _) identified (by decide) Reader.none
  exact ⟨fullName, path, name, asked, named, fun equal => absurd (whole.mp equal) (by decide)⟩

/-- The path in front of the second of two identifiers is empty, and the first one is lost. -/
theorem first_of_two_is_missing :
    let w := loadedPath [("a", false), ("b", false)]
    Answers Reader.none w (.ref 5) "path" (.list []) ∧
      Answers Reader.none w (.ref 5) "name" (.slot (.atom (.text "b"))) ∧
      Answers Reader.none w (.ref 5) "full_name" (.slot (.atom (.text "a::b"))) ∧
      [] ++ ["b"] ≠ ["a", "b"] ∧ "::".intercalate ([] ++ ["b"]) ≠ "a::b" := by
  intro w
  have isPath : w.store.IsPath [.ref 1, .ref 3] 5 := ⟨4, .none, rfl, rfl⟩
  have identified : List.Forall₂ w.store.IsIdentifier ["a", "b"] [.ref 1, .ref 3] :=
    .cons ⟨_, _, _, _, _, _, rfl, rfl, rfl⟩ (.cons ⟨_, _, _, _, _, _, rfl, rfl, rfl⟩ .nil)
  obtain ⟨fullName, name, path⟩ :=
    isPath.answers (loadedPath_closed _) identified (by decide) Reader.none
  exact ⟨path, name, fullName, by decide, by decide⟩

end SwanModel
