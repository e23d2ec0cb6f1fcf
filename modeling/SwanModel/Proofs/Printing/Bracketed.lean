import SwanModel.Proofs.Printing.Brackets

/-!
# Printed terms whose brackets match

`Printed.Bracketed` is what a layout may take for granted about its parts: there is no bracket in
the texts that they hold, and the brackets match in the texts that they print.
-/

namespace SwanModel

open Brackets

/-! ### Results of computations -/

def Ensures {α : Type} (P : α → Prop) (x : Except Error α) : Prop := ∀ a, x = .ok a → P a

section

variable {α β : Type} {P Q : α → Prop}

@[simp ↓] theorem ensures_ok (a : α) : Ensures P (.ok a) ↔ P a := by simp [Ensures]

@[simp ↓] theorem ensures_pure (a : α) : Ensures P (pure a) ↔ P a := ensures_ok a

@[simp ↓] theorem ensures_error (e : Error) : Ensures P (.error e) := by simp [Ensures]

@[simp ↓] theorem ensures_throw (e : Error) : Ensures P (throw e) := ensures_error e

@[simp ↓] theorem ensures_true (x : Except Error α) : Ensures (fun _ => True) x := fun _ _ => trivial

@[simp ↓] theorem ensures_bind (x : Except Error β) (f : β → Except Error α) :
    Ensures P (x >>= f) ↔ Ensures (fun b => Ensures P (f b)) x := by
  cases x <;> simp [Ensures, bind, Except.bind]

@[simp ↓] theorem ensures_map (x : Except Error β) (f : β → α) : Ensures P (f <$> x) ↔
    Ensures (fun b => P (f b)) x := by
  cases x <;> simp [Ensures, Functor.map, Except.map]

@[simp ↓] theorem ensures_ite (c : Prop) [Decidable c] (x y : Except Error α) :
    Ensures P (if c then x else y) ↔ (c → Ensures P x) ∧ (¬ c → Ensures P y) := by
  split <;> simp [*]

theorem Ensures.use {x : Except Error α} (known : Ensures P x) : Ensures Q x ↔
    ∀ a, P a → x = .ok a → Q a :=
  ⟨fun h a _ eq => h a eq, fun h a eq => h a (known a eq) eq⟩

theorem Ensures.mapM {f : β → Except Error α} {xs : List β} (each : ∀ x ∈ xs, Ensures P (f x)) :
    Ensures (fun ys => ∀ y ∈ ys, P y) (xs.mapM f) := by
  induction xs with
  | nil => simp
  | cons x xs ih =>
    have first := each x (by simp)
    have rest := ih fun y inside => each y (by simp [inside])
    rw [List.mapM_cons]
    simp +contextual [first.use, rest.use]

end

/-! ### Terms without brackets in their texts -/

mutual

def Term.isBracketFree : Term → Bool
  | .text s => decide (Plain s)
  | .pragma content => content.isBracketFree
  | .list items => Term.areBracketFree items
  | .node _ parts => Term.areBracketFree parts
  | _ => true

def Term.areBracketFree : List Term → Bool
  | [] => true
  | t :: rest => t.isBracketFree && Term.areBracketFree rest

end

@[simp] theorem Term.isBracketFree_text {s : String} : (Term.text s).isBracketFree = true ↔ Plain s := by
  simp [Term.isBracketFree]

theorem Term.areBracketFree_iff {ts : List Term} : Term.areBracketFree ts = true ↔
    ∀ t ∈ ts, t.isBracketFree = true := by
  induction ts with
  | nil => simp [Term.areBracketFree]
  | cons t rest ih => simp [Term.areBracketFree, ih]

/-- No text in a printed term has a bracket, and the brackets match in everything that it prints. -/
inductive Printed.Bracketed : Printed → Prop
  | mk {t : Term} {text : Except Error String} {children : List Printed} (plain : t.isBracketFree = true)
      (nested : Ensures Nested text) (inside : ∀ child ∈ children, Bracketed child) :
        Bracketed (.mk t text children)

namespace Printed

variable {p : Printed}

theorem Bracketed.plain (ok : p.Bracketed) : p.term.isBracketFree = true := by
  cases ok with
  | mk plain _ _ => exact plain

theorem Bracketed.text (ok : p.Bracketed) : Ensures Nested p.text := by
  cases ok with
  | mk _ nested _ => exact nested

theorem Bracketed.inside (ok : p.Bracketed) : ∀ child ∈ p.children, child.Bracketed := by
  cases ok with
  | mk _ _ inside => exact inside

theorem Bracketed.plain_text {s : String} (ok : p.Bracketed) (same : p.term = .text s) : Plain s := by
  have plain := ok.plain
  rw [same] at plain
  simpa [Term.isBracketFree] using plain

theorem bracketed_ofText {s : String} (plain : Plain s) : (ofText s).Bracketed :=
  .mk (by simpa [Term.isBracketFree] using plain) (by simpa using plain.nested) (by simp)

theorem Bracketed.items (ok : p.Bracketed) :
    Ensures (fun items => ∀ item ∈ items, item.Bracketed) p.items := by
  unfold Printed.items
  split
  next => simpa using ok.inside
  next s same =>
    simp only [ensures_ok, List.forall_mem_map]
    intro c inside
    exact bracketed_ofText ((plain_ofList _).mpr (by simpa using ok.plain_text same c inside))
  next => simp

theorem Bracketed.texts (ok : p.Bracketed) : Ensures (fun texts => ∀ t ∈ texts, Nested t) p.texts := by
  simp only [Printed.texts, ensures_bind, ok.items.use]
  exact fun items each _ => .mapM fun item inside => (each item inside).text

theorem Bracketed.join {separator : String} (between : Nested separator) (ok : p.Bracketed) :
    Ensures Nested (p.join separator) := by
  simp only [Printed.join, ensures_bind, ok.texts.use, ensures_pure]
  exact fun texts each _ => Nested.intercalate between each

theorem Bracketed.exactText (ok : p.Bracketed) : Ensures Plain p.exactText := by
  unfold Printed.exactText
  split
  next s same => simpa using ok.plain_text same
  next => simp

theorem Bracketed.place (ok : p.Bracketed) {path : List Nat} {q : Printed}
    (found : p.place? path = some q) : q.Bracketed := by
  induction path generalizing p with
  | nil =>
    cases found
    exact ok
  | cons i rest ih =>
    obtain ⟨child, member, found⟩ := Option.bind_eq_some_iff.mp found
    exact ih (ok.inside child (List.mem_of_getElem? member)) found

end Printed

/-! ### Names -/

section Names

variable {parts : List Term} {t : Term}

theorem isBracketFree_partAt (plain : Term.areBracketFree parts = true) (i : Nat) :
    (partAt parts i).isBracketFree = true := by
  rw [partAt, List.getD_eq_getElem?_getD]
  cases found : parts[i]? with
  | none => rfl
  | some t => exact Term.areBracketFree_iff.mp plain t (List.mem_of_getElem? found)

theorem isBracketFree_word {text isName : Term} (plain : text.isBracketFree = true) :
    (Term.word text isName).isBracketFree = true := by
  unfold Term.word
  split
  next s =>
    split
    · exact Term.isBracketFree_text.mpr
        ((plain_append _ _).mpr ⟨by decide, Term.isBracketFree_text.mp plain⟩)
    · exact plain
  next => exact plain

theorem ensures_valueMember (plain : t.isBracketFree = true) :
    Ensures (·.isBracketFree = true) t.valueMember := by
  cases t with
  | node form parts =>
    have each := isBracketFree_partAt (show Term.areBracketFree parts =
      true by simpa [Term.isBracketFree] using plain)
    unfold Term.valueMember
    split <;> simp_all [isBracketFree_word, Term.isBracketFree]
  | _ => simp [Term.valueMember, Term.isBracketFree]

theorem ensures_members (plain : t.isBracketFree = true) :
    Ensures (fun items => ∀ u ∈ items, u.isBracketFree = true) t.members := by
  cases t with
  | list items => simpa [Term.members, Term.isBracketFree, Term.areBracketFree_iff] using plain
  | text s => simpa [Term.members, Plain] using plain
  | _ => simp [Term.members]

theorem ensures_textsOf {ts : List Term} (plain : ∀ u ∈ ts, u.isBracketFree = true) :
    Ensures (fun texts => ∀ s ∈ texts, Plain s) (textsOf ts) := by
  refine .mapM fun u inside => ?_
  split
  next s => simpa [Term.isBracketFree] using plain _ inside
  next => simp

theorem ensures_fullName {ids : Term} (plain : ids.isBracketFree = true) :
    Ensures (fun name => ∀ s, name = .text s → Nested s) (Path.fullName ids) := by
  have values : Ensures (fun items => ∀ u ∈ items, u.isBracketFree = true) (Path.values ids) := by
    simp only [Path.values, ensures_bind, (ensures_members plain).use]
    exact fun items each _ => .mapM fun u inside => ensures_valueMember (each u inside)
  unfold Path.fullName
  split
  · simp only [ensures_bind, values.use, ensures_pure]
    intro items each _ texts read s same
    cases same
    exact .intercalate (by decide : Plain "::").nested fun t inside =>
      (ensures_textsOf each texts read t inside).nested
  · rintro _ ⟨⟩ s rfl
    exact Plain.nested (by simpa [Term.isBracketFree] using plain)

theorem name_property {form : Form} {property : Property}
    (found : form.property? "name" = some property) :
    (∃ i, property = .part i) ∨ property = .value fun ps => Path.name (partAt ps 0) := by
  cases form with
  | _ f =>
    cases f <;> cases found <;> first | exact .inl ⟨_, rfl⟩ | exact .inr rfl

theorem ensures_pathName {ids : Term} (plain : ids.isBracketFree = true) :
    Ensures (·.isBracketFree = true) (Path.name ids) := by
  unfold Path.name
  split
  next items =>
    cases last : items.getLast? with
    | none => simp
    | some u =>
      have member := List.mem_of_getLast? last
      exact ensures_valueMember
        (Term.areBracketFree_iff.mp (by simpa [Term.isBracketFree] using plain) u member)
  next => simpa using plain

theorem ensures_nameProperty {form : Form} {property : Property}
    (plain : Term.areBracketFree parts = true) (found : form.property? "name" = some property) :
    Ensures (fun place => Ensures (·.isBracketFree = true) (place.term parts)) (property parts) := by
  rcases name_property found with ⟨i, rfl⟩ | rfl
  · have part := isBracketFree_partAt plain i
    simpa [Property.part, Found.term, Term.place, Term.children, partAt,
      List.getD_eq_getElem?_getD] using part
  · have name := ensures_pathName (isBracketFree_partAt plain 0)
    change Ensures _ (Found.made <$> Path.name (partAt parts 0))
    simpa [Found.term] using name

theorem ensures_loweredName (plain : t.isBracketFree = true) : Ensures Nested (loweredName t) := by
  cases t with
  | constant c => simpa [loweredName] using (plain_name c).toLower.nested
  | node form parts =>
    rw [Term.isBracketFree] at plain
    simp only [loweredName]
    split
    next property found =>
      simp only [ensures_bind, (ensures_nameProperty plain found).use]
      intro place plain _
      rw [plain.use]
      intro name plain _
      split
      next s _ => exact (ensures_pure _).mpr (Term.isBracketFree_text.mp plain).toLower.nested
      next => simp
    next => simp
  | _ => simp [loweredName]

end Names

/-! ### What a layout asks of its parts -/

namespace Printed.Bracketed

variable {p : Printed} {Q : String → Prop}

theorem ensures_text (ok : p.Bracketed) :
    Ensures Q p.text ↔ ∀ s, Nested s → p.text = .ok s → Q s := ok.text.use

theorem ensures_join {separator : String} (ok : p.Bracketed) (between : Nested separator) :
    Ensures Q (p.join separator) ↔ ∀ s, Nested s → p.join separator = .ok s → Q s :=
  (ok.join between).use

theorem ensures_whenTrue {before after : String} (ok : p.Bracketed)
    (around : ∀ s, Nested s → Nested (before ++ s ++ after)) :
    Ensures Q (p.whenTrue before after) ↔ ∀ s, Nested s → p.whenTrue before after = .ok s → Q s := by
  refine Ensures.use ?_
  simp only [Printed.whenTrue, ensures_ite, ensures_bind, ok.ensures_text, ensures_pure, ensures_ok]
  exact ⟨fun _ s nested _ => around s nested, fun _ _ => rfl⟩

theorem ensures_texts {Q : List String → Prop} (ok : p.Bracketed) :
    Ensures Q p.texts ↔ ∀ texts, (∀ t ∈ texts, Nested t) → p.texts = .ok texts → Q texts := ok.texts.use

theorem ensures_exactText (ok : p.Bracketed) :
    Ensures Q p.exactText ↔ ∀ s, Plain s → p.exactText = .ok s → Q s := ok.exactText.use

theorem ensures_loweredName (ok : p.Bracketed) :
    Ensures Q (loweredName p.term) ↔ ∀ s, Nested s → loweredName p.term = .ok s → Q s :=
  (SwanModel.ensures_loweredName ok.plain).use

theorem ensures_verbatimLayout {markup : String} (ok : p.Bracketed) (mark : Nested markup) :
    Ensures Q (verbatimLayout markup p) ↔ ∀ s, Nested s → verbatimLayout markup p = .ok s → Q s := by
  refine Ensures.use ?_
  simp only [verbatimLayout, ensures_bind, ok.ensures_text, ensures_pure]
  exact fun s nested _ => mark.enclose nested

theorem ensures_items {Q : List Printed → Prop} (ok : p.Bracketed) :
    Ensures Q p.items ↔ ∀ items, (∀ item ∈ items, item.Bracketed) → p.items = .ok items → Q items :=
  ok.items.use

end Printed.Bracketed

end SwanModel
