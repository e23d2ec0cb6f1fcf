import SwanModel.Proofs.Model.Order

/-!
# Loading discipline

A source that fails is left as it was and tried again by the next query that gets to it.
-/

namespace SwanModel

variable {supply : Supply} {b b' : Browser}

/-- A selection does not fail on declarations that are held as they were parsed. -/
def Selection.Reliable (selection : Selection) (supply : Supply) : Prop :=
  ∀ (b : Browser) (t : Term) (slot : Slot), t.isDeclaration = true →
    Held (BodyOf supply.reader) b.store t slot →
      ∃ picked b', perform (selection.pick slot) supply b = (.ok picked, b')

theorem reliable_ofQuery {query : ModelQuery} (asks : query.isFilter = false) :
    (Selection.ofQuery query).Reliable supply := by
  intro b t slot declared held
  obtain ⟨picked, ran, -⟩ := select_held declared held asks
  exact ⟨picked, b, ran⟩

def Generator.tries (supply : Supply) : Nat → Generator → Browser → List Try
  | 0, _, _ => []
  | steps + 1, g, b =>
    let pull := g.next supply b
    pull.tried ++ tries supply steps pull.generator pull.browser

/-- A generator comes to try a source, and tries no other before. -/
def Generator.TriesFirst (supply : Supply) (position : Nat) (g : Generator) (b : Browser) : Prop :=
  ∃ steps result later, g.tries supply (steps + 1) b = (position, result) :: later

section
variable {length n : Nat} {g g' : Generator} {selection : Selection} {rest found : List Slot}
  {ahead : List Nat}

theorem Generator.TriesFirst.of_next (same : g.next supply b = g'.next supply b')
    (h : g'.TriesFirst supply n b') : g.TriesFirst supply n b := by
  obtain ⟨steps, result, later, tried⟩ := h
  refine ⟨steps, result, later, ?_⟩
  rw [Generator.tries, same]
  exact tried

theorem Generator.TriesFirst.of_quiet (quiet : (g.next supply b).tried = [])
    (h : (g.next supply b).generator.TriesFirst supply n (g.next supply b).browser) :
    g.TriesFirst supply n b := by
  obtain ⟨steps, result, later, tried⟩ := h
  refine ⟨steps + 1, result, later, ?_⟩
  rw [Generator.tries, quiet]
  exact tried

theorem Generator.TriesFirst.of_found
    (h : Generator.TriesFirst supply n ⟨selection, [], ⟨rest, ahead⟩⟩ b) :
    Generator.TriesFirst supply n ⟨selection, found, ⟨rest, ahead⟩⟩ b := by
  induction found with
  | nil => exact h
  | cons slot more ih => exact .of_quiet rfl ih

/-- A model whose first `n` sources are loaded, and declarations in it that are left to be looked
at. -/
structure Waiting (supply : Supply) (n : Nat) (b : Browser) (rest : List Slot) : Prop where
  faithful : b.Faithful supply
  loaded : b.model.LoadedTo n
  declared : ∃ ts, (∀ t ∈ ts, t.isDeclaration = true) ∧ HeldAll (BodyOf supply.reader) b.store ts rest

theorem Generator.TriesFirst.of_rest (reliable : selection.Reliable supply)
    (onward : ∀ b, Waiting supply n b [] → Generator.TriesFirst supply n ⟨selection, [], ⟨[], ahead⟩⟩ b)
    (waiting : Waiting supply n b rest) :
    Generator.TriesFirst supply n ⟨selection, [], ⟨rest, ahead⟩⟩ b := by
  induction rest generalizing b with
  | nil => exact onward b waiting
  | cons declaration rest ih =>
    obtain ⟨_ | ⟨t, ts⟩, declared, held⟩ := waiting.declared
    · cases held
    cases held with
    | cons head tail =>
      obtain ⟨picked, b', ran⟩ := reliable b t declaration (declared t List.mem_cons_self) head
      have looking : Looking supply b b' := (selection.looks declaration).after ran
      have waiting' : Waiting supply n b' rest :=
        ⟨waiting.faithful.later looking.loading, looking.1 ▸ waiting.loaded, ts,
          fun u member => declared u (List.mem_cons_of_mem t member), tail.mono looking.2⟩
      cases picked with
      | nil =>
        refine .of_next ?_ (ih waiting')
        simp only [Generator.next, Selection.seek, Selection.seekIn, ran]
      | cons slot more =>
        have found : (Generator.next ⟨selection, [], ⟨declaration :: rest, ahead⟩⟩ supply b) =
            ⟨.ok (some slot), [], ⟨selection, more, ⟨rest, ahead⟩⟩, b'⟩ := by
          simp only [Generator.next, Selection.seek, Selection.seekIn, ran]
        refine .of_quiet (by rw [found]) ?_
        rw [found]
        exact .of_found (ih waiting')

/-- The first source that is not loaded is the first that a generator in front of it tries. -/
theorem triesFirst_of_ahead (reliable : selection.Reliable supply) {k : Nat} (low : k ≤ n)
    (inside : n < length) (shape : ahead = List.range' k (length - k))
    (waiting : Waiting supply n b []) :
    Generator.TriesFirst supply n ⟨selection, [], ⟨[], ahead⟩⟩ b := by
  induction ahead generalizing b k with
  | nil =>
    have := congrArg List.length shape
    simp at this
    omega
  | cons position ahead ih =>
    obtain ⟨low, _, shape⟩ := Aligned.cons (.inr ⟨k, low, shape⟩)
    rcases Nat.lt_or_eq_of_le low with before | rfl
    · -- A source that is loaded is entered; what is left is the rest of it and the sources behind it.
      obtain ⟨module, found⟩ := Option.isSome_iff_exists.mp ((waiting.loaded.loaded position).mpr before)
      have holds := waiting.faithful position module found
      obtain ⟨file, _, source, -, -⟩ := id holds
      obtain ⟨slots, items, held⟩ := moduleItems_held holds source
      have entered : perform (Browse.declarationsAt position) supply b = (.ok slots, b) :=
        (perform_bind_ok (moduleAt_loaded found) _).trans items
      have same : Generator.next ⟨selection, [], ⟨[], position :: ahead⟩⟩ supply b =
          Generator.next ⟨selection, [], ⟨slots, ahead⟩⟩ supply b := by
        simp only [Generator.next, Selection.seek, Selection.seekIn, Selection.enter,
          Selection.triedAt, found, entered, List.nil_append]
      exact .of_next same (.of_rest reliable (fun _ => ih before shape)
        ⟨waiting.faithful, waiting.loaded, _, declarations_isDeclaration file, held⟩)
    · refine ⟨0, (perform (Browse.load position) supply b).1, ?_⟩
      simp only [Generator.tries, Generator.next, Selection.seek, Selection.seekIn, Selection.enter,
        Selection.triedAt, waiting.loaded.absent]
      split
      · exact ⟨_, rfl⟩
      · exact ⟨_, rfl⟩

theorem start_triesFirst (reliable : selection.Reliable supply) (faithful : b.Faithful supply)
    (loaded : b.model.LoadedTo n) (inside : n < b.model.entries.length) :
    (Generator.start selection b.model).TriesFirst supply n b :=
  triesFirst_of_ahead reliable (Nat.zero_le n) inside List.range_eq_range' ⟨faithful, loaded,
    [], by simp, .nil⟩

end

end SwanModel
