import SwanModel.Proofs.Model.Eager

/-!
# Finding a declaration

The search for a declaration stops in the first source that has one which passes the test, and loads
no source behind it.
-/

namespace SwanModel

variable {position : Nat} {slots : List Slot} {sources : List SwanFile} {slot : Slot}

variable {supply : Supply} {b b' b'' : Browser}

/-! ### Places of declarations -/

def Supply.declarationsAt (supply : Supply) (sources : List SwanFile) (position : Nat) : List Term :=
  (sources[position]?.map supply.declarations).getD []

/-- The places of the declarations of the source at a position: the position, and an index in the
source. -/
def Supply.placesAt (supply : Supply) (sources : List SwanFile) (position : Nat) : List (Nat × Nat) :=
  (List.range' 0 (supply.declarationsAt sources position).length).map (position, ·)

def Supply.places (supply : Supply) (sources : List SwanFile) : List (Nat × Nat) :=
  (List.range sources.length).flatMap (supply.placesAt sources)

def Browser.isLoaded (b : Browser) (position : Nat) : Bool := (b.model.module? position).isSome

/-- The source at a position is loaded, and its declarations are at some slots. -/
def Browser.Lists (b : Browser) (position : Nat) (slots : List Slot) : Prop :=
  ∃ module list, b.model.module? position = some module ∧
    b.store.child? (.ref module) Browse.declarationsIndex = some list ∧ b.store.members list = .ok slots

def Browser.Declares (b : Browser) (position index : Nat) (slot : Slot) : Prop :=
  ∃ slots, b.Lists position slots ∧ slots[index]? = some slot

theorem SlotRefines.members {body : Bodies} {store store' : Store} {slot' : Slot}
    (refines : Refines body store store') (changed : SlotRefines body store' slot slot')
    (listed : store.members slot = .ok slots) : slot' = slot ∧ store'.members slot = .ok slots := by
  cases changed with
  | tree stands held => cases listed
  | plan plan => cases listed
  | same =>
    refine ⟨rfl, ?_⟩
    cases slot with
    | atom t => exact listed
    | delayed delayed => cases listed
    | ref id =>
      simp only [Store.members] at listed ⊢
      split at listed
      · rename_i cell
        rw [refines.lists cell]
        exact listed
      · cases listed

theorem forall₂_getElem? {α : Type} {related : α → α → Prop} {xs ys : List α}
    (all : List.Forall₂ related xs ys) {i : Nat} {x : α} (found : xs[i]? = some x) :
    ∃ y, ys[i]? = some y ∧ related x y := by
  induction all generalizing i with
  | nil => simp at found
  | cons head _ ih =>
    cases i with
    | zero =>
      cases found
      exact ⟨_, rfl, head⟩
    | succ i => exact ih found

theorem Looking.lists (looking : Looking supply b b')
    (here : b.Lists position slots) : b'.Lists position slots := by
  obtain ⟨module, list, loaded, child, listed⟩ := here
  refine ⟨module, list, looking.1 ▸ loaded, ?_⟩
  simp only [Store.child?] at child ⊢
  split at child
  · rename_i cell
    rw [looking.2.lists cell]
    exact ⟨child, (SlotRefines.members looking.2 (.same list) listed).2⟩
  · rename_i form parts owner cell
    obtain ⟨parts', owner', cell', changed⟩ := looking.2.nodes cell
    obtain ⟨list', child', refined⟩ := forall₂_getElem? changed child
    obtain ⟨rfl, kept⟩ := refined.members looking.2 listed
    rw [cell']
    exact ⟨child', kept⟩
  · cases child

theorem HeldAll.length_eq {body : Bodies} {store : Store} {ts : List Term}
    (held : HeldAll body store ts slots) : ts.length = slots.length := by
  induction ts generalizing slots with
  | nil =>
    cases held
    rfl
  | cons t ts ih =>
    cases held with
    | cons head tail => rw [List.length_cons, List.length_cons, ih tail]

/-! ### Loading more sources -/

/-- More sources may be loaded, and modules that are loaded stay. -/
structure Adding (supply : Supply) (b b' : Browser) : Prop where
  loading : Loading supply b b'
  kept : ∀ {position module}, b.model.module? position = some module →
    b'.model.module? position = some module

instance : Lasting Adding where
  refl supply b := ⟨Lasting.refl supply b, id⟩
  trans first second :=
    ⟨Lasting.trans first.loading second.loading, fun found => second.kept (first.kept found)⟩

theorem Looking.adding (looking : Looking supply b b') : Adding supply b b' :=
  ⟨looking.loading, fun found => looking.1 ▸ found⟩

/-- A source is loaded now, and of the others those that were loaded before. -/
def Entered (position : Nat) (b b' : Browser) : Prop :=
  ∀ other, b'.isLoaded other = true ↔ b.isLoaded other = true ∨ other = position

theorem moduleAt_adds {file : SwanFile} (found : b.model.source? position = some file)
    (loads : supply.loads file = true) :
    ∃ module b', perform (Browse.moduleAt position) supply b = (.ok module, b') ∧ Adding supply b b' ∧
      b'.model.module? position = some module ∧ Entered position b b' := by
  cases present : b.model.module? position with
  | some module =>
    refine ⟨module, b, moduleAt_loaded present, Lasting.refl supply b, present, fun other => ?_⟩
    exact ⟨.inl, fun either => either.elim id fun same => by simp [same, Browser.isLoaded, present]⟩
  | none =>
    obtain ⟨module, b', ran⟩ := load_succeeds found (loadable_of_loads loads)
    have loaded := load_ok ran
    have inside : position < b.model.entries.length := by
      by_contra outside
      simp [Model.source?, outside] at found
    have put : b'.model.module? position = some module := by
      rw [loaded.model, Model.module?_put_self _ _ inside]
    have others {other : Nat} (different : position ≠ other) :
        b'.model.module? other = b.model.module? other := by
      rw [loaded.model, Model.module?_put_of_ne _ _ different]
    have ran := (moduleAt_unloaded present).trans ran
    refine ⟨module, b', ran, ⟨loaded.loading, fun {other _} known => ?_⟩, put, fun other => ?_⟩
    · have different : position ≠ other := by
        rintro rfl
        simp [present] at known
      rw [others different, known]
    · by_cases same : position = other
      · subst same
        simp [Browser.isLoaded, put]
      · simp [Browser.isLoaded, others same, Ne.symm same]

theorem itemsOf_ok {id index : Nat}
    (items : perform (Browse.itemsOf id index) supply b = (.ok slots, b')) :
    ∃ list, b.store.child? (.ref id) index = some list ∧ b.store.members list = .ok slots := by
  rw [Browse.itemsOf, perform_work, perform_bind_ok perform_store] at items
  cases child : b.store.child? (.ref id) index with
  | none => simp [Store.place?, child] at items
  | some list =>
    refine ⟨list, rfl, ?_⟩
    cases listed : b.store.members list with
    | error e => simp [Store.place?, child, listed] at items
    | ok others =>
      simp only [Store.place?, child, listed, Option.bind_some, perform_ofExcept_ok,
        Prod.mk.injEq] at items
      exact items.1

/-- The declarations of a source that is loaded are held as parsing the source gives them. -/
theorem Browser.Lists.held (lists : b.Lists position slots)
    (faithful : b.Faithful supply) :
    HeldAll (BodyOf supply.reader) b.store (supply.declarationsAt b.model.sources position) slots := by
  obtain ⟨module, list, loaded, child, listed⟩ := lists
  obtain ⟨file, t, found, parsed⟩ := faithful position module loaded
  obtain ⟨others, items, held⟩ := moduleItems_held ⟨file, t, found, parsed⟩ found
  obtain ⟨list', child', listed'⟩ := itemsOf_ok items
  obtain rfl : list = list' := Option.some.inj (child.symm.trans child')
  obtain rfl : slots = others := Except.ok.inj (listed.symm.trans listed')
  rw [Supply.declarationsAt, Model.sources_getElem?, found]
  exact held

theorem Browser.Declares.held {index : Nat} (declares : b.Declares position index slot)
    (faithful : b.Faithful supply) :
    ∃ t, (supply.declarationsAt b.model.sources position)[index]? = some t ∧
      Held (BodyOf supply.reader) b.store t slot := by
  obtain ⟨slots, lists, here⟩ := declares
  have held := lists.held faithful
  have inside : index < (supply.declarationsAt b.model.sources position).length := by
    rw [held.length_eq]
    exact (List.getElem?_eq_some_iff.mp here).1
  obtain ⟨slot', here', heldHere⟩ := held.getElem? (List.getElem?_eq_getElem inside)
  obtain rfl : slot = slot' := Option.some.inj (here.symm.trans here')
  exact ⟨_, List.getElem?_eq_getElem inside, heldHere⟩

/-- To get the declarations at a position loads its source if needed, and no other. -/
theorem declarationsAt_adds (faithful : b.Faithful supply) {file : SwanFile}
    (found : b.model.source? position = some file) (loads : supply.loads file = true) :
    ∃ slots b', perform (Browse.declarationsAt position) supply b = (.ok slots, b') ∧
      Adding supply b b' ∧ Entered position b b' ∧ b'.Lists position slots ∧
      HeldAll (BodyOf supply.reader) b'.store (supply.declarations file) slots := by
  obtain ⟨module, b', ran, adding, loaded, entered⟩ := moduleAt_adds (b := b) found loads
  have holds := faithful.later adding.loading position module loaded
  obtain ⟨slots, items, held⟩ := moduleItems_held holds ((adding.loading.source? position).trans found)
  obtain ⟨list, child, listed⟩ := itemsOf_ok items
  exact ⟨slots, b', (perform_bind_ok ran _).trans items, adding, entered,
    ⟨module, list, loaded, child, listed⟩, held⟩

/-! ### The search -/

/-- A test says of the declaration at each place whether something holds there, the same whenever it
is asked while more sources are loaded. It may look at all that is loaded, and compute bodies, but
loads nothing. -/
def Decides (supply : Supply) (b : Browser) (test : Slot → Browse Bool) (holds : Nat × Nat → Bool) :
    Prop :=
  ∀ b₁, Adding supply b b₁ → ∀ position index slot, b₁.Declares position index slot →
    ∃ b₂, perform (test slot) supply b₁ = (.ok (holds (position, index)), b₂) ∧ Looking supply b₁ b₂

section
variable {test : Slot → Browse Bool} {holds : Nat × Nat → Bool}

theorem Decides.later (decides : Decides supply b test holds) (adding : Adding supply b b') :
    Decides supply b' test holds :=
  fun b₁ more => decides b₁ (Lasting.trans adding more)

/-- What a search finds is the declaration at a place, or nothing if there is no such place. -/
def Browser.Answers (b : Browser) (place : Option (Nat × Nat)) (found : Option Slot) : Prop :=
  match place, found with
  | none, none => True
  | some (position, index), some slot => b.Declares position index slot
  | _, _ => False

/-- The search in one source. The induction is on what is left of its declarations, from the index
`k` on. -/
theorem findIn_finds {k : Nat} {rest : List Slot} (decides : Decides supply b test holds)
    (lists : b.Lists position slots) (left : slots.drop k = rest) :
    ∃ found b', perform (Cursor.findIn test rest) supply b = (.ok found, b') ∧ Looking supply b b' ∧
      b'.Answers (((List.range' k rest.length).map (position, ·)).find? holds) found := by
  induction rest generalizing k b with
  | nil => exact ⟨none, b, rfl, Lasting.refl supply b, trivial⟩
  | cons slot rest ih =>
    have here : slots[k]? = some slot := by
      rw [← List.head?_drop, left]
      rfl
    obtain ⟨b₁, tested, looking⟩ :=
      decides b (Lasting.refl supply b) position k slot ⟨slots, lists, here⟩
    rw [Cursor.findIn, perform_bind_ok tested, List.length_cons, List.range'_succ, List.map_cons,
      List.find?_cons]
    cases passed : holds (position, k) with
    | true => exact ⟨some slot, b₁, rfl, looking, slots, looking.lists lists, here⟩
    | false =>
      have further : slots.drop (k + 1) = rest := by
        rw [← List.drop_drop, left, List.drop_one, List.tail_cons]
      obtain ⟨found, b₂, ran, more, answers⟩ :=
        ih (decides.later looking.adding) (looking.lists lists) further
      exact ⟨found, b₂, ran, Lasting.trans looking more, answers⟩

/-- What a search through the sources ahead gives, and what is loaded behind it. -/
structure Finds (supply : Supply) (b : Browser) (ahead : List Nat) (place : Option (Nat × Nat))
    (found : Option Slot) (b' : Browser) : Prop where
  adding : Adding supply b b'
  answers : b'.Answers place found
  loaded : ∀ position, b'.isLoaded position = true ↔
    b.isLoaded position = true ∨ position ∈ ahead ∧ ∀ last ∈ place, position ≤ last.1

theorem fst_of_mem_placesAt {place : Nat × Nat}
    (among : place ∈ supply.placesAt sources position) : place.1 = position := by
  obtain ⟨index, -, rfl⟩ := List.mem_map.mp among
  rfl

theorem fst_of_mem_places {ahead : List Nat} {place : Nat × Nat}
    (among : place ∈ ahead.flatMap (supply.placesAt sources)) : place.1 ∈ ahead := by
  obtain ⟨position, member, inside⟩ := List.mem_flatMap.mp among
  rwa [fst_of_mem_placesAt inside]

/-- The search in one source of the model, which is loaded for it. -/
theorem searchAt_finds (faithful : b.Faithful supply)
    (same : b.model.sources = sources) (loads : ∀ file ∈ sources, supply.loads file = true)
    (inside : position < sources.length) (decides : Decides supply b test holds) :
    ∃ slots b₁ found b₂, perform (Browse.declarationsAt position) supply b = (.ok slots, b₁) ∧
      perform (Cursor.findIn test slots) supply b₁ = (.ok found, b₂) ∧ Adding supply b b₂ ∧
        Entered position b b₂ ∧
      b₂.Answers ((supply.placesAt sources position).find? holds) found := by
  obtain ⟨file, source⟩ : ∃ file, sources[position]? = some file := ⟨_, List.getElem?_eq_getElem inside⟩
  have known : b.model.source? position = some file := by rw [← Model.sources_getElem?, same, source]
  obtain ⟨slots, b₁, listed, adding, entered, lists, held⟩ :=
    declarationsAt_adds faithful known (loads file (List.mem_of_getElem? source))
  have places : supply.placesAt sources position = (List.range' 0 slots.length).map (position, ·) := by
    rw [Supply.placesAt, Supply.declarationsAt, source, ← held.length_eq]
    rfl
  obtain ⟨found, b₂, ran, looking, answers⟩ := findIn_finds (decides.later adding) lists List.drop_zero
  rw [← places] at answers
  refine ⟨slots, b₁, found, b₂, listed, ran, Lasting.trans adding looking.adding, fun other => ?_,
    answers⟩
  -- A test loads nothing.
  have model : b₂.isLoaded other = b₁.isLoaded other := by
    rw [Browser.isLoaded, looking.1, Browser.isLoaded]
  rw [model]
  exact entered other

/-- The search through the sources ahead, by induction on them: it goes on where the first of them
holds nothing. -/
theorem findAhead_finds {ahead : List Nat} (faithful : b.Faithful supply)
    (same : b.model.sources = sources) (loads : ∀ file ∈ sources, supply.loads file = true)
    (inside : ∀ position ∈ ahead, position < sources.length) (ordered : ahead.Pairwise (· < ·))
    (decides : Decides supply b test holds) :
    ∃ found b', perform (Cursor.findAhead test ahead) supply b = (.ok found, b') ∧
      Finds supply b ahead ((ahead.flatMap (supply.placesAt sources)).find? holds) found b' := by
  induction ahead generalizing b with
  | nil => exact ⟨none, b, rfl, Lasting.refl supply b, trivial, by simp⟩
  | cons position ahead ih =>
    obtain ⟨later, ordered⟩ := List.pairwise_cons.mp ordered
    obtain ⟨slots, b₁, first, b₂, listed, ran, sofar, entered, answers⟩ :=
      searchAt_finds faithful same loads (inside position List.mem_cons_self) decides
    rw [Cursor.findAhead, perform_bind_ok listed, perform_bind_ok ran, List.flatMap_cons,
      List.find?_append]
    cases place : (supply.placesAt sources position).find? holds with
    | some last =>
      rw [place] at answers
      have here : last.1 = position := fst_of_mem_placesAt (List.mem_of_find?_eq_some place)
      cases first with
      | none => exact answers.elim
      | some slot =>
        refine ⟨some slot, b₂, rfl, sofar, answers, fun other => ?_⟩
        rw [entered, Option.some_or]
        refine or_congr_right ⟨fun same => ?_, fun reached => ?_⟩
        · simp [same, here]
        · rcases List.mem_cons.mp reached.1 with same | behind
          · exact same
          · have low := reached.2 last rfl
            exact absurd (later other behind) (Nat.not_lt.mpr (here ▸ low))
    | none =>
      rw [place] at answers
      cases first with
      | some slot => exact answers.elim
      | none =>
        obtain ⟨slot, b₃, ran, finds⟩ :=
          ih (faithful.later sofar.loading) (sofar.loading.sources.trans same) (fun other member =>
            inside other (List.mem_cons_of_mem _ member)) ordered (decides.later sofar)
        refine ⟨slot, b₃, ran, Lasting.trans sofar finds.adding, finds.answers, fun other => ?_⟩
        rw [finds.loaded, entered, Option.none_or, or_assoc]
        -- The first of the sources ahead is in front of the one where the search ends.
        have before : ∀ last ∈ (ahead.flatMap (supply.placesAt sources)).find? holds,
            position ≤ last.1 := by
          intro last ended
          exact Nat.le_of_lt (later _ (fst_of_mem_places (List.mem_of_find?_eq_some ended)))
        rw [List.mem_cons, or_and_right]
        exact or_congr_right (or_congr_left ⟨fun same => ⟨same, same ▸ before⟩, And.left⟩)

end

theorem decides_of_held {test : Slot → Browse Bool} {holds : Term → Bool} (faithful : b.Faithful supply)
    (tests : ∀ {b₁ : Browser} {t : Term} {slot : Slot}, t.isDeclaration = true →
      Held (BodyOf supply.reader) b₁.store t slot →
        ∃ b₂, perform (test slot) supply b₁ = (.ok (holds t), b₂) ∧ Looking supply b₁ b₂) :
    Decides supply b test fun place =>
      (supply.declarationsAt b.model.sources place.1)[place.2]?.any holds := by
  intro b₁ adding position index slot declares
  obtain ⟨t, declared, held⟩ := declares.held (faithful.later adding.loading)
  rw [adding.loading.sources] at declared
  have isDeclaration : t.isDeclaration = true := by
    unfold Supply.declarationsAt at declared
    cases source : b.model.sources[position]? with
    | none => simp [source] at declared
    | some file =>
      simp only [source, Option.map_some, Option.getD_some] at declared
      exact declarations_isDeclaration file t (List.mem_of_getElem? declared)
  simpa [declared] using tests isDeclaration held

theorem titled_decides (faithful : b.Faithful supply) (title : String) :
    Decides supply b (Browse.passes (.titled title)) fun place =>
      (supply.declarationsAt b.model.sources place.1)[place.2]?.any fun t =>
        t.form?.any (·.title == title) := by
  refine decides_of_held faithful fun {b₁ t slot} declared held => ?_
  obtain ⟨form, parts, rfl⟩ := isDeclaration_node declared
  obtain ⟨id, rfl, known⟩ := form?_held held
  refine ⟨b₁, ?_, Lasting.refl supply b₁⟩
  rw [Browse.passes, Browse.titleOf, bind_assoc, perform_bind_ok (perform_formOf? _), known]
  rfl

/-- Whatever is loaded before, a search gives the first declaration, in the order of the sources and
then of the declarations, that passes the test, and nothing exactly if none does. The sources up to
the one where it ends, or all of them, are loaded then, and of the others those that were loaded
before. -/
theorem find?_first_loads_no_more (supply : Supply) (b : Browser) (faithful : b.Faithful supply)
    (loads : ∀ file ∈ b.model.sources, supply.loads file = true) (test : Slot → Browse Bool)
    (holds : Nat × Nat → Bool) (decides : Decides supply b test holds) :
    ∃ found b', perform ((Cursor.start b.model).find? test) supply b = (.ok found, b') ∧
      (match (supply.places b.model.sources).find? holds with
        | none => found = none
        | some (position, index) => ∃ slot t, found = some slot ∧ b'.Declares position index slot ∧
            (supply.declarationsAt b.model.sources position)[index]? = some t ∧
            Held (BodyOf supply.reader) b'.store t slot) ∧
      (∀ position, b'.isLoaded position = true ↔ b.isLoaded position = true ∨
        position < b.model.sources.length ∧
          ∀ last ∈ (supply.places b.model.sources).find? holds, position ≤ last.1) ∧
      b'.model.sources = b.model.sources ∧
      ∀ position module, b.model.module? position = some module →
        b'.model.module? position = some module := by
  have positions : b.model.positions = List.range b.model.sources.length := by
    simp [Model.positions, Model.sources]
  obtain ⟨found, b', ran, finds⟩ := findAhead_finds faithful rfl loads (fun _ => List.mem_range.mp)
    List.pairwise_lt_range decides
  refine ⟨found, b', ?_, ?_, fun position => ?_, finds.adding.loading.sources,
    fun _ _ => finds.adding.kept⟩
  · rw [Cursor.find?, Cursor.start, positions]
    exact ran
  · have answers := finds.answers
    rw [Supply.places]
    split
    · rename_i absent
      rw [absent] at answers
      cases found with
      | none => rfl
      | some slot => exact answers.elim
    · rename_i position index first
      rw [first] at answers
      cases found with
      | none => exact answers.elim
      | some slot =>
        obtain ⟨t, declared, held⟩ := Browser.Declares.held answers (faithful.later finds.adding.loading)
        rw [finds.adding.loading.sources] at declared
        exact ⟨slot, t, rfl, answers, declared, held⟩
  · rw [finds.loaded, List.mem_range]
    rfl

def secondLoaded : Browser :=
  (perform (Browse.load 1) sharedType
    (Session.opening [.ofText "a.swan", .ofText "b.swani"] {}).browser).2

/-- The types are found in the first of two files when only the second is loaded, and both are
loaded then. -/
theorem find?_in_front_of_loaded :
    (secondLoaded.isLoaded 0 = false ∧ secondLoaded.isLoaded 1 = true) ∧
    ∃ slot t b',
        perform ((Cursor.start secondLoaded.model).find?
          (Browse.passes (.titled "TypeDeclarations"))) sharedType secondLoaded = (.ok (some slot), b') ∧
      b'.Declares 0 0 slot ∧ Held (BodyOf sharedType.reader) b'.store t slot ∧
      b'.isLoaded 0 = true ∧ b'.isLoaded 1 = true ∧ b'.isLoaded 2 = false := by
  have loading : Loading sharedType
      (Session.opening [.ofText "a.swan", .ofText "b.swani"] {}).browser secondLoaded :=
    Keeps.keeps (x := Browse.load 1) sharedType _
  have faithful := (Session.opening_faithful _ _).later loading
  have sources : secondLoaded.model.sources = [.ofText "a.swan", .ofText "b.swani"] := by
    rw [loading.sources]
    exact Model.sources_ofSources _
  have loads : ∀ file ∈ secondLoaded.model.sources, sharedType.loads file = true := by
    rw [sources]
    decide +kernel
  have first : (sharedType.places secondLoaded.model.sources).find? (fun place =>
      (sharedType.declarationsAt secondLoaded.model.sources place.1)[place.2]?.any fun t =>
        t.form?.any (·.title == "TypeDeclarations")) = some (0, 0) := by
    rw [sources]
    decide +kernel
  have search := find?_first_loads_no_more sharedType secondLoaded faithful loads _ _
    (titled_decides faithful "TypeDeclarations")
  rw [first] at search
  obtain ⟨found, b', ran, ⟨slot, t, rfl, declares, -, held⟩, loaded, -⟩ := search
  have before : secondLoaded.isLoaded 0 = false ∧ secondLoaded.isLoaded 1 = true ∧
      secondLoaded.isLoaded 2 = false := by
    decide +kernel
  refine ⟨⟨before.1, before.2.1⟩, slot, t, b', ran, declares, held, ?_, ?_, ?_⟩
  · rw [loaded, sources]
    simp
  · rw [loaded]
    exact .inl before.2.1
  · rw [Bool.eq_false_iff, ne_eq, loaded, sources]
    simp [before]

end SwanModel
