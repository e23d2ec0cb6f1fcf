import SwanModel.Proofs.Name.ModuleNames

/-!
# The declarations of a module are parted

What a module uses and its other declarations are parted, and each part keeps its order. A use
directive is converted from its tree alone, so that it may as well stand in front of all other
declarations.
-/

namespace SwanModel

open SwanModel.Convert

variable {α β : Type} {reader : Reader} {s s' u : Reading} {tree : ParseTree}
  {trees : List ParseTree} {t : Term} {items : List Term}

/-! ### Conversions without a state -/

/-- A conversion that gives the same whatever was read before, and reads nothing. -/
class Stateless (x : Conversion α) : Prop where
  value : ∃ result, x = Convert.ofExcept result

namespace Stateless

instance (a : α) : Stateless (pure a : Conversion α) := ⟨.ok a, rfl⟩

instance (e : Error) : Stateless (throw e : Conversion α) := ⟨.error e, rfl⟩

instance (result : Except Error α) : Stateless (Convert.ofExcept result) := ⟨result, rfl⟩

instance (x : Conversion α) (f : α → Conversion β) [first : Stateless x] [rest : ∀ a, Stateless (f a)] :
    Stateless (x >>= f) where
  value := by
    obtain ⟨result, rfl⟩ := first.value
    cases result with
    | error e => exact ⟨.error e, rfl⟩
    | ok a =>
      obtain ⟨last, same⟩ := (rest a).value
      exact ⟨last, same⟩

instance (c : Prop) [Decidable c] (x y : Conversion α) [Stateless x] [Stateless y] :
    Stateless (if c then x else y) := by
  split <;> assumption

instance (xs : List α) (f : α → Conversion β) [∀ a, Stateless (f a)] : Stateless (xs.mapM f) := by
  induction xs with
  | nil => rw [List.mapM_nil]; infer_instance
  | cons a rest ih => rw [List.mapM_cons]; infer_instance

theorem anywhere {x : Conversion α} (stateless : Stateless x) {a : α}
    (ran : perform x reader s = (.ok a, s')) : s' = s ∧ ∀ u, perform x reader u = (.ok a, u) := by
  obtain ⟨result, rfl⟩ := stateless.value
  obtain ⟨rfl, same⟩ := ofExcept_ok ran
  exact ⟨same, fun _ => rfl⟩

end Stateless

instance (form : Form) (args : List Term) : Stateless (make form args) := by unfold make; infer_instance

instance (n : Nat) (tree : ParseTree) : Stateless (itemAt n tree) := by unfold itemAt; infer_instance

instance (name : String) (tree : ParseTree) : Stateless (field name tree) := by
  unfold field; infer_instance

instance (tree : ParseTree) : Stateless (identifier tree) := by
  unfold identifier; split <;> infer_instance

instance (tree : ParseTree) : Stateless (use tree) := by
  unfold use path each Convert.optional; infer_instance

/-! ### Use directives -/

def ParseTree.isUse (tree : ParseTree) : Bool := tree.tag.toOption == some "DUse"

def Term.isUse (t : Term) : Bool := t.is (.module .use)

def convertMember (reader : Reader) (module : ParseTree) : ParseTree → Conversion Term :=
  declaration (convertUpTo (levelsFor reader module))

theorem make_isUse {form : Form} {args : List Term}
    (h : perform (make form args) reader s = (.ok t, s')) : t.isUse = (form == .module .use) := by
  obtain ⟨_, -, rfl⟩ := make_ok h
  simp [Term.isUse, Term.is, Term.form?]

theorem userOperator_isUse {self : Convert}
    (h : perform (userOperator self tree) reader s = (.ok t, s')) : t.isUse = false := by
  obtain ⟨_, _, _, h⟩ := bind_ok h
  exact make_isUse h

/-- A use directive comes from the tree of one, and nothing else does. -/
theorem declaration_isUse {levels : Nat}
    (h : perform (declaration (convertUpTo levels) tree) reader s = (.ok t, s')) :
    t.isUse = tree.isUse := by
  obtain ⟨name, s₁, found, h⟩ := bind_ok h
  have tagged := (ofExcept_ok found).1
  have known : tree.isUse = (name == "DUse") := by simp [ParseTree.isUse, tagged, Except.toOption]
  have block {convert : ParseTree → Conversion Term} {form : ModuleForm} (other : (form == .use) = false)
      (h : perform (do make (.module form) [← each convert (← itemAt 1 tree)]) reader s₁ = (.ok t, s')) :
      t.isUse = false := by
    obtain ⟨_, _, _, h⟩ := bind_ok h
    obtain ⟨_, _, _, h⟩ := bind_ok h
    rw [make_isUse h]
    simpa using other
  rw [known]
  split at h
  · exact block rfl h
  · exact block rfl h
  · obtain ⟨_, _, _, h⟩ := bind_ok h
    exact userOperator_isUse h
  · obtain ⟨_, _, _, h⟩ := bind_ok h
    obtain ⟨_, _, _, h⟩ := bind_ok h
    obtain ⟨_, _, _, h⟩ := bind_ok h
    split at h
    · -- A text that is read again is an operator.
      rw [readAgain_eq] at h
      obtain ⟨_, _, _, h⟩ := bind_ok h
      cases levels with
      | zero => cases h
      | succ levels => exact userOperator_isUse h
    · exact make_isUse h
  · exact block rfl h
  · obtain ⟨_, _, _, h⟩ := bind_ok h
    obtain ⟨_, _, _, h⟩ := bind_ok h
    exact make_isUse h
  · exact block rfl h
  · obtain ⟨_, _, _, h⟩ := bind_ok h
    obtain ⟨_, _, _, h⟩ := bind_ok h
    obtain ⟨_, _, _, h⟩ := bind_ok h
    obtain ⟨_, _, _, h⟩ := bind_ok h
    obtain ⟨_, _, _, h⟩ := bind_ok h
    exact make_isUse h
  · cases h

theorem declaration_stateless {self : Convert} (isUse : tree.isUse = true) :
    Stateless (declaration self tree) := by
  have tagged : tag tree = pure "DUse" := by
    rw [ParseTree.isUse, beq_iff_eq] at isUse
    unfold tag
    cases found : tree.tag with
    | error e => simp [found, Except.toOption] at isUse
    | ok name =>
      rw [found] at isUse
      cases isUse
      rfl
  unfold declaration
  rw [tagged, pure_bind]
  exact inferInstanceAs (Stateless (itemAt 1 tree >>= use))

/-! ### Declarations one after the other -/

/-- Use directives in front of the other declarations, both in their order. -/
def ParseTree.usesFirst (trees : List ParseTree) : List ParseTree :=
  trees.filter ParseTree.isUse ++ trees.filter (!·.isUse)

theorem mapM_failed {ρ σ : Type} {f : α → Effect ρ σ β} {env : ρ} {front rest : List α} {bad : α}
    {done : List β} {s s₁ s₂ : σ} {e : Error} (before : perform (front.mapM f) env s = (.ok done, s₁))
    (failed : perform (f bad) env s₁ = (.error e, s₂)) :
    perform ((front ++ bad :: rest).mapM f) env s = (.error e, s₂) := by
  rw [List.mapM_append, perform_bind_ok before, List.mapM_cons]
  exact perform_bind_error (perform_bind_error failed _) _

/-- The use directives can be converted at any time, and the other declarations without them. -/
theorem mapM_parted {module : ParseTree}
    (converted : perform (trees.mapM (convertMember reader module)) reader s = (.ok items, s')) :
        (∀ u, perform ((trees.filter ParseTree.isUse).mapM (convertMember reader module)) reader u =
          (.ok (items.filter Term.isUse), u)) ∧
      perform ((trees.filter (!·.isUse)).mapM (convertMember reader module)) reader s =
        (.ok (items.filter (!·.isUse)), s') := by
  induction trees generalizing items s with
  | nil =>
    cases converted
    exact ⟨fun _ => rfl, rfl⟩
  | cons tree trees ih =>
    rw [List.mapM_cons] at converted
    obtain ⟨t, s₁, first, converted⟩ := bind_ok converted
    obtain ⟨others, s₂, after, converted⟩ := bind_ok converted
    cases converted
    obtain ⟨uses, rest⟩ := ih after
    have same := declaration_isUse first
    cases isUse : tree.isUse with
    | true =>
      rw [isUse] at same
      obtain ⟨rfl, anywhere⟩ := (declaration_stateless isUse).anywhere first
      have moved (u : Reading) : perform (convertMember reader module tree) reader u = (.ok t, u) :=
        anywhere u
      simp only [List.filter_cons, isUse, same, if_true, Bool.not_true, Bool.false_eq_true, if_false]
      refine ⟨fun u => ?_, rest⟩
      rw [List.mapM_cons, perform_bind_ok (moved u), perform_bind_ok (uses u)]
      rfl
    | false =>
      rw [isUse] at same
      have here : perform (convertMember reader module tree) reader s = (.ok t, s₁) := first
      simp only [List.filter_cons, isUse, same, if_true, Bool.not_false, Bool.false_eq_true, if_false]
      refine ⟨uses, ?_⟩
      rw [List.mapM_cons, perform_bind_ok here, perform_bind_ok rest]
      rfl

theorem mapM_usesFirst {module : ParseTree}
    (converted : perform (trees.mapM (convertMember reader module)) reader s = (.ok items, s')) :
    perform ((ParseTree.usesFirst trees).mapM (convertMember reader module)) reader s =
      (.ok (items.filter Term.isUse ++ items.filter (!·.isUse)), s') := by
  obtain ⟨uses, others⟩ := mapM_parted converted
  rw [ParseTree.usesFirst, List.mapM_append, perform_bind_ok (uses s), perform_bind_ok others]
  rfl

/-! ### Modules -/

def Term.module (kind : ModuleKind) (name : String) (items : List Term) : Term :=
  .node (.module kind.form)
    [(Name.readPath name).term, .list (items.filter Term.isUse), .list (items.filter (!·.isUse))]

theorem Term.Declares.isAdoptable (declares : t.Declares) : t.isAdoptable = true := by
  cases declares with
  | signature names => cases names; rfl
  | operator names => cases names; rfl
  | _ => rfl

theorem make_module {kind : ModuleKind} {id : Term} {uses others : List Term}
    (declares : ∀ d ∈ uses ++ others, d.Declares) :
    make (.module kind.form) [id, .list uses, .list others] =
      pure (.node (.module kind.form) [id, .list uses, .list others]) := by
  have adopts (ts : List Term) (part : ∀ d ∈ ts, d.Declares) : ts.forM checkAdoptable = .ok () :=
    forM_eq_ok.mpr fun d member => by simp [checkAdoptable, (part d member).isAdoptable]
  have first := adopts others fun d member => declares d (List.mem_append_right _ member)
  have second := adopts uses fun d member => declares d (List.mem_append_left _ member)
  have filled : ∃ fillings,
      (Form.module kind.form).fill [id, .list uses, .list others] = .ok fillings := by
    cases kind <;> exact ⟨_, rfl⟩
  obtain ⟨fillings, filled⟩ := filled
  have adopted : (Form.module kind.form).adoptions.forM
      (Adoption.check [id, .list uses, .list others] [id, .list uses, .list others]) = .ok () := by
    have listed : (Form.module kind.form).adoptions = [.argumentMembers 2, .argumentMembers 1] := by
      cases kind <;> rfl
    rw [listed, forM_eq_ok, List.forall_mem_cons, List.forall_mem_singleton]
    exact ⟨first, second⟩
  rw [make, Form.build, filled, ok_bind, module_fill kind id uses others filled]
  dsimp only
  rw [adopted]
  rfl

theorem convertMember_declares {module : ParseTree}
    (converted : perform (trees.mapM (convertMember reader module)) reader s = (.ok items, s')) :
    ∀ d ∈ items, d.Declares := by
  intro d member
  obtain ⟨_, _, _, _, found⟩ := mapM_ok converted d member
  exact declaration_declares found

theorem parted_declares (declares : ∀ d ∈ items, d.Declares) :
    ∀ d ∈ items.filter Term.isUse ++ items.filter (!·.isUse), d.Declares := by
  intro d member
  rw [List.mem_append, List.mem_filter, List.mem_filter] at member
  exact declares d (member.elim And.left And.left)

/-- A module is converted exactly if all its declarations are, and its error is that of the
declarations. -/
theorem convertModule_eq (kind : ModuleKind) (name : String)
    (listed : tree.field "MDecls" = .ok (.list trees)) (reader : Reader) (s : Reading) :
    perform (convertModule kind.form name tree) reader s =
      match perform (trees.mapM (convertMember reader tree)) reader s with
      | (.ok items, s') => (.ok (Term.module kind name items), s')
      | (.error e, s') => (.error e, s') := by
  have found : field "MDecls" tree = pure (.list trees) := by rw [field, listed]; rfl
  rw [convertModule, perform_bind_ok (perform_read reader s), Convert.module, Name.modulePath_eq,
    pure_bind]
  simp only [declarationParts, found, pure_bind, bind_assoc]
  change perform ((trees.mapM (convertMember reader tree)) >>= _) reader s = _
  rw [perform_bind]
  rcases ran : perform (trees.mapM (convertMember reader tree)) reader s with ⟨e | items, s₁⟩
  · rfl
  · dsimp only
    rw [List.partition_eq_filter_filter, make_module]
    · rfl
    · exact parted_declares (convertMember_declares ran)

/-! ### Declarations in another order -/

namespace ParseTree

def replaced (name : String) (value : ParseTree) : List (String × ParseTree) → List (String × ParseTree)
  | [] => []
  | (key, old) :: rest =>
    if name == key then (key, value) :: rest else (key, old) :: replaced name value rest

def withField (tree : ParseTree) (name : String) (value : ParseTree) : ParseTree :=
  match tree with
  | .node tag items fields => .node tag items (replaced name value fields)
  | tree => tree

variable {name : String} {value old : ParseTree} {fields : List (String × ParseTree)}

theorem lookup_replaced (found : fields.lookup name = some old) :
    (replaced name value fields).lookup name = some value := by
  induction fields with
  | nil => cases found
  | cons entry rest ih =>
    obtain ⟨key, first⟩ := entry
    rw [List.lookup_cons] at found
    rw [replaced]
    cases same : name == key with
    | true => simp [same, List.lookup_cons]
    | false =>
      rw [same] at found
      simpa [same, List.lookup_cons] using ih found

theorem fieldHeights_replaced (found : fields.lookup name = some old)
    (level : value.height = old.height) :
    fieldHeights (replaced name value fields) = fieldHeights fields := by
  induction fields with
  | nil => cases found
  | cons entry rest ih =>
    obtain ⟨key, first⟩ := entry
    rw [List.lookup_cons] at found
    rw [replaced]
    cases same : name == key with
    | true =>
      rw [same] at found
      cases found
      simp [fieldHeights, level]
    | false =>
      rw [same] at found
      simp [fieldHeights, ih found]

theorem field_ok (found : tree.field name = .ok value) :
    ∃ tag items fields, tree = .node tag items fields ∧ fields.lookup name = some value := by
  cases tree with
  | node tag items fields =>
    refine ⟨tag, items, fields, rfl, ?_⟩
    unfold field at found
    cases inside : fields.lookup name with
    | none => simp [inside] at found
    | some other =>
      simp only [inside, Option.map_some, Option.getD_some, Except.ok.injEq] at found
      rw [found]
  | _ => cases found

theorem field_withField (found : tree.field name = .ok old) :
    (tree.withField name value).field name = .ok value := by
  obtain ⟨tag, items, fields, rfl, inside⟩ := field_ok found
  simp [withField, field, lookup_replaced inside]

theorem height_withField (found : tree.field name = .ok old) (level : value.height = old.height) :
    (tree.withField name value).height = tree.height := by
  obtain ⟨tag, items, fields, rfl, inside⟩ := field_ok found
  simp [withField, height, fieldHeights_replaced inside level]

theorem heights_usesFirst (trees : List ParseTree) : heights (usesFirst trees) = heights trees := by
  rw [usesFirst, heights_append]
  induction trees with
  | nil => rfl
  | cons tree rest ih => cases isUse : tree.isUse <;> simp [isUse, heights] <;> omega

end ParseTree

/-- The same module comes out when the use directives are put in front. -/
theorem convertModule_usesFirst (kind : ModuleKind) (name : String)
    (listed : tree.field "MDecls" = .ok (.list trees))
    (converted : perform (trees.mapM (convertMember reader tree)) reader s = (.ok items, s')) :
    perform (convertModule kind.form name
      (tree.withField "MDecls" (.list (ParseTree.usesFirst trees)))) reader s =
        perform (convertModule kind.form name tree) reader s := by
  have level : (ParseTree.list (ParseTree.usesFirst trees)).height = (ParseTree.list trees).height := by
    simp [ParseTree.height, ParseTree.heights_usesFirst]
  have members : convertMember reader (tree.withField "MDecls" (.list (ParseTree.usesFirst trees))) =
      convertMember reader tree := by
    rw [convertMember, convertMember, levelsFor, levelsFor, ParseTree.height_withField listed level]
  have parted : Term.module kind name (items.filter Term.isUse ++ items.filter (!·.isUse)) =
      Term.module kind name items := by
    simp [Term.module, List.filter_append, List.filter_filter]
  rw [convertModule_eq kind name (ParseTree.field_withField listed),
    convertModule_eq kind name listed, members, mapM_usesFirst converted, converted]
  simp only [parted]

end SwanModel
