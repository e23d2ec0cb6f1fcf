import SwanModel.Convert.Basic

/-!
# Shapes of parse trees

A shape says what a parse tree looks like. Where a shape names a rule, it is left open which trees
the rule describes.
-/

namespace SwanModel

/-- What a parse tree looks like. -/
inductive TreeShape where
  /-- A tree that is looked at as a whole. -/
  | leaf (test : ParseTree → Bool)
  /-- What a rule describes. -/
  | construct (rule : Rule)
  | option (value : TreeShape)
  | list (member : TreeShape)
  /-- A list that is not empty. -/
  | filled (member : TreeShape)
  /-- A case of a union with its items. -/
  | case (tag : String) (items : List TreeShape)
  /-- Any case of a union but some. -/
  | other (tags : List String) (items : List TreeShape)
  | tuple (items : List TreeShape)
  | record (fields : List (String × TreeShape))
  | oneOf (shapes : List TreeShape)

namespace TreeShape

mutual

/-- Whether a tree has a shape, if it is known which trees the rules describe. -/
def accepts (known : Rule → ParseTree → Bool) : TreeShape → ParseTree → Bool
  | .leaf test, tree => test tree
  | .construct rule, tree => known rule tree
  | .option shape, tree =>
    match tree with
    | .absent => true
    | .present value => value.isTruthy && accepts known shape value
    | _ => false
  | .list shape, tree =>
    match tree with
    | .list items => items.all (accepts known shape)
    | _ => false
  | .filled shape, tree =>
    match tree with
    | .list items => !items.isEmpty && items.all (accepts known shape)
    | _ => false
  | .case tag shapes, tree =>
    match tree with
    | .node (some t) items _ => t == tag && acceptsItems known shapes items
    | _ => false
  | .other tags shapes, tree =>
    match tree with
    | .node (some t) items _ => !tags.contains t && acceptsItems known shapes items
    | _ => false
  | .tuple shapes, tree =>
    match tree with
    | .node _ items _ => acceptsItems known shapes items
    | _ => false
  | .record shapes, tree =>
    match tree with
    | .node _ _ fields => acceptsFields known shapes fields
    | _ => false
  | .oneOf shapes, tree => acceptsSome known shapes tree

def acceptsItems (known : Rule → ParseTree → Bool) : List TreeShape → List ParseTree → Bool
  | [], [] => true
  | shape :: shapes, tree :: trees => accepts known shape tree && acceptsItems known shapes trees
  | _, _ => false

def acceptsFields (known : Rule → ParseTree → Bool) :
    List (String × TreeShape) → List (String × ParseTree) → Bool
  | [], _ => true
  | (name, shape) :: shapes, fields =>
    (fields.lookup name).any (accepts known shape) && acceptsFields known shapes fields

def acceptsSome (known : Rule → ParseTree → Bool) : List TreeShape → ParseTree → Bool
  | [], _ => false
  | shape :: shapes, tree => accepts known shape tree || acceptsSome known shapes tree

end

end TreeShape

/-! ### What a shape says -/

variable {known : Rule → ParseTree → Bool} {tree : ParseTree} {shape : TreeShape}
  {shapes : List TreeShape}

inductive HasItems (known : Rule → ParseTree → Bool) : List TreeShape → List ParseTree → Prop
  | cons {shape : TreeShape} {shapes : List TreeShape} {tree : ParseTree} {trees : List ParseTree}
      (accepted : shape.accepts known tree = true) (rest : HasItems known shapes trees) :
      HasItems known (shape :: shapes) (tree :: trees)
  | nil : HasItems known [] []

inductive HasFields (known : Rule → ParseTree → Bool) (fields : List (String × ParseTree)) :
    List (String × TreeShape) → Prop
  | cons {name : String} {shape : TreeShape} {shapes : List (String × TreeShape)} {tree : ParseTree}
      (found : fields.lookup name = some tree) (accepted : shape.accepts known tree = true)
      (rest : HasFields known fields shapes) : HasFields known fields ((name, shape) :: shapes)
  | nil : HasFields known fields []

inductive HasOne (known : Rule → ParseTree → Bool) (tree : ParseTree) : List TreeShape → Prop
  | here {shape : TreeShape} {shapes : List TreeShape} (accepted : shape.accepts known tree = true) :
      HasOne known tree (shape :: shapes)
  | there {shape : TreeShape} {shapes : List TreeShape} (rest : HasOne known tree shapes) :
      HasOne known tree (shape :: shapes)

theorem hasOne_of_any (accepted : (shapes.any fun shape => shape.accepts known tree) = true) :
    HasOne known tree shapes := by
  induction shapes with
  | nil => cases accepted
  | cons shape shapes ih =>
    rw [List.any_cons, Bool.or_eq_true] at accepted
    rcases accepted with accepted | accepted
    · exact .here accepted
    · exact .there (ih accepted)

theorem HasOne.of_append {others : List TreeShape} (accepted : HasOne known tree (shapes ++ others)) :
    HasOne known tree shapes ∨ HasOne known tree others := by
  induction shapes with
  | nil => exact .inr accepted
  | cons shape shapes ih =>
    rcases accepted with accepted | accepted
    · exact .inl (.here accepted)
    · rcases ih accepted with accepted | accepted
      · exact .inl (.there accepted)
      · exact .inr accepted

theorem HasFields.of_append {fields : List (String × ParseTree)}
    {shapes others : List (String × TreeShape)} (has : HasFields known fields (shapes ++ others)) :
    HasFields known fields shapes ∧ HasFields known fields others := by
  induction shapes with
  | nil => exact ⟨.nil, has⟩
  | cons shape shapes ih =>
    cases has with
    | cons found accepted rest => exact ⟨.cons found accepted (ih rest).1, (ih rest).2⟩

theorem HasOne.only (accepted : HasOne known tree [shape]) : shape.accepts known tree = true := by
  rcases accepted with accepted | ⟨⟨⟩⟩
  exact accepted

namespace TreeShape

theorem hasItems_of_accepts {trees : List ParseTree}
    (accepted : acceptsItems known shapes trees = true) : HasItems known shapes trees := by
  induction shapes generalizing trees with
  | nil =>
    cases trees with
    | nil => exact .nil
    | cons => simp [acceptsItems] at accepted
  | cons shape shapes ih =>
    cases trees with
    | nil => simp [acceptsItems] at accepted
    | cons tree trees =>
      simp only [acceptsItems, Bool.and_eq_true] at accepted
      exact .cons accepted.1 (ih accepted.2)

theorem accepts_case {tag : String} (accepted : (TreeShape.case tag shapes).accepts known tree = true) :
    ∃ items fields, tree = .node (some tag) items fields ∧ HasItems known shapes items := by
  cases tree with
  | node own items fields =>
    cases own with
    | some own =>
      obtain ⟨same, inside⟩ := Bool.and_eq_true_iff.mp accepted
      obtain rfl := eq_of_beq same
      exact ⟨items, fields, rfl, hasItems_of_accepts inside⟩
    | none => cases accepted
  | _ => cases accepted

theorem accepts_other {tags : List String}
    (accepted : (TreeShape.other tags shapes).accepts known tree = true) :
    ∃ tag items fields, tree = .node (some tag) items fields ∧ tag ∉ tags ∧
      HasItems known shapes items := by
  cases tree with
  | node own items fields =>
    cases own with
    | some own =>
      obtain ⟨different, inside⟩ := Bool.and_eq_true_iff.mp accepted
      exact ⟨own, items, fields, rfl, by simpa using different, hasItems_of_accepts inside⟩
    | none => cases accepted
  | _ => cases accepted

theorem accepts_tuple (accepted : (TreeShape.tuple shapes).accepts known tree = true) :
    ∃ tag items fields, tree = .node tag items fields ∧ HasItems known shapes items := by
  cases tree with
  | node tag items fields => exact ⟨tag, items, fields, rfl, hasItems_of_accepts accepted⟩
  | _ => cases accepted

theorem hasFields_of_accepts {shapes : List (String × TreeShape)} {fields : List (String × ParseTree)}
    (accepted : acceptsFields known shapes fields = true) : HasFields known fields shapes := by
  induction shapes with
  | nil => exact .nil
  | cons entry shapes ih =>
    obtain ⟨first, rest⟩ := Bool.and_eq_true_iff.mp accepted
    obtain ⟨tree, found, fits⟩ := (Option.any_eq_true _ _).mp first
    exact .cons found fits (ih rest)

theorem accepts_record {shapes : List (String × TreeShape)}
    (accepted : (TreeShape.record shapes).accepts known tree = true) :
    ∃ tag items fields, tree = .node tag items fields ∧ HasFields known fields shapes := by
  cases tree with
  | node tag items fields => exact ⟨tag, items, fields, rfl, hasFields_of_accepts accepted⟩
  | _ => cases accepted

theorem accepts_list (accepted : (TreeShape.list shape).accepts known tree = true) :
    ∃ items, tree = .list items ∧ ∀ item ∈ items, shape.accepts known item = true := by
  cases tree with
  | list items => exact ⟨items, rfl, List.all_eq_true.mp accepted⟩
  | _ => cases accepted

theorem accepts_filled (accepted : (TreeShape.filled shape).accepts known tree = true) :
    ∃ first items, tree = .list (first :: items) ∧
      ∀ item ∈ first :: items, shape.accepts known item = true := by
  cases tree with
  | list items =>
    cases items with
    | nil => cases accepted
    | cons first items => exact ⟨first, items, rfl, List.all_eq_true.mp accepted⟩
  | _ => cases accepted

theorem accepts_option (accepted : (TreeShape.option shape).accepts known tree = true) :
    tree = .absent ∨ ∃ value, tree = .present value ∧ value.isTruthy = true ∧
      shape.accepts known value = true := by
  cases tree with
  | absent => exact .inl rfl
  | present value => exact .inr ⟨value, rfl, Bool.and_eq_true_iff.mp accepted⟩
  | _ => cases accepted

theorem accepts_oneOf (accepted : (TreeShape.oneOf shapes).accepts known tree = true) :
    HasOne known tree shapes := by
  simp only [accepts] at accepted
  induction shapes with
  | nil => simp [acceptsSome] at accepted
  | cons shape shapes ih =>
    simp only [acceptsSome, Bool.or_eq_true] at accepted
    rcases accepted with accepted | accepted
    · exact .here accepted
    · exact .there (ih accepted)

end TreeShape

/-! ### How far one has to look -/

namespace ParseTree

theorem height_le_heights {items : List ParseTree} (inside : tree ∈ items) :
    tree.height ≤ heights items := by
  induction items with
  | nil => cases inside
  | cons first items ih =>
    simp only [heights]
    rcases List.mem_cons.mp inside with rfl | inside
    · omega
    · have := ih inside
      omega

theorem height_le_fieldHeights {fields : List (String × ParseTree)} {name : String}
    (found : fields.lookup name = some tree) : tree.height ≤ fieldHeights fields := by
  induction fields with
  | nil => cases found
  | cons entry fields ih =>
    obtain ⟨key, value⟩ := entry
    simp only [fieldHeights]
    rw [List.lookup_cons] at found
    split at found
    · cases found
      omega
    · have := ih found
      omega

end ParseTree

namespace TreeShape

/-- Nothing if a shape says something of a tree itself before it asks what a rule describes. -/
def slack : TreeShape → Nat
  | .construct _ | .oneOf _ => 1
  | _ => 0

theorem slack_le (shape : TreeShape) : shape.slack ≤ 1 := by cases shape <;> simp [slack]

/-- What is known of the trees below a height is known again. -/
def KnownBelow (bound : Nat) (known known' : Rule → ParseTree → Bool) : Prop :=
  ∀ rule tree, tree.height < bound → known rule tree = true → known' rule tree = true

variable {known' : Rule → ParseTree → Bool} {bound : Nat}

mutual

/-- A shape asks about smaller trees, but for the shapes that hand the tree itself on. -/
theorem accepts_of_below (below : KnownBelow bound known known') (shape : TreeShape)
    {tree : ParseTree} (small : tree.height + shape.slack ≤ bound)
    (accepted : shape.accepts known tree = true) : shape.accepts known' tree = true := by
  match shape with
  | .leaf test => exact accepted
  | .construct rule => exact below rule tree (by simp only [slack] at small; omega) accepted
  | .option shape =>
    rcases accepts_option accepted with rfl | ⟨value, rfl, truthy, fits⟩
    · rfl
    · simp only [ParseTree.height, slack] at small
      simp [accepts, truthy, accepts_of_below below shape (by have := shape.slack_le; omega) fits]
  | .list shape =>
    obtain ⟨items, rfl, fits⟩ := accepts_list accepted
    simp only [ParseTree.height, slack] at small
    simp only [accepts, List.all_eq_true]
    intro item inside
    have := ParseTree.height_le_heights inside
    exact accepts_of_below below shape (by have := shape.slack_le; omega) (fits item inside)
  | .filled shape =>
    obtain ⟨first, items, rfl, fits⟩ := accepts_filled accepted
    simp only [ParseTree.height, slack] at small
    simp only [accepts, List.isEmpty_cons, Bool.not_false, Bool.true_and, List.all_eq_true]
    intro item inside
    have := ParseTree.height_le_heights inside
    exact accepts_of_below below shape (by have := shape.slack_le; omega) (fits item inside)
  | .case tag shapes =>
    obtain ⟨items, fields, rfl, _⟩ := accepts_case accepted
    simp only [ParseTree.height, slack] at small
    simp only [accepts, Bool.and_eq_true] at accepted ⊢
    exact ⟨accepted.1, acceptsItems_of_below below shapes (by omega) accepted.2⟩
  | .other tags shapes =>
    obtain ⟨tag, items, fields, rfl, _⟩ := accepts_other accepted
    simp only [ParseTree.height, slack] at small
    simp only [accepts, Bool.and_eq_true] at accepted ⊢
    exact ⟨accepted.1, acceptsItems_of_below below shapes (by omega) accepted.2⟩
  | .tuple shapes =>
    obtain ⟨tag, items, fields, rfl, _⟩ := accepts_tuple accepted
    simp only [ParseTree.height, slack] at small
    simp only [accepts] at accepted ⊢
    exact acceptsItems_of_below below shapes (by omega) accepted
  | .record shapes =>
    obtain ⟨tag, items, fields, rfl, _⟩ := accepts_record accepted
    simp only [ParseTree.height, slack] at small
    simp only [accepts] at accepted ⊢
    exact acceptsFields_of_below below shapes (by omega) accepted
  | .oneOf shapes =>
    simp only [slack] at small
    simp only [accepts] at accepted ⊢
    exact acceptsSome_of_below below shapes (by omega) accepted

theorem acceptsItems_of_below (below : KnownBelow bound known known')
    (shapes : List TreeShape) {trees : List ParseTree}
    (small : ParseTree.heights trees < bound) (accepted : acceptsItems known shapes trees = true) :
    acceptsItems known' shapes trees = true := by
  match shapes, trees with
  | [], [] => rfl
  | [], _ :: _ | _ :: _, [] => simp [acceptsItems] at accepted
  | shape :: shapes, tree :: trees =>
    simp only [ParseTree.heights] at small
    simp only [acceptsItems, Bool.and_eq_true] at accepted ⊢
    have := shape.slack_le
    exact ⟨accepts_of_below below shape (by omega) accepted.1,
      acceptsItems_of_below below shapes (by omega) accepted.2⟩

theorem acceptsFields_of_below (below : KnownBelow bound known known')
    (shapes : List (String × TreeShape)) {fields : List (String × ParseTree)}
    (small : ParseTree.fieldHeights fields < bound)
    (accepted : acceptsFields known shapes fields = true) :
    acceptsFields known' shapes fields = true := by
  match shapes with
  | [] => rfl
  | (name, shape) :: shapes =>
    simp only [acceptsFields, Bool.and_eq_true, Option.any_eq_true] at accepted ⊢
    obtain ⟨⟨tree, found, fits⟩, rest⟩ := accepted
    have := ParseTree.height_le_fieldHeights found
    have := shape.slack_le
    have fits' := accepts_of_below below shape (by omega) fits
    exact ⟨⟨tree, found, fits'⟩, acceptsFields_of_below below shapes small rest⟩

theorem acceptsSome_of_below (below : KnownBelow bound known known')
    (shapes : List TreeShape) {tree : ParseTree} (small : tree.height < bound)
    (accepted : acceptsSome known shapes tree = true) : acceptsSome known' shapes tree = true := by
  match shapes with
  | [] => simp [acceptsSome] at accepted
  | shape :: shapes =>
    simp only [acceptsSome, Bool.or_eq_true] at accepted ⊢
    rcases accepted with accepted | accepted
    · exact .inl (accepts_of_below below shape (by have := shape.slack_le; omega) accepted)
    · exact .inr (acceptsSome_of_below below shapes small accepted)

end

end TreeShape

end SwanModel
