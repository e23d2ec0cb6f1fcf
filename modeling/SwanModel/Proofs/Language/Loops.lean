import SwanModel.Proofs.Convert.Modules
import SwanModel.Proofs.Language.LoopGrammar

/-!
# Forward loops are converted and printed, or not
-/

namespace SwanModel

open SwanModel.Convert

variable {t : Term} {f : ParseTree → Conversion Term}

/-! ### How conversions of loops end -/

/-- A construct that has a text exactly if a condition holds. -/
structure Speaks (condition : Bool) (t : Term) : Prop where
  node : ∃ form parts, t = .node form parts
  prints : t.prints = condition

theorem Speaks.isTruthy {condition : Bool} (speaks : Speaks condition t) : t.isTruthy = true := by
  obtain ⟨form, parts, rfl⟩ := speaks.node
  rfl

theorem Speaks.printsIfGiven {condition : Bool} (speaks : Speaks condition t) :
    t.printsIfGiven = condition := by
  rw [Term.printsIfGiven, speaks.isTruthy, speaks.prints]
  rfl

/-- What goes wrong in the conversion of a loop: a part is sought where it is not, or was never
given. -/
def Error.isSlip : Error → Bool
  | .missingMember | .unset => true
  | _ => false

/-- A conversion that reads nothing ends with a result exactly if a condition holds, and otherwise
by a slip. -/
def Ends {α : Type} (x : Conversion α) (condition : Bool) (post : α → Prop) : Prop :=
  ∀ reader s, (condition = true ∧ ∃ a, perform x reader s = (.ok a, s) ∧ post a) ∨
    (condition = false ∧ ∃ e, perform x reader s = (.error e, s) ∧ e.isSlip = true)

namespace Ends

variable {α β : Type} {x : Conversion α} {condition : Bool} {post : α → Prop}

theorem of_gives (gives : Gives x post) : Ends x true post := fun reader s => .inl ⟨rfl, gives reader s⟩

theorem pure {a : α} (holds : post a) : Ends (Pure.pure a) true post := of_gives (.pure holds)

theorem throw {e : Error} (slip : e.isSlip = true) : Ends (throw e : Conversion α) false post :=
  fun _ _ => .inr ⟨rfl, e, rfl, slip⟩

theorem bind {f : α → Conversion β} {condition' : Bool} {post' : β → Prop}
    (first : Ends x condition post) (rest : ∀ a, post a → Ends (f a) condition' post') :
    Ends (x >>= f) (condition && condition') post' := by
  intro reader s
  rcases first reader s with ⟨rfl, a, ran, holds⟩ | ⟨rfl, e, ran, slip⟩
  · rw [perform_bind_ok ran f]
    exact rest a holds reader s
  · exact .inr ⟨rfl, e, perform_bind_error ran f, slip⟩

theorem followed {f : α → Conversion β} {post' : β → Prop} (first : Ends x condition post)
    (rest : ∀ a, post a → Gives (f a) post') : Ends (x >>= f) condition post' := by
  have both := first.bind fun a holds => of_gives (rest a holds)
  rwa [Bool.and_true] at both

theorem map {f : α → β} {post' : β → Prop} (first : Ends x condition post)
    (implies : ∀ a, post a → post' (f a)) : Ends (x >>= fun a => Pure.pure (f a)) condition post' :=
  first.followed fun a holds => .pure (implies a holds)

theorem after {f : α → Conversion β} {post' : β → Prop} (first : Gives x post)
    (rest : ∀ a, post a → Ends (f a) condition post') : Ends (x >>= f) condition post' := by
  have both := (of_gives first).bind rest
  rwa [Bool.true_and] at both

theorem weaken {post' : α → Prop} (ends : Ends x condition post) (weaker : ∀ a, post a → post' a) :
    Ends x condition post' := by
  intro reader s
  rcases ends reader s with ⟨holds, a, ran, reached⟩ | failed
  · exact .inl ⟨holds, a, ran, weaker a reached⟩
  · exact .inr failed

theorem mapM {c p : ParseTree → Bool} {trees : List ParseTree}
    (each : ∀ tree ∈ trees, Ends (f tree) (c tree) (Speaks (p tree))) :
    Ends (trees.mapM f) (trees.all c) fun ts => ts.all Term.prints = trees.all p := by
  induction trees with
  | nil => exact .pure rfl
  | cons tree trees ih =>
    have rest := ih fun other inside => each other (List.mem_cons_of_mem _ inside)
    rw [List.mapM_cons, List.all_cons]
    refine (each tree List.mem_cons_self).bind fun t head => rest.map fun ts tail => ?_
    rw [List.all_cons, List.all_cons, head.prints, tail]

end Ends

/-- What is known of the parts of a loop, and how they are converted: by the converter of the same
level, and by the one below. -/
structure LoopParts (full convertible printable : Rule → ParseTree → Bool) (inner : Convert) : Prop where
  now : ∀ {rule tree}, full rule tree = true →
    Ends (Convert.step inner rule tree) (convertible rule tree) (Speaks (printable rule tree))
  later : ∀ {rule tree}, full rule tree = true →
    Ends (inner rule tree) (convertible rule tree) (Speaks (printable rule tree))

section Steps

variable {full convertible printable : Rule → ParseTree → Bool} {tree : ParseTree}

theorem each_ends {rule : Rule} (accepted : (Grammar.many rule).accepts full tree = true)
    (member : ∀ tree, full rule tree = true →
      Ends (f tree) (convertible rule tree) (Speaks (printable rule tree))) :
    Ends (each f tree) ((Grammar.many rule).accepts convertible tree) fun t =>
      ∃ ts, t = .list ts ∧ ts.all Term.prints = (Grammar.many rule).accepts printable tree := by
  obtain ⟨trees, rfl, fits⟩ := TreeShape.accepts_list accepted
  have all := Ends.mapM (c := convertible rule) (p := printable rule) fun tree inside =>
    member tree (fits tree inside)
  have same (known : Rule → ParseTree → Bool) :
      (Grammar.many rule).accepts known (.list trees) = trees.all (known rule) := by
    simp only [Grammar.many, TreeShape.accepts]
  rw [same, same]
  exact all.map fun ts printed => ⟨ts, rfl, printed⟩

theorem optional_ends {rule : Rule} (accepted : (Grammar.maybe rule).accepts full tree = true)
    (member : ∀ tree, full rule tree = true →
      Ends (f tree) (convertible rule tree) (Speaks (printable rule tree))) :
    Ends (Convert.optional f tree) ((Grammar.maybe rule).accepts convertible tree) fun t =>
      t.printsIfGiven = (Grammar.maybe rule).accepts printable tree := by
  rcases TreeShape.accepts_option accepted with rfl | ⟨value, rfl, truthy, fits⟩
  · exact .pure rfl
  · have same (known : Rule → ParseTree → Bool) :
        (Grammar.maybe rule).accepts known (.present value) = known rule value := by
      simp only [Grammar.maybe, TreeShape.accepts, truthy, Bool.true_and]
    rw [same, same]
    simp only [Convert.optional, ParseTree.value, Convert.ofExcept, pure_bind, truthy, if_true]
    exact (member value fits).weaken fun t => Speaks.printsIfGiven

theorem name_gives (isName : tree.isName = true) : Gives (Convert.identifier tree) (Speaks true) := by
  refine (identifier_name isName).weaken fun t fits => ?_
  obtain ⟨text, printed⟩ := fits.print
  obtain ⟨parts, rfl, -⟩ := fits.eq_node rfl
  exact ⟨⟨_, _, rfl⟩, prints_of_text printed⟩

theorem optionalLeaf_gives {shape : TreeShape} {known : Rule → ParseTree → Bool}
    (accepted : (TreeShape.option shape).accepts known tree = true)
    (member : ∀ tree, shape.accepts known tree = true → Gives (f tree) fun t => t.prints = true) :
    Gives (Convert.optional f tree) fun t => t.printsIfGiven = true := by
  rcases TreeShape.accepts_option accepted with rfl | ⟨value, rfl, truthy, fits⟩
  · exact .pure rfl
  · simp only [Convert.optional, ParseTree.value, Convert.ofExcept, pure_bind, truthy, if_true]
    exact (member value fits).weaken fun t prints => by rw [Term.printsIfGiven, prints, Bool.or_true]

theorem make_direct {form : Form} (args : List Term)
    (direct : form.fill args = .ok (Filling.allBut [] args)) (free : form.adoptions = []) :
    make form args = pure (.node form args) := by
  rw [make, Form.build, direct, free]
  change Convert.ofExcept (.ok (Term.node _ ((Filling.allBut [] args).map (Filling.term args)))) = _
  rw [allBut_nil]
  rfl

theorem make_lastDefault {last fallback shared : Term}
    (one : (shared.isTruthy == (last.isTruthy || fallback.isTruthy)) = false) :
    make (.forward .lastDefault) [last, fallback, shared] =
      pure (.node (.forward .lastDefault) [last, fallback, shared]) := by
  refine make_direct _ ?_ rfl
  change (if shared.isTruthy == (last.isTruthy || fallback.isTruthy) then _ else _) = _
  rw [one]
  rfl

theorem make_returnArray (clause id : Term) : make (.forward .returnArray) [clause, id] =
    pure (.node (.forward .returnArray) [clause, .anyIdentifier]) := rfl

theorem forwardState_gives {tag : String} {items : List ParseTree} {fields : List (String × ParseTree)} :
    Gives (forwardState (.node (some tag) items fields)) fun t =>
      ∃ state : ForwardState, t = .constant (.forwardState state) ∧
        (state == .nothing) = (tag == "FNone") := by
  simp only [forwardState, ↓tag_bind]
  split
  · exact .pure ⟨_, rfl, rfl⟩
  · exact .pure ⟨_, rfl, rfl⟩
  · next other _ => exact .pure ⟨_, rfl, (beq_eq_false_iff_ne.mpr other).symm⟩

variable {inner : Convert} (parts : LoopParts full convertible printable inner)
include parts

-- In each case below, `same` says what any of the grammars asks of the parts of the tree.

theorem forwardLeft_ends (accepted : Rule.describes .full full .forwardLeft tree = true) :
    Ends (forwardLeft inner tree) (Rule.describes .convertible convertible .forwardLeft tree)
      (Speaks (Rule.describes .printable printable .forwardLeft tree)) := by
  have built (args : List Term) : make (.forward .left) args = pure (.node (.forward .left) args) :=
    make_direct args rfl rfl
  rcases hasOne_of_any accepted with found | found | ⟨⟨⟩⟩
  · obtain ⟨_, fields, rfl, isName, ⟨⟩⟩ := TreeShape.accepts_case found
    rename_i id
    have same (g : LoopGrammar) (known : Rule → ParseTree → Bool) :
        Rule.describes g known .forwardLeft (.node (some "FId") [id] fields) = true := by
      refine (Rule.describes_two rfl known _).trans ?_
      simpa [TreeShape.accepts, TreeShape.acceptsItems, LoopGrammar.name] using isName
    rw [same, same]
    simp only [forwardLeft, ↓tag_bind, item_node, pure_bind, built]
    exact (Ends.of_gives (name_gives isName)).map fun t speaks =>
      ⟨⟨_, _, rfl⟩, (left_prints t).trans speaks.prints⟩
  · obtain ⟨_, fields, rfl, isLeft, ⟨⟩⟩ := TreeShape.accepts_case found
    rename_i nested
    have same (g : LoopGrammar) (known : Rule → ParseTree → Bool) :
        Rule.describes g known .forwardLeft (.node (some "FLhsArray") [nested] fields) =
          known .forwardLeft nested := by
      refine (Rule.describes_two rfl known _).trans ?_
      simp [TreeShape.acceptsItems]
    rw [same, same]
    simp only [forwardLeft, ↓tag_bind, item_node, pure_bind, built]
    exact (parts.later isLeft).map fun t speaks => ⟨⟨_, _, rfl⟩, (left_prints t).trans speaks.prints⟩

theorem forwardElement_ends (accepted : Rule.describes .full full .forwardElement tree = true) :
    Ends (forwardElement inner tree) (Rule.describes .convertible convertible .forwardElement tree)
      (Speaks (Rule.describes .printable printable .forwardElement tree)) := by
  obtain ⟨tag, _, fields, rfl, isLeft, isExpr, ⟨⟩⟩ :=
    TreeShape.accepts_tuple (hasOne_of_any accepted).only
  rename_i lhs value
  have built (args : List Term) :
      make (.forward .element) args = pure (.node (.forward .element) args) :=
    make_direct args rfl rfl
  have same (g : LoopGrammar) (known : Rule → ParseTree → Bool) :
      Rule.describes g known .forwardElement (.node tag [lhs, value] fields) =
        (known .forwardLeft lhs && known .expr value) := by
    refine (Rule.describes_one rfl known _).trans ?_
    simp [TreeShape.acceptsItems]
  rw [same, same]
  simp only [forwardElement, itemAt_first, itemAt_second, pure_bind, built]
  refine (parts.later isLeft).bind fun left leftSpeaks =>
    (parts.later isExpr).map fun right rightSpeaks => ?_
  exact ⟨⟨_, _, rfl⟩, by rw [element_prints, leftSpeaks.prints, rightSpeaks.prints]⟩

theorem dimension_ends (accepted : Rule.describes .full full .dimension tree = true) :
    Ends (dimension inner tree) (Rule.describes .convertible convertible .dimension tree)
      (Speaks (Rule.describes .printable printable .dimension tree)) := by
  have built (args : List Term) :
      make (.forward .dimension) args = pure (.node (.forward .dimension) args) :=
    make_direct args rfl rfl
  have described (g : LoopGrammar) (known : Rule → ParseTree → Bool) (tree : ParseTree) :
      Rule.describes g known .dimension tree =
        (g.dimensions.any fun shape => shape.accepts known tree) := rfl
  simp only [LoopGrammar.dimensions, List.any_cons, LoopGrammar.accepts_onlyFull] at described
  rcases hasOne_of_any accepted with found | found | found | found | ⟨⟨⟩⟩
  · obtain ⟨_, fields, rfl, isSize, -, ⟨⟩⟩ := TreeShape.accepts_case found
    rename_i size position
    have same (g : LoopGrammar) (known : Rule → ParseTree → Bool) :
        Rule.describes g known .dimension (.node (some "FDim") [size, position] fields) =
          known .expr size := by
      simp [described, TreeShape.acceptsItems]
    rw [same, same]
    simp only [dimension, ↓tag_bind, itemAt_first, pure_bind, built]
    refine (parts.later isSize).map fun t speaks => ⟨⟨_, _, rfl⟩, ?_⟩
    rw [dimension_prints t .absent .absent (.inl rfl), speaks.prints]
    exact Bool.and_true _
  · obtain ⟨_, fields, rfl, isSize, isId, areElems, -, ⟨⟩⟩ := TreeShape.accepts_case found
    rename_i size id elems position
    have same (g : LoopGrammar) (known : Rule → ParseTree → Bool) :
        Rule.describes g known .dimension (.node (some "FDimWith") [size, id, elems, position] fields) =
          (known .expr size && (Grammar.many .forwardElement).accepts known elems) := by
      have named : (TreeShape.option LoopGrammar.name).accepts known id = true :=
        TreeShape.accepts_optionLeaf isId known
      simp [described, TreeShape.acceptsItems, named]
    rw [same, same]
    simp only [dimension, ↓tag_bind, itemAt_first, itemAt_second, itemAt_third, pure_bind, built]
    refine (parts.later isSize).bind fun sizeTerm sizeSpeaks => ?_
    have named := optionalLeaf_gives isId fun _ isName => (name_gives isName).weaken fun _ =>
      Speaks.prints
    refine .after named fun idTerm idPrints =>
      (each_ends areElems fun _ => parts.now).map fun _ list => ⟨⟨_, _, rfl⟩, ?_⟩
    obtain ⟨ts, rfl, printed⟩ := list
    rw [dimension_prints _ _ _ (.inr ⟨ts, rfl⟩), sizeSpeaks.prints, idPrints, ← printed]
    rfl
  · obtain ⟨_, fields, rfl, isText, -, ⟨⟩⟩ := TreeShape.accepts_case found
    rename_i text position
    have same (g : LoopGrammar) (known : Rule → ParseTree → Bool) :
        Rule.describes g known .dimension (.node (some "FRaw") [text, position] fields) = true := by
      have kept : Grammar.verbatim.accepts known text = true := isText
      simp [described, TreeShape.acceptsItems, kept]
    rw [same, same]
    simp only [dimension, ↓tag_bind, itemAt_first, pure_bind, built]
    refine (Ends.of_gives (protectedText_gives isText)).map fun _ isText => ⟨⟨_, _, rfl⟩, ?_⟩
    obtain ⟨s, rfl⟩ := isText.eq_text
    rfl
  · rw [LoopGrammar.accepts_onlyFull] at found
    obtain ⟨_, fields, rfl, isText, ⟨⟩⟩ := TreeShape.accepts_case found
    rename_i text
    have same (known : Rule → ParseTree → Bool) :
        Rule.describes .convertible known .dimension (.node (some "FRaw") [text] fields) = false := by
      simp [described, TreeShape.acceptsItems]
    rw [same]
    exact .throw rfl

theorem forwardBody_ends (accepted : Rule.describes .full full .forwardBody tree = true) :
    Ends (forwardBody inner tree) (Rule.describes .convertible convertible .forwardBody tree)
      (Speaks (Rule.describes .printable printable .forwardBody tree)) := by
  have built (args : List Term) : make (.forward .body) args = pure (.node (.forward .body) args) :=
    make_direct args rfl rfl
  obtain ⟨tag, items, fields, rfl, foundSections, areSections, foundStop, isStop, ⟨⟩⟩ :=
    TreeShape.accepts_record (hasOne_of_any accepted).only
  rename_i sections condition
  have same (g : LoopGrammar) (known : Rule → ParseTree → Bool) :
      Rule.describes g known .forwardBody (.node tag items fields) =
        ((Grammar.many .scopeSection).accepts known sections &&
          LoopGrammar.stop.accepts known condition) := by
    refine (Rule.describes_one rfl known _).trans ?_
    simp [TreeShape.acceptsFields, foundSections, foundStop]
  rw [same, same]
  simp only [forwardBody, field_node foundSections, field_node foundStop, pure_bind]
  refine (each_ends areSections fun _ => parts.later).bind fun _ list => ?_
  obtain ⟨ts, rfl, printed⟩ := list
  rcases LoopGrammar.stop_cases isStop with
    ⟨tag, value, fields, known, rfl, isExpr, stopped⟩ | ⟨tag, items, fields, other, rfl, stopped⟩
  · rw [stopped, stopped]
    rcases List.mem_pair.mp known with rfl | rfl
    -- `until` and `unless` are written in different places, but both conditions are printed
    all_goals
      simp only [↓tag_bind, item_node, pure_bind, built]
      refine (parts.later isExpr).map fun t speaks => ⟨⟨_, _, rfl⟩, ?_⟩
      rw [body_prints, speaks.printsIfGiven, printed, Term.printsIfGiven_absent, Bool.true_and,
        Bool.and_comm]
  · rw [stopped, stopped]
    have others : tag ≠ "FStopUntil" ∧ tag ≠ "FStopUnless" := by simpa using other
    simp only [↓tag_bind, built]
    split
    · exact absurd rfl others.1
    · exact absurd rfl others.2
    · refine .pure ⟨⟨_, _, rfl⟩, ?_⟩
      rw [body_prints, printed, Bool.and_true]
      rfl

theorem lastDefault_ends (accepted : Rule.describes .full full .lastDefault tree = true) :
    Ends (lastDefault inner tree) (Rule.describes .convertible convertible .lastDefault tree)
      (Speaks (Rule.describes .printable printable .lastDefault tree)) := by
  have described (g : LoopGrammar) (known : Rule → ParseTree → Bool) (tree : ParseTree) :
      Rule.describes g known .lastDefault tree =
        (LoopGrammar.lastDefaults.any fun shape => shape.accepts known tree) := rfl
  simp only [LoopGrammar.lastDefaults, List.any_cons] at described
  rcases hasOne_of_any accepted with found | found | found | found | ⟨⟨⟩⟩
  · obtain ⟨_, fields, rfl, isExpr, ⟨⟩⟩ := TreeShape.accepts_case found
    rename_i value
    have same (g : LoopGrammar) (known : Rule → ParseTree → Bool) :
        Rule.describes g known .lastDefault (.node (some "FLast") [value] fields) =
          known .expr value := by
      simp [described, TreeShape.acceptsItems]
    rw [same, same]
    simp only [lastDefault, ↓tag_bind, item_node, pure_bind]
    refine (parts.later isExpr).followed fun t speaks => ?_
    rw [make_lastDefault (by rw [speaks.isTruthy]; rfl)]
    refine .pure ⟨⟨_, _, rfl⟩, ?_⟩
    rw [lastDefault_prints, if_neg (by decide), speaks.printsIfGiven, Term.printsIfGiven_absent,
      Bool.and_true]
  · obtain ⟨_, fields, rfl, isExpr, ⟨⟩⟩ := TreeShape.accepts_case found
    rename_i value
    have same (g : LoopGrammar) (known : Rule → ParseTree → Bool) :
        Rule.describes g known .lastDefault (.node (some "FDefault") [value] fields) =
          known .expr value := by
      simp [described, TreeShape.acceptsItems]
    rw [same, same]
    simp only [lastDefault, ↓tag_bind, item_node, pure_bind]
    refine (parts.later isExpr).followed fun t speaks => ?_
    rw [make_lastDefault (by rw [speaks.isTruthy]; rfl)]
    refine .pure ⟨⟨_, _, rfl⟩, ?_⟩
    rw [lastDefault_prints, if_neg (by decide), speaks.printsIfGiven, Term.printsIfGiven_absent,
      Bool.true_and]
  · obtain ⟨_, fields, rfl, isLast, isDefault, ⟨⟩⟩ := TreeShape.accepts_case found
    rename_i last fallback
    have same (g : LoopGrammar) (known : Rule → ParseTree → Bool) :
        Rule.describes g known .lastDefault (.node (some "FLastPlusDefault") [last, fallback] fields) =
          (known .expr last && known .expr fallback) := by
      simp [described, TreeShape.acceptsItems]
    rw [same, same]
    simp only [lastDefault, ↓tag_bind, itemAt_first, itemAt_second, pure_bind]
    refine (parts.later isLast).bind fun t speaks =>
      (parts.later isDefault).followed fun t' speaks' => ?_
    rw [make_lastDefault (by rw [speaks.isTruthy]; rfl)]
    refine .pure ⟨⟨_, _, rfl⟩, ?_⟩
    rw [lastDefault_prints, if_neg (by decide), speaks.printsIfGiven, speaks'.printsIfGiven]
  · obtain ⟨_, fields, rfl, isExpr, ⟨⟩⟩ := TreeShape.accepts_case found
    rename_i value
    have same (g : LoopGrammar) (known : Rule → ParseTree → Bool) :
        Rule.describes g known .lastDefault (.node (some "FLastAndDefault") [value] fields) =
          known .expr value := by
      simp [described, TreeShape.acceptsItems]
    rw [same, same]
    simp only [lastDefault, ↓tag_bind, item_node, pure_bind]
    refine (parts.later isExpr).followed fun t speaks => ?_
    rw [make_lastDefault (by rw [speaks.isTruthy]; rfl)]
    refine .pure ⟨⟨_, _, rfl⟩, ?_⟩
    rw [lastDefault_prints, if_pos speaks.isTruthy, speaks.prints]

theorem itemClause_ends (accepted : Rule.describes .full full .itemClause tree = true) :
    Ends (itemClause inner tree) (Rule.describes .convertible convertible .itemClause tree)
      (Speaks (Rule.describes .printable printable .itemClause tree)) := by
  have built (args : List Term) :
      make (.forward .itemClause) args = pure (.node (.forward .itemClause) args) :=
    make_direct args rfl rfl
  obtain ⟨tag, _, fields, rfl, isName, isValue, ⟨⟩⟩ :=
    TreeShape.accepts_tuple (hasOne_of_any accepted).only
  rename_i id value
  have same (g : LoopGrammar) (known : Rule → ParseTree → Bool) :
      Rule.describes g known .itemClause (.node tag [id, value] fields) =
        (Grammar.maybe .lastDefault).accepts known value := by
    have named : LoopGrammar.name.accepts known id = true := isName
    refine (Rule.describes_one rfl known _).trans ?_
    simp [TreeShape.acceptsItems, named]
  rw [same, same]
  simp only [itemClause, itemAt_first, itemAt_second, pure_bind, built]
  refine .after (name_gives isName) fun idTerm idSpeaks =>
    (optional_ends isValue fun _ => parts.now).map fun t prints => ?_
  exact ⟨⟨_, _, rfl⟩, by rw [itemClause_prints, idSpeaks.prints, prints]; rfl⟩

theorem arrayClause_ends (accepted : Rule.describes .full full .arrayClause tree = true) :
    Ends (arrayClause inner tree) (Rule.describes .convertible convertible .arrayClause tree)
      (Speaks (Rule.describes .printable printable .arrayClause tree)) := by
  have built (args : List Term) :
      make (.forward .arrayClause) args = pure (.node (.forward .arrayClause) args) :=
    make_direct args rfl rfl
  have described (g : LoopGrammar) (known : Rule → ParseTree → Bool) (tree : ParseTree) :
      Rule.describes g known .arrayClause tree =
        (g.arrayClauses.any fun shape => shape.accepts known tree) := rfl
  simp only [LoopGrammar.arrayClauses, List.any_cons, LoopGrammar.accepts_onlyFull] at described
  rcases hasOne_of_any accepted with found | found | found | ⟨⟨⟩⟩
  · obtain ⟨_, fields, rfl, isName, isValue, ⟨⟩⟩ := TreeShape.accepts_case found
    rename_i id value
    -- The case is looked at as if it were the clause inside it.
    have same (g : LoopGrammar) (known : Rule → ParseTree → Bool) :
        Rule.describes g known .arrayClause (.node (some "FItemClause") [id, value] fields) =
          Rule.describes g known .itemClause (.node (some "FItemClause") [id, value] fields) := by
      have inside : Rule.describes g known .itemClause (.node (some "FItemClause") [id, value] fields) =
          (LoopGrammar.name.accepts known id && (Grammar.maybe .lastDefault).accepts known value) := by
        refine (Rule.describes_one rfl known _).trans ?_
        simp [TreeShape.acceptsItems]
      simp [described, TreeShape.acceptsItems, inside]
    rw [same] at accepted
    rw [same, same]
    simp only [arrayClause, ↓tag_bind, built]
    exact (itemClause_ends parts accepted).map fun t speaks =>
      ⟨⟨_, _, rfl⟩, (arrayClause_prints t).trans speaks.prints⟩
  · obtain ⟨_, fields, rfl, isClause, ⟨⟩⟩ := TreeShape.accepts_case found
    rename_i nested
    have same (g : LoopGrammar) (known : Rule → ParseTree → Bool) :
        Rule.describes g known .arrayClause (.node (some "FArrayClause") [nested] fields) =
          known .arrayClause nested := by
      simp [described, TreeShape.acceptsItems]
    rw [same, same]
    simp only [arrayClause, ↓tag_bind, item_node, pure_bind, built]
    exact (parts.later isClause).map fun t speaks =>
      ⟨⟨_, _, rfl⟩, (arrayClause_prints t).trans speaks.prints⟩
  · rw [LoopGrammar.accepts_onlyFull] at found
    obtain ⟨_, fields, rfl, isClause, ⟨⟩⟩ := TreeShape.accepts_case found
    rename_i clause
    have same (known : Rule → ParseTree → Bool) :
        Rule.describes .convertible known .arrayClause
          (.node (some "FItemClause") [clause] fields) = false := by
      simp [described, TreeShape.acceptsItems]
    rw [same]
    exact .throw rfl

theorem forwardReturn_ends (accepted : Rule.describes .full full .forwardReturn tree = true) :
    Ends (forwardReturn inner tree) (Rule.describes .convertible convertible .forwardReturn tree)
      (Speaks (Rule.describes .printable printable .forwardReturn tree)) := by
  have described (g : LoopGrammar) (known : Rule → ParseTree → Bool) (tree : ParseTree) :
      Rule.describes g known .forwardReturn tree =
        (g.returns.any fun shape => shape.accepts known tree) := rfl
  simp only [LoopGrammar.returns, List.any_cons] at described
  rcases hasOne_of_any accepted with found | found | found | ⟨⟨⟩⟩
  · obtain ⟨_, fields, rfl, isClause, -, ⟨⟩⟩ := TreeShape.accepts_case found
    rename_i clause position
    have same (g : LoopGrammar) (known : Rule → ParseTree → Bool) :
        Rule.describes g known .forwardReturn (.node (some "FRetItemClause") [clause, position] fields) =
          known .itemClause clause := by
      simp [described, TreeShape.acceptsItems]
    rw [same, same]
    simp only [forwardReturn, ↓tag_bind, itemAt_first, pure_bind]
    refine (parts.now isClause).followed fun t speaks => ?_
    rw [make_direct _ rfl rfl]
    exact .pure ⟨⟨_, _, rfl⟩, (returnItem_prints t).trans speaks.prints⟩
  · obtain ⟨_, fields, rfl, isLeading, isClause, -, ⟨⟩⟩ := TreeShape.accepts_case found
    rename_i id clause position
    have same (g : LoopGrammar) (known : Rule → ParseTree → Bool) :
        Rule.describes g known .forwardReturn
          (.node (some "FRetArrayClause") [id, clause, position] fields) =
            (g.leading.accepts known id && known .arrayClause clause) := by
      simp [described, TreeShape.acceptsItems]
    rw [same, same]
    rcases TreeShape.accepts_option isLeading with rfl | ⟨value, rfl, truthy, isName⟩
    · exact .throw rfl
    · have led (g : LoopGrammar) (known : Rule → ParseTree → Bool) (part : g ≠ .full) :
          g.leading.accepts known (.present value) = true := by
        rw [LoopGrammar.leading, if_neg part]
        exact isName
      rw [led .convertible _ (by decide), led .printable _ (by decide), Bool.true_and, Bool.true_and]
      simp only [forwardReturn, ↓tag_bind, itemAt_first, itemAt_second, pure_bind, ParseTree.value,
        Convert.ofExcept, truthy, if_true, make_returnArray]
      refine .after (name_gives isName) fun _ _ => (parts.later isClause).map fun t speaks =>
        ⟨⟨_, _, rfl⟩, ?_⟩
      rw [Term.prints, returnArray_print, isOk_bind fun _ => isOk_pure _, Bool.and_true]
      exact speaks.prints
  · obtain ⟨_, fields, rfl, isText, ⟨⟩⟩ := TreeShape.accepts_case found
    rename_i text
    have same (g : LoopGrammar) (known : Rule → ParseTree → Bool) :
        Rule.describes g known .forwardReturn (.node (some "FRetRaw") [text] fields) = true := by
      have kept : Grammar.verbatim.accepts known text = true := isText
      simp [described, TreeShape.acceptsItems, kept]
    rw [same, same]
    simp only [forwardReturn, ↓tag_bind, item_node, pure_bind]
    refine .of_gives ((protectedText_gives isText).bind fun _ isText => ?_)
    obtain ⟨s, rfl⟩ := isText.eq_text
    rw [make_direct _ rfl rfl]
    exact .pure ⟨⟨_, _, rfl⟩, rfl⟩

theorem forward_ends (accepted : Rule.describes .full full .forward tree = true) :
    Ends (forward inner tree) (Rule.describes .convertible convertible .forward tree)
      (Speaks (Rule.describes .printable printable .forward tree)) := by
  obtain ⟨_, fields, rfl, isLuid, isState, areDimensions, isBody, areReturns, ⟨⟩⟩ :=
    TreeShape.accepts_case (hasOne_of_any accepted).only
  rename_i luid stateTree dimensions body returns
  obtain ⟨state, items, stateFields, rfl, listed⟩ := ParseTree.isTagged_cases isState
  have same (g : LoopGrammar) (known : Rule → ParseTree → Bool) :
      Rule.describes g known .forward
        (.node (some "EForward") [luid, .node (some state) items stateFields, dimensions, body,
          returns] fields) =
        (g.states.contains state && ((Grammar.many .dimension).accepts known dimensions &&
          (known .forwardBody body && (Grammar.many .forwardReturn).accepts known returns))) := by
    have identified := TreeShape.accepts_optionLeaf isLuid known
    have stated :
        (Grammar.tagged g.states).accepts known (.node (some state) items stateFields) =
          g.states.contains state := by
      rw [Grammar.tagged, TreeShape.accepts, ParseTree.isTagged]
    refine (Rule.describes_one rfl known _).trans ?_
    simp [TreeShape.acceptsItems, identified, stated]
  have convertibleState : LoopGrammar.convertible.states.contains state = true :=
    List.contains_iff_mem.mpr listed
  have printableState : LoopGrammar.printable.states.contains state = (state == "FNone") := by
    rw [LoopGrammar.states, List.contains_cons, List.contains_nil, Bool.or_false]
  rw [same, same, convertibleState, printableState, Bool.true_and]
  simp only [forward, itemAt_first, itemAt_second, itemAt_third, itemAt_fourth, itemAt_fifth, pure_bind]
  have identified : Gives (Convert.optional Convert.luid luid) fun t => t.printsIfGiven = true :=
    optionalLeaf_gives isLuid fun _ isLuid => (luid_located isLuid).weaken fun _ fits => by
      obtain ⟨_, printed⟩ := fits.print
      exact prints_of_text printed
  refine .after identified fun luidTerm luidPrints =>
    .after forwardState_gives fun stateTerm isState => ?_
  obtain ⟨kind, rfl, nothing⟩ := isState
  refine (each_ends areDimensions fun _ => parts.now).bind fun _ isList => ?_
  obtain ⟨dimensionTerms, rfl, dimensionsPrint⟩ := isList
  refine (parts.now isBody).bind fun bodyTerm bodySpeaks => ?_
  refine (each_ends areReturns fun _ => parts.now).followed fun _ isList => ?_
  obtain ⟨returnTerms, rfl, returnsPrint⟩ := isList
  rw [make_direct _ rfl rfl]
  refine .pure ⟨⟨_, _, rfl⟩, ?_⟩
  rw [loop_prints, luidPrints, nothing, dimensionsPrint, bodySpeaks.prints, returnsPrint, Bool.true_and]

theorem loop_step {rule : Rule} (accepted : rule.describes .full full tree = true) :
    Ends (Convert.step inner rule tree) (rule.describes .convertible convertible tree)
      (Speaks (rule.describes .printable printable tree)) := by
  cases rule with
  | forwardLeft => exact forwardLeft_ends parts accepted
  | forwardElement => exact forwardElement_ends parts accepted
  | dimension => exact dimension_ends parts accepted
  | forwardBody => exact forwardBody_ends parts accepted
  | lastDefault => exact lastDefault_ends parts accepted
  | itemClause => exact itemClause_ends parts accepted
  | arrayClause => exact arrayClause_ends parts accepted
  | forwardReturn => exact forwardReturn_ends parts accepted
  | forward => exact forward_ends parts accepted
  | _ => cases accepted

end Steps

/-! ### Whole loops -/

/-- Expressions and sections that are converted and printed, if there are levels enough. -/
structure PlainParts (plain : Rule → ParseTree → Bool) : Prop where
  expr : ∀ {tree levels}, plain .expr tree = true → tree.height ≤ levels →
    Gives (convertUpTo levels .expr tree) (Speaks true)
  scopeSection : ∀ {tree levels}, plain .scopeSection tree = true → tree.height ≤ levels →
    Gives (convertUpTo levels .scopeSection tree) (Speaks true)

section Whole

variable {plain : Rule → ParseTree → Bool} {rule : Rule} {tree : ParseTree}

theorem Rule.describes_of_below {known known' : Rule → ParseTree → Bool} {g : LoopGrammar}
    (below : TreeShape.KnownBelow tree.height known known')
    (described : rule.describes g known tree = true) :
    rule.describes g known' tree = true := by
  have slack : ∀ shape ∈ rule.loopShapes g, shape.slack = 0 := by
    cases rule <;> cases g <;>
      simp [Rule.loopShapes, LoopGrammar.dimensions, LoopGrammar.lastDefaults, LoopGrammar.returns,
        LoopGrammar.arrayClauses, LoopGrammar.onlyFull, TreeShape.slack]
  obtain ⟨shape, listed, accepted⟩ := List.any_eq_true.mp described
  refine List.any_eq_true.mpr ⟨shape, listed, TreeShape.accepts_of_below below shape ?_ accepted⟩
  rw [slack shape listed, Nat.add_zero]

theorem eq_loop {n : Nat} (described : ParseTree.loopUpTo plain .full n .forward tree = true) :
    ∃ items fields, tree = .node (some "EForward") items fields := by
  cases n with
  | zero => cases described
  | succ n =>
    have accepted : Rule.describes .full (ParseTree.loopUpTo plain .full n) .forward tree = true :=
      described
    obtain ⟨items, fields, rfl, -⟩ := TreeShape.accepts_case (hasOne_of_any accepted).only
    exact ⟨items, fields, rfl⟩

theorem loopUpTo_ends (plainParts : PlainParts plain) {n m : Nat}
    (described : ParseTree.loopUpTo plain .full n rule tree = true)
    (enough : 2 * tree.height + (if rule = .forward then 1 else 2) ≤ m) :
    Ends (convertUpTo m rule tree) (ParseTree.loopUpTo plain .convertible n rule tree)
      (Speaks (ParseTree.loopUpTo plain .printable n rule tree)) := by
  -- The induction is on the levels of the description. The parts are smaller than the loop, so that
  -- two levels are saved for each; one is spent where an expression turns out to be a loop.
  induction n generalizing m rule tree with
  | zero => cases described
  | succ n ih =>
    obtain ⟨m, rfl⟩ : ∃ k, m = k + 1 := ⟨m - 1, by split at enough <;> omega⟩
    simp only [ParseTree.loopUpTo] at described ⊢
    by_cases isExpr : rule = .expr
    · subst isExpr
      simp only [if_true] at described ⊢
      have levels : 2 * tree.height + 1 ≤ m := by
        simp only [if_neg (show Rule.expr ≠ Rule.forward from nofun)] at enough
        omega
      by_cases isPlain : plain .expr tree = true
      · rw [isPlain, Bool.true_or, Bool.true_or]
        exact .of_gives (plainParts.expr isPlain (by omega))
      · rw [Bool.eq_false_iff.mpr isPlain, Bool.false_or] at described
        rw [Bool.eq_false_iff.mpr isPlain, Bool.false_or, Bool.false_or]
        have looped : convertUpTo (m + 1) .expr tree = convertUpTo m .forward tree := by
          obtain ⟨items, fields, rfl⟩ := eq_loop described
          rfl
        rw [looped]
        exact ih described levels
    · rw [if_neg isExpr] at described
      rw [if_neg isExpr, if_neg isExpr]
      by_cases isSection : rule = .scopeSection
      · subst isSection
        simp only [if_true] at described ⊢
        rw [described]
        exact .of_gives (plainParts.scopeSection described (by split at enough <;> omega))
      · rw [if_neg isSection] at described
        rw [if_neg isSection, if_neg isSection]
        let full : Rule → ParseTree → Bool := fun rule part =>
          ParseTree.loopUpTo plain .full n rule part && decide (part.height < tree.height)
        have below : TreeShape.KnownBelow tree.height (ParseTree.loopUpTo plain .full n) full := by
          intro rule part smaller known
          simp [full, smaller, known]
        have parts : LoopParts full (ParseTree.loopUpTo plain .convertible n)
            (ParseTree.loopUpTo plain .printable n) (convertUpTo m) := by
          have split {rule : Rule} {part : ParseTree} (known : full rule part = true) :
              ParseTree.loopUpTo plain .full n rule part = true ∧
                2 * part.height + (if rule = .forward then 1 else 2) ≤ m := by
            obtain ⟨described, smaller⟩ : _ ∧ part.height < tree.height := by simpa [full] using known
            refine ⟨described, ?_⟩
            split at enough <;> split <;> omega
          exact
            { now := fun known => ih (m := m + 1) (split known).1 (Nat.le_succ_of_le (split known).2)
              later := fun known => ih (split known).1 (split known).2 }
        exact loop_step parts (Rule.describes_of_below below described)

theorem described_plainParts : PlainParts fun rule tree => tree.describedBy rule := by
  have speaks {forms : List Form} {t : Term} (fits : Fits (.construct forms) t) : Speaks true t := by
    obtain ⟨text, printed⟩ := fits.print
    cases fits with
    | construct _ _ _ => exact ⟨⟨_, _, rfl⟩, prints_of_text printed⟩
  exact
    { expr := fun described levels =>
        (convertUpTo_gives described levels).weaken fun _ fits => speaks fits
      scopeSection := fun described levels =>
        (convertUpTo_gives described levels).weaken fun _ fits => speaks fits }

theorem forward_form {inner : Convert} {reader : Reader} {s s' : Reading}
    (converted : perform (forward inner tree) reader s = (.ok t, s')) :
    ∃ state dimensions body returns luid,
      t = .node (.expr .forward) [state, dimensions, body, .list returns, luid] := by
  unfold forward at converted
  obtain ⟨_, _, -, converted⟩ := bind_ok converted
  obtain ⟨luid, _, -, converted⟩ := bind_ok converted
  obtain ⟨_, _, -, converted⟩ := bind_ok converted
  obtain ⟨state, _, -, converted⟩ := bind_ok converted
  obtain ⟨_, _, -, converted⟩ := bind_ok converted
  obtain ⟨dimensions, _, -, converted⟩ := bind_ok converted
  obtain ⟨_, _, -, converted⟩ := bind_ok converted
  obtain ⟨body, _, -, converted⟩ := bind_ok converted
  obtain ⟨_, _, -, converted⟩ := bind_ok converted
  obtain ⟨returns, _, listed, converted⟩ := bind_ok converted
  obtain ⟨_, _, -, listed⟩ := bind_ok listed
  obtain ⟨items, _, -, listed⟩ := bind_ok listed
  cases listed
  cases converted
  exact ⟨state, dimensions, body, items, luid, rfl⟩

theorem returnedArray_text {inner : Convert} {id clause position : ParseTree}
    {fields : List (String × ParseTree)} {reader : Reader} {s s' : Reading}
    (isName : id.isName = true)
    (converted : perform (forwardReturn inner
      (.node (some "FRetArrayClause") [.present id, clause, position] fields)) reader s = (.ok t, s')) :
    ∃ c, perform (inner .arrayClause clause) reader s = (.ok c, s') ∧
      t.print = (do return "<built-in function id> = " ++ (← c.print)) := by
  have truthy : id.isTruthy = true := by
    unfold ParseTree.isName at isName
    split at isName
    · rfl
    · cases isName
  obtain ⟨idTerm, named, -⟩ := name_gives isName reader s
  simp only [forwardReturn, ↓tag_bind, itemAt_first, itemAt_second, pure_bind, ParseTree.value,
    Convert.ofExcept, truthy, if_true, make_returnArray] at converted
  rw [perform_bind_ok named] at converted
  obtain ⟨c, s₁, inside, converted⟩ := bind_ok converted
  cases converted
  exact ⟨c, inside, returnArray_print c⟩

/-- Which loops are converted, which of these have a text, and how returned arrays are written. -/
theorem loops_convert_and_print (plainParts : PlainParts plain)
    (wellFormed : tree.isLoop plain .full = true) (reader : Reader) (s : Reading) :
    (tree.isLoop plain .convertible = true → ∃ state dimensions body returns luid,
      perform (convert .forward tree) reader s =
        (.ok (.node (.expr .forward) [state, dimensions, body, .list returns, luid]), s) ∧
      ((∃ text, (Term.node (.expr .forward) [state, dimensions, body, .list returns, luid]).print =
        .ok text) ↔ tree.isLoop plain .printable = true) ∧
      ∀ text, (Term.node (.expr .forward) [state, dimensions, body, .list returns, luid]).print =
        .ok text → ∃ front texts, returns.mapM Term.print = .ok texts ∧
          text = front ++ "\nreturns (" ++ String.intercalate ", " texts ++ ")") ∧
    (tree.isLoop plain .convertible = false →
      ∃ e, perform (convert .forward tree) reader s = (.error e, s) ∧ e.isSlip = true) ∧
    ∀ levels id clause position fields t s', id.isName = true →
      perform (convertUpTo (levels + 1) .forwardReturn
        (.node (some "FRetArrayClause") [.present id, clause, position] fields)) reader s = (.ok t, s') →
      ∃ c, perform (convertUpTo levels .arrayClause clause) reader s = (.ok c, s') ∧
        t.print = (do return "<built-in function id> = " ++ (← c.print)) := by
  have ends : Ends (convert .forward tree) (tree.isLoop plain .convertible)
      (Speaks (tree.isLoop plain .printable)) := by
    intro reader s
    rw [convert, perform_bind_ok (perform_read reader s)]
    refine loopUpTo_ends plainParts wellFormed ?_ reader s
    simp only [levelsFor, if_true]
    omega
  refine ⟨fun convertible => ?_, fun refused => ?_,
    fun levels id clause position fields t s' => returnedArray_text⟩
  · rcases ends reader s with ⟨-, t, converted, speaks⟩ | ⟨refused, -⟩
    · have formed := converted
      rw [convert, perform_bind_ok (perform_read reader s)] at formed
      obtain ⟨state, dimensions, body, returns, luid, rfl⟩ := forward_form formed
      refine ⟨state, dimensions, body, returns, luid, converted, ?_, fun text => loop_text⟩
      rw [← speaks.prints, Term.prints]
      cases (Term.node (.expr .forward) [state, dimensions, body, .list returns, luid]).print with
      | ok text => exact ⟨fun _ => rfl, fun _ => ⟨text, rfl⟩⟩
      | error e =>
        constructor
        · rintro ⟨_, ⟨⟩⟩
        · intro printed
          cases printed
    · rw [convertible] at refused
      cases refused
  · rcases ends reader s with ⟨converted, -⟩ | ⟨-, failed⟩
    · rw [refused] at converted
      cases converted
    · exact failed

end Whole

def loopTree (state : String) (dimensions returns : List ParseTree) : ParseTree :=
  .node (some "EForward") [.absent, .node (some state) [] [], .list dimensions,
    .node none [] [("FScopeSections", .list []),
      ("FStopCondition", .node (some "FStopNone") [] [])], .list returns] []

def returnedArrayTree (name : ParseTree) (item : String) : ParseTree :=
  .node (some "FRetArrayClause")
    [name, .node (some "FItemClause") [.identifier (.text item) (.list []), .absent] [], .absent] []

/-- A loop whose dimension is a loop that returns an array and restarts: it is converted, but has no
text. -/
def restartedInside : ParseTree :=
  loopTree "FNone" [.node (some "FDim")
    [loopTree "FRestart" [] [returnedArrayTree (.present (.identifier (.text "r") (.list []))) "x"],
      .absent] []] []

theorem restarted_inside_has_no_text :
    restartedInside.isLoop (fun rule tree => tree.describedBy rule) .full = true ∧
      ∃ state dimensions body returns luid,
        perform (convert .forward restartedInside) Reader.none {} =
          (.ok (.node (.expr .forward) [state, dimensions, body, .list returns, luid]), {}) ∧
        ¬ ∃ text,
          (Term.node (.expr .forward) [state, dimensions, body, .list returns, luid]).print =
            .ok text := by
  have wellFormed : restartedInside.isLoop (fun rule tree => tree.describedBy rule) .full =
      true := by decide +kernel
  have convertible : restartedInside.isLoop (fun rule tree => tree.describedBy rule) .convertible =
      true := by
    decide +kernel
  have silent : restartedInside.isLoop (fun rule tree => tree.describedBy rule) .printable =
      false := by decide +kernel
  obtain ⟨state, dimensions, body, returns, luid, converted, prints, -⟩ :=
    (loops_convert_and_print described_plainParts wellFormed Reader.none {}).1 convertible
  refine ⟨wellFormed, state, dimensions, body, returns, luid, converted, fun printed => ?_⟩
  rw [prints, silent] at printed
  cases printed

/-- A returned array without a name is not converted, though the loop is well formed. -/
theorem nameless_array_is_refused :
    (loopTree "FNone" [] [returnedArrayTree .absent "x"]).isLoop (fun rule tree =>
      tree.describedBy rule) .full = true ∧
        perform (convert .forward (loopTree "FNone" [] [returnedArrayTree .absent "x"])) Reader.none
          {} = (.error .unset, {}) :=
  ⟨by decide +kernel, rfl⟩

end SwanModel
