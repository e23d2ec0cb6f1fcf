import SwanModel.Proofs.Language.Total

/-!
# Forward loops

`Rule.loopShapes` gives the shapes of all loops, of those that are converted and of those that are
printed too.
-/

namespace SwanModel

open SwanModel.Convert

/-! ### The grammar of loops -/

def ParseTree.isPresentName : ParseTree → Bool
  | .present value => value.isName
  | _ => false

/-- All loops, those that are converted, or those that are converted and printed. -/
inductive LoopGrammar where
  | full | convertible | printable
deriving DecidableEq

namespace LoopGrammar

open Grammar

def onlyFull (g : LoopGrammar) (shape : TreeShape) : TreeShape :=
  if g = .full then shape else .leaf fun _ => false

def states : LoopGrammar → List String
  | .printable => ["FNone"]
  | _ => ["FNone", "FRestart", "FResume"]

def name : TreeShape := .leaf ParseTree.isName

def leading (g : LoopGrammar) : TreeShape :=
  if g = .full then .option name else .leaf ParseTree.isPresentName

def dimensions (g : LoopGrammar) : List TreeShape :=
  [.case "FDim" [.construct .expr, anything],
    .case "FDimWith" [.construct .expr, .option name, many .forwardElement, anything],
    .case "FRaw" [verbatim, anything], g.onlyFull (.case "FRaw" [verbatim])]

def stop : TreeShape := .oneOf
  [.case "FStopUntil" [.construct .expr], .case "FStopUnless" [.construct .expr],
    .leaf (ParseTree.isTaggedOther ["FStopUntil", "FStopUnless"])]

def lastDefaults : List TreeShape :=
  [.case "FLast" [.construct .expr], .case "FDefault" [.construct .expr],
    .case "FLastPlusDefault" [.construct .expr, .construct .expr],
    .case "FLastAndDefault" [.construct .expr]]

def arrayClauses (g : LoopGrammar) : List TreeShape :=
  [.case "FItemClause" [name, maybe .lastDefault], .case "FArrayClause" [.construct .arrayClause],
    g.onlyFull (.case "FItemClause" [.construct .itemClause])]

def returns (g : LoopGrammar) : List TreeShape :=
  [.case "FRetItemClause" [.construct .itemClause, anything],
    .case "FRetArrayClause" [g.leading, .construct .arrayClause, anything], .case "FRetRaw" [verbatim]]

end LoopGrammar

open Grammar LoopGrammar in
/-- The shapes of the trees of loops and of their parts. -/
def Rule.loopShapes (g : LoopGrammar) : Rule → List TreeShape
  | .forward =>
    [.case "EForward" [.option (.leaf ParseTree.isLuid), tagged g.states, many .dimension,
      .construct .forwardBody, many .forwardReturn]]
  | .dimension => dimensions g
  | .forwardElement => [.tuple [.construct .forwardLeft, .construct .expr]]
  | .forwardLeft => [.case "FId" [name], .case "FLhsArray" [.construct .forwardLeft]]
  | .forwardBody => [.record [("FScopeSections", many .scopeSection), ("FStopCondition", stop)]]
  | .lastDefault => lastDefaults
  | .itemClause => [.tuple [name, maybe .lastDefault]]
  | .arrayClause => arrayClauses g
  | .forwardReturn => returns g
  | _ => []

theorem LoopGrammar.accepts_onlyFull (g : LoopGrammar) (shape : TreeShape)
    (known : Rule → ParseTree → Bool) (tree : ParseTree) :
    (g.onlyFull shape).accepts known tree = (decide (g = .full) && shape.accepts known tree) := by
  cases g <;> simp [onlyFull, TreeShape.accepts]

namespace TreeShape

variable {known : Rule → ParseTree → Bool} {tree : ParseTree}

@[simp] theorem accepts_construct (rule : Rule) :
    (TreeShape.construct rule).accepts known tree = known rule tree := by
  rw [accepts]

@[simp] theorem accepts_anything : Grammar.anything.accepts known tree = true := by
  rw [Grammar.anything, accepts]

@[simp] theorem accepts_caseNode (tag name : String) (shapes : List TreeShape) (items : List ParseTree)
    (fields : List (String × ParseTree)) :
      (TreeShape.case name shapes).accepts known (.node (some tag) items fields) =
        (tag == name && acceptsItems known shapes items) := by
  rw [accepts]

@[simp] theorem accepts_tupleNode (tag : Option String) (shapes : List TreeShape)
    (items : List ParseTree) (fields : List (String × ParseTree)) :
      (TreeShape.tuple shapes).accepts known (.node tag items fields) =
        acceptsItems known shapes items := by
  rw [accepts]

@[simp] theorem accepts_recordNode (tag : Option String) (shapes : List (String × TreeShape))
    (items : List ParseTree) (fields : List (String × ParseTree)) :
      (TreeShape.record shapes).accepts known (.node tag items fields) =
        acceptsFields known shapes fields := by
  rw [accepts]

end TreeShape

/-- What is looked at as a whole does not depend on what the rules describe. -/
theorem TreeShape.accepts_optionLeaf {test : ParseTree → Bool} {known : Rule → ParseTree → Bool}
    {tree : ParseTree} (accepted : (TreeShape.option (.leaf test)).accepts known tree = true)
    (known' : Rule → ParseTree → Bool) :
    (TreeShape.option (.leaf test)).accepts known' tree = true := by
  rcases accepts_option accepted with rfl | ⟨value, rfl, truthy, holds⟩
  · rfl
  · rw [accepts, truthy, Bool.true_and]
    exact holds

theorem LoopGrammar.stop_cases {known : Rule → ParseTree → Bool} {condition : ParseTree}
    (accepted : stop.accepts known condition = true) :
    (∃ tag value fields, tag ∈ ["FStopUntil", "FStopUnless"] ∧
      condition = .node (some tag) [value] fields ∧ known .expr value = true ∧
        ∀ known', stop.accepts known' condition = known' .expr value) ∨
    (∃ tag items fields, tag ∉ ["FStopUntil", "FStopUnless"] ∧
      condition = .node (some tag) items fields ∧ ∀ known', stop.accepts known' condition = true) := by
  rcases TreeShape.accepts_oneOf accepted with found | found | found | ⟨⟨⟩⟩
  · obtain ⟨_, fields, rfl, isExpr, ⟨⟩⟩ := TreeShape.accepts_case found
    refine .inl ⟨"FStopUntil", _, fields, by simp, rfl, isExpr, fun known' => ?_⟩
    simp [stop, TreeShape.accepts, TreeShape.acceptsSome, TreeShape.acceptsItems,
      ParseTree.isTaggedOther]
  · obtain ⟨_, fields, rfl, isExpr, ⟨⟩⟩ := TreeShape.accepts_case found
    refine .inl ⟨"FStopUnless", _, fields, by simp, rfl, isExpr, fun known' => ?_⟩
    simp [stop, TreeShape.accepts, TreeShape.acceptsSome, TreeShape.acceptsItems,
      ParseTree.isTaggedOther]
  · obtain ⟨tag, items, fields, rfl, other⟩ := tagged_other found
    refine .inr ⟨tag, items, fields, other, rfl, fun known' => ?_⟩
    have holds : ParseTree.isTaggedOther ["FStopUntil", "FStopUnless"]
        (.node (some tag) items fields) = true := found
    simp [stop, TreeShape.accepts, TreeShape.acceptsSome, holds]

/-- Whether a rule describes a tree, if it is known which of the parts are described. -/
def Rule.describes (g : LoopGrammar) (known : Rule → ParseTree → Bool) (rule : Rule)
    (tree : ParseTree) : Bool :=
  (rule.loopShapes g).any fun shape => shape.accepts known tree

theorem Rule.describes_one {g : LoopGrammar} {rule : Rule} {shape : TreeShape}
    (only : rule.loopShapes g = [shape]) (known : Rule → ParseTree → Bool) (tree : ParseTree) :
    Rule.describes g known rule tree = shape.accepts known tree := by
  rw [Rule.describes, only, List.any_cons, List.any_nil, Bool.or_false]

theorem Rule.describes_two {g : LoopGrammar} {rule : Rule} {first second : TreeShape}
    (both : rule.loopShapes g = [first, second]) (known : Rule → ParseTree → Bool) (tree : ParseTree) :
    Rule.describes g known rule tree = (first.accepts known tree || second.accepts known tree) := by
  rw [Rule.describes, both, List.any_cons, List.any_cons, List.any_nil, Bool.or_false]

namespace ParseTree

/-- Whether a tree is that of a loop or of a part of one, looked at down to a number of levels.
Expressions are loops again or plain ones, and so are sections. -/
def loopUpTo (plain : Rule → ParseTree → Bool) (g : LoopGrammar) : Nat → Rule → ParseTree → Bool
  | 0, _, _ => false
  | levels + 1, rule, tree =>
    if rule = .expr then plain .expr tree || loopUpTo plain g levels .forward tree
    else if rule = .scopeSection then plain .scopeSection tree
    else rule.describes g (loopUpTo plain g levels) tree

def isLoop (plain : Rule → ParseTree → Bool) (g : LoopGrammar) (tree : ParseTree) : Bool :=
  loopUpTo plain g (2 * tree.height) .forward tree

end ParseTree

/-! ### What is printed -/

def Term.prints (t : Term) : Bool := t.print.isOk

def Term.printsIfGiven (t : Term) : Bool := !t.isTruthy || t.prints

@[simp] theorem Term.printsIfGiven_absent : Term.absent.printsIfGiven = true := rfl

section Printing

variable {α β : Type}

theorem prints_of_text {t : Term} {text : String} (printed : t.print = .ok text) : t.prints = true := by
  rw [Term.prints, printed]
  rfl

theorem isOk_bind {x : Except Error α} {f : α → Except Error β} {b : Bool} (rest : ∀ a, (f a).isOk = b) :
    (x >>= f).isOk = (x.isOk && b) := by
  cases x with
  | error e => rfl
  | ok a => exact rest a

theorem isOk_pure (a : α) : (pure a : Except Error α).isOk = true := rfl

theorem isOk_mapM_text (ts : List Term) :
    ((ts.map Term.printed).mapM Printed.text).isOk = ts.all Term.prints := by
  induction ts with
  | nil => rfl
  | cons t ts ih =>
    rw [List.map_cons, List.mapM_cons, isOk_bind fun _ => isOk_bind fun _ => isOk_pure _, ih,
      Bool.and_true]
    rfl

theorem isOk_join (separator : String) (ts : List Term) :
    ((Term.list ts).printed.join separator).isOk = ts.all Term.prints := by
  rw [Printed.join, Printed.texts, isOk_bind fun _ => isOk_pure _, items_printed, ok_bind,
    isOk_mapM_text, Bool.and_true]

theorem isOk_whenTrue (before after : String) (t : Term) :
    (t.printed.whenTrue before after).isOk = t.printsIfGiven := by
  rw [Printed.whenTrue, Printed.isTruthy, Term.term_printed, Term.printsIfGiven]
  split
  · next truthy =>
    rw [isOk_bind fun _ => isOk_pure _, truthy, Bool.and_true]
    rfl
  · next falsy =>
    rw [Bool.eq_false_iff.mpr falsy]
    rfl

theorem node_prints (form : Form) (parts : List Term) :
    (Term.node form parts).prints = (form.text (parts.map Term.printed)).isOk := by
  rw [Term.prints, Term.print_node]

theorem left_prints (t : Term) : (Term.node (.forward .left) [t]).prints = t.prints := by
  rw [node_prints]
  change (if t.printed.term.isIdentifier then t.print else t.print >>= fun text =>
    pure ("[" ++ text ++ "]")).isOk = _
  split
  · rfl
  · rw [isOk_bind fun _ => isOk_pure _, Bool.and_true]
    rfl

theorem element_prints (lhs expr : Term) :
    (Term.node (.forward .element) [lhs, expr]).prints = (lhs.prints && expr.prints) := by
  rw [node_prints]
  change (lhs.print >>= fun left => expr.print >>= fun right =>
    pure (left ++ " = " ++ right ++ ";")).isOk = _
  rw [isOk_bind fun _ => isOk_bind fun _ => isOk_pure _, Bool.and_true]
  rfl

theorem dimension_prints (size id elems : Term) (listed : elems = .absent ∨ ∃ ts, elems = .list ts) :
    (Term.node (.forward .dimension) [size, id, elems, .absent]).prints =
      (size.prints && (id.printsIfGiven && elems.members.toOption.all (·.all Term.prints))) := by
  have inside (whole : String → String) : (if elems.printed.isTruthy then
        (" " ++ ·) <$> elems.printed.join " " >>= fun text => pure (whole text)
      else Except.ok "" >>= fun text =>
        pure (whole text)).isOk = elems.members.toOption.all (·.all Term.prints) := by
    rcases listed with rfl | ⟨ts, rfl⟩
    · rfl
    · cases ts with
      | nil => rfl
      | cons t ts =>
        change ((fun text => " " ++ text) <$> (Term.list (t :: ts)).printed.join " " >>= _).isOk = _
        rw [map_eq_pure_bind, bind_assoc, isOk_bind (b := true) fun _ => rfl, isOk_join, Bool.and_true]
        rfl
  rw [node_prints]
  change (dimensionLayout size.printed id.printed elems.printed (Term.printed .absent)).isOk = _
  simp only [dimensionLayout, Printed.isAbsent, Term.term_printed, Term.isAbsent, if_true]
  rw [isOk_bind fun _ => isOk_bind fun _ => inside _, isOk_whenTrue]
  rfl

theorem itemClause_prints (id values : Term) :
    (Term.node (.forward .itemClause) [id, values]).prints = (id.prints && values.printsIfGiven) := by
  rw [node_prints]
  change (id.print >>= fun name => values.printed.whenTrue ": " "" >>= fun text =>
    pure (name ++ text)).isOk = _
  rw [isOk_bind fun _ => isOk_bind fun _ => isOk_pure _, isOk_whenTrue, Bool.and_true]
  rfl

theorem arrayClause_prints (clause : Term) :
    (Term.node (.forward .arrayClause) [clause]).prints = clause.prints := by
  rw [node_prints]
  change (clause.print >>= fun text => pure ("[" ++ text ++ "]")).isOk = _
  rw [isOk_bind fun _ => isOk_pure _, Bool.and_true]
  rfl

theorem returnItem_prints (clause : Term) :
    (Term.node (.forward .returnItem) [clause]).prints = clause.prints := by
  rw [node_prints]
  rfl

theorem returnArray_print (clause : Term) :
    (Term.node (.forward .returnArray) [clause, .anyIdentifier]).print =
      clause.print >>= fun text => pure ("<built-in function id> = " ++ text) := by
  rw [Term.print_node]
  rfl

theorem lastDefault_prints (last fallback shared : Term) :
    (Term.node (.forward .lastDefault) [last, fallback, shared]).prints =
      if shared.isTruthy then shared.prints else last.printsIfGiven && fallback.printsIfGiven := by
  rw [node_prints]
  change (lastDefaultLayout last.printed fallback.printed shared.printed).isOk = _
  simp only [lastDefaultLayout, Printed.isTruthy, Term.term_printed]
  split
  · next truthy => rw [isOk_whenTrue, Term.printsIfGiven, truthy, Bool.not_true, Bool.false_or]
  · rw [isOk_bind fun _ => isOk_bind fun _ => isOk_pure _, isOk_whenTrue, isOk_whenTrue, Bool.and_true]

theorem body_prints (sections : List Term) (unlessExpr untilExpr : Term) :
    (Term.node (.forward .body) [.list sections, unlessExpr, untilExpr]).prints =
      (unlessExpr.printsIfGiven && (untilExpr.printsIfGiven && sections.all Term.prints)) := by
  rw [node_prints]
  change (unlessExpr.printed.whenTrue "unless " "\n" >>= fun front =>
    untilExpr.printed.whenTrue "\nuntil " "" >>= fun back =>
      (Term.list sections).printed.join "\n" >>= fun text => pure (front ++ text ++ back)).isOk = _
  rw [isOk_bind fun _ => isOk_bind fun _ => isOk_bind fun _ => isOk_pure _, isOk_whenTrue,
    isOk_whenTrue, isOk_join, Bool.and_true]

/-- The text of a loop needs those of its parts, and there is none for a state. -/
theorem loop_prints (state : ForwardState) (dimensions returns : List Term) (body luid : Term) :
    (Term.node (.expr .forward) [.constant (.forwardState state), .list dimensions, body,
      .list returns, luid]).prints = (luid.printsIfGiven &&
        (state == .nothing && (dimensions.all Term.prints &&
          (body.prints && returns.all Term.prints)))) := by
  rw [node_prints]
  change (forwardLayout (Term.constant (.forwardState state)).printed (Term.list dimensions).printed
    body.printed (Term.list returns).printed luid.printed).isOk = _
  cases state with
  | nothing =>
    change (luid.printed.whenTrue " " "" >>= fun _ =>
      (Term.list dimensions).printed.join "\n" >>= fun _ =>
      body.print >>= fun _ => (Term.list returns).printed.join ", " >>= fun _ => pure _).isOk = _
    rw [isOk_bind fun _ => isOk_bind fun _ => isOk_bind fun _ => isOk_bind fun _ => isOk_pure _,
      isOk_whenTrue, isOk_join, isOk_join, Bool.and_true]
    rfl
  | _ =>
    change (luid.printed.whenTrue " " "" >>= fun _ =>
      (throw .missingMember : Except Error String)).isOk = _
    rw [isOk_bind (b := false) fun _ => rfl, Bool.and_false]
    simp

theorem loop_text {state dimensions body luid : Term} {returns : List Term} {text : String}
    (printed : (Term.node (.expr .forward) [state, dimensions, body, .list returns, luid]).print =
      .ok text) :
    ∃ front texts, returns.mapM Term.print = .ok texts ∧
      text = front ++ "\nreturns (" ++ String.intercalate ", " texts ++ ")" := by
  rw [Term.print_node] at printed
  change forwardLayout state.printed dimensions.printed body.printed (Term.list returns).printed
    luid.printed = _ at printed
  obtain ⟨luidText, -, printed⟩ := ok_of_bind printed
  split at printed
  · obtain ⟨dims, -, printed⟩ := ok_of_bind printed
    obtain ⟨bodyText, -, printed⟩ := ok_of_bind printed
    obtain ⟨group, joined, printed⟩ := ok_of_bind printed
    obtain ⟨texts, listed, joined⟩ := ok_of_bind joined
    rw [Printed.texts, items_printed, ok_bind, List.mapM_map] at listed
    cases joined
    cases printed
    exact ⟨_, texts, listed, rfl⟩
  · cases printed

end Printing

end SwanModel
