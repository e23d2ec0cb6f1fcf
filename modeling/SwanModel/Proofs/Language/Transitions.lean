import SwanModel.Proofs.Convert.Present
import SwanModel.Proofs.Language.Total

/-!
# Transitions

`Mirrors` compares an arrow with its tree: both have the same guards, actions, states and forks, in
the same order.
-/

namespace SwanModel

open SwanModel.Convert

variable {fields : List (String × ParseTree)} {f : ParseTree → Conversion Term} {form : Form}

/-! ### What is seen of trees and constructs -/

def Term.shown (name : String) : Term → Except Error Term
  | .node form parts =>
    match form.property? name with
    | some property => do (← property parts).term parts
    | none => .error .missingMember
  | _ => .error .missingMember

/-- A construct of a form shows some terms under their names. -/
def Term.Shows (form : Form) (members : List (String × Term)) (t : Term) : Prop :=
  t.form? = some form ∧ members.Forall fun member => t.shown member.1 = .ok member.2

def ParseTree.Has (fields : List (String × ParseTree)) (tree : ParseTree) : Prop :=
  fields.Forall fun field => tree.field field.1 = .ok field.2

/-- A tree becomes a term where a rule is applied to it. -/
def Becomes (reader : Reader) (rule : Rule) (tree : ParseTree) (t : Term) : Prop :=
  ∃ levels s s', perform (convertUpTo levels rule tree) reader s = (.ok t, s')

/-- An option and a term that is nothing if the option has no value. -/
inductive Optionally (R : ParseTree → Term → Prop) : ParseTree → Term → Prop
  | absent : Optionally R .absent .absent
  | present {tree : ParseTree} {t : Term} (related : R tree t) : Optionally R (.present tree) t

/-- A text that may be left out and the construct for it, which shows the text as it is read. -/
inductive Names (form : Form) (read : String → String) : ParseTree → Term → Prop
  | absent : Names form read .absent .absent
  | empty : Names form read (.text "") (.text "")
  | given {s : String} {t : Term} (filled : s ≠ "") (shows : t.Shows form [("value", .text (read s))]) :
      Names form read (.text s) t

/-- A state by its name and its luid. -/
inductive Identifies : ParseTree → Term → Prop
  | intro {id luid : ParseTree} {t name number : Term}
      (shows : t.Shows (.equation .identification) [("id", name), ("luid", number)])
      (names : Names (.name .identifier) (fun s => s) id name)
      (numbers : Names (.name .luid) (fun s => String.ofList (Name.dropHash s.toList)) luid number) :
      Identifies (.identification id luid) t

/-! ### Arrows and their trees -/

def Guards (reader : Reader) (tree : ParseTree) (t : Term) : Prop :=
  Becomes reader .exprOrText tree t ∧ t.isAbsent = false

inductive Heads (reader : Reader) (fork : ParseTree) (goal : Term) : ParseTree → Term → Prop
  | intro {tree guard action : ParseTree} {t condition scope : Term}
      (given : tree.Has [("AGuard", guard), ("AAction", action), ("AFork", fork)])
      (shows : t.Shows (.equation .arrow) [("guard", condition), ("action", scope), ("target", goal)])
      (guards : Optionally (Guards reader) guard condition) (acts : Becomes reader .scope action scope) :
      Heads reader fork goal tree t

inductive Leads : ParseTree → Term → Prop
  | intro {tree place : ParseTree} {resume : Bool} {goal id : Term}
      (given : tree.Has [("ATarget", place), ("AIsResume", .truth resume)])
      (shows : goal.Shows (.equation .target)
        [("target_id", id), ("is_resume", .truth resume), ("is_restart", .truth !resume)])
      (identifies : Identifies place id) : Leads tree goal

/-- An entry of a fork has the priority and the kind of its tree, and it is valid if the kind agrees
with the guard. -/
inductive Ranks (arrow : Term) : ParseTree → Term → Prop
  | intro {tree priority guard : ParseTree} {isIf : Bool} {t : Term}
      (given : tree.Has [("APrio", priority), ("AIf", .truth isIf), ("AGuard", guard)])
      (shows : t.Shows (.equation .priorityFork) [("priority", .ofTree priority),
        ("is_if_arrow", .truth isIf), ("arrow", arrow),
        ("is_valid", .truth (isIf == guard.isPresent))]) : Ranks arrow tree t

mutual

/-- An arrow says what its tree says. -/
inductive Mirrors (reader : Reader) : ParseTree → Term → Prop
  | direct {tree : ParseTree} {t goal : Term} (heads : Heads reader .absent goal tree t)
    (leads : Leads tree goal) : Mirrors reader tree t
  | forked {tree fork : ParseTree} {t goal : Term} (heads : Heads reader (.present fork) goal tree t)
      (forks : Forks reader fork goal) : Mirrors reader tree t

inductive Forks (reader : Reader) : ParseTree → Term → Prop
  | tree {first last : ParseTree} {others : List ParseTree} {fields : List (String × ParseTree)}
      {goal ifArrow elseArrow : Term} {elsifArrows : List Term}
      (shows : goal.Shows (.equation .forkTree)
        [("if_arrow", ifArrow), ("elsif_arrows", .list elsifArrows), ("else_arrow", elseArrow)])
      (starts : Mirrors reader first ifArrow) (goesOn : List.Forall₂ (Mirrors reader) others elsifArrows)
      (ends : Optionally (Mirrors reader) last elseArrow) :
      Forks reader (.node (some "AForkTree") [first, .list others, last] fields) goal
  | priorities {tag : String} {trees : List ParseTree} {fields : List (String × ParseTree)} {goal : Term}
      {entries : List Term} (other : tag ≠ "AForkTree")
      (shows : goal.Shows (.equation .priorityForks) [("prio_forks", .list entries)])
      (each : List.Forall₂ (MirrorsEntry reader) trees entries) :
      Forks reader (.node (some tag) [.list trees] fields) goal

inductive MirrorsEntry (reader : Reader) : ParseTree → Term → Prop
  | intro {tree : ParseTree} {t arrow : Term} (ranks : Ranks arrow tree t)
    (mirrors : Mirrors reader tree arrow) : MirrorsEntry reader tree t

end

/-! ### Trees of arrows -/

namespace ParseTree

def isGuard : ParseTree → Bool
  | .node (some tag) items _ => tag != "ExprWithSP" || items.head?.any (isTagged exprTags)
  | _ => false

/-- What the parts of an arrow are, if it is known which trees are arrows. Actions are left open. -/
def isArrowPart (isArrow : ParseTree → Bool) : Rule → ParseTree → Bool
  | .arrow, tree | .priorityFork, tree => isArrow tree
  | .exprOrText, tree => tree.isGuard
  | .identification, tree => tree.isIdentification
  | _, _ => true

/-- Whether a tree is an arrow, looked at down to a number of levels. -/
def arrowUpTo : Nat → ParseTree → Bool
  | 0, _ => false
  | levels + 1, tree => Rule.arrow.shapes.any fun shape =>
    shape.accepts (isArrowPart (arrowUpTo levels)) tree

/-- Whether a tree is an arrow, with forks in forks down to any depth. -/
def isArrow (tree : ParseTree) : Bool := arrowUpTo tree.height tree

end ParseTree

/-! ### Results of conversions -/

variable {α β : Type} {reader : Reader} {x : Conversion α} {post : α → Prop} {tree : ParseTree}
  {shape : TreeShape} {known : Rule → ParseTree → Bool} {R : ParseTree → Term → Prop}

/-- What a conversion gives, if it gives anything, has a property. -/
def Returns (reader : Reader) (x : Conversion α) (post : α → Prop) : Prop :=
  ∀ s a s', perform x reader s = (.ok a, s') → post a

namespace Returns

theorem pure {a : α} (holds : post a) : Returns reader (Pure.pure a) post := by
  rintro s b s' ran
  cases ran
  exact holds

theorem bind {f : α → Conversion β} {post' : β → Prop} (first : Returns reader x post)
    (rest : ∀ a, post a → Returns reader (f a) post') : Returns reader (x >>= f) post' := by
  intro s b s' ran
  obtain ⟨a, s₁, ran, ran'⟩ := bind_ok ran
  exact rest a (first s a s₁ ran) s₁ b s' ran'

theorem bind_ite {c : Prop} [Decidable c] {y : Conversion α} {f : α → Conversion β} {post' : β → Prop}
    (first : Returns reader (if c then x else y) post)
    (rest : ∀ a, post a → Returns reader (f a) post') :
    Returns reader (if c then x >>= f else y >>= f) post' := by
  split
  · rename_i holds
    rw [if_pos holds] at first
    exact first.bind rest
  · rename_i fails
    rw [if_neg fails] at first
    exact first.bind rest

theorem mapM {trees : List ParseTree}
    (each : ∀ tree ∈ trees, Returns reader (f tree) (R tree)) :
    Returns reader (trees.mapM f) (List.Forall₂ R trees) := by
  induction trees with
  | nil => exact .pure .nil
  | cons tree trees ih =>
    rw [List.mapM_cons]
    exact (each tree (by simp)).bind fun t head =>
      (ih fun other inside => each other (by simp [inside])).bind fun ts tail => .pure (.cons head tail)

theorem make {args : List Term} {post : Term → Prop}
    (made : ∀ fillings, form.fill args = .ok fillings →
      post (.node form (fillings.map (Filling.term args)))) :
    Returns reader (Convert.make form args) post := by
  intro s t s' ran
  obtain ⟨fillings, filled, rfl⟩ := make_ok ran
  exact made fillings filled

theorem make_plain {args : List Term} {post : Term → Prop}
    (plain : form.fill args = .ok (Filling.allBut [] args)) (holds : post (.node form args)) :
    Returns reader (Convert.make form args) post := by
  intro s t s' ran
  obtain rfl := make_ok_plain plain ran
  exact holds

end Returns

theorem each_returns (accepted : (TreeShape.list shape).accepts known tree = true)
    (member : ∀ tree, shape.accepts known tree = true → Returns reader (f tree) (R tree)) :
    Returns reader (each f tree) fun t => ∃ trees ts, tree = .list trees ∧ t = .list ts ∧
      List.Forall₂ R trees ts := by
  obtain ⟨items, rfl, fits⟩ := TreeShape.accepts_list accepted
  exact (Returns.mapM fun item inside => member item (fits item inside)).bind fun ts each =>
    .pure ⟨items, ts, rfl, rfl, each⟩

theorem optional_returns (accepted : (TreeShape.option shape).accepts known tree = true)
    (member : ∀ tree, shape.accepts known tree = true → Returns reader (f tree) (R tree)) :
    Returns reader (optional f tree) (Optionally R tree) := by
  rcases TreeShape.accepts_option accepted with rfl | ⟨value, rfl, truthy, fits⟩
  · exact .pure .absent
  · intro s t s' ran
    simp only [Convert.optional, ParseTree.value, Convert.ofExcept, pure_bind, truthy, if_true] at ran
    exact .present (member value fits s t s' ran)

/-! ### Names of states -/

theorem field_has {tag : Option String} {items : List ParseTree} {name : String}
    (found : fields.lookup name = some tree) :
    (ParseTree.node tag items fields).field name = .ok tree := by
  simp [ParseTree.field, found]

theorem isFlag_eq (isFlag : tree.isFlag = true) : ∃ b, tree = .truth b := by
  cases tree with
  | truth b => exact ⟨b, rfl⟩
  | _ => cases isFlag

theorem names_returns {read : String → String} {f : Term → Conversion Term}
    (isName : tree.isTextOrAbsent = true)
    (given : ∀ s ≠ "", Returns reader (f (.text s)) (Term.Shows form [("value", .text (read s))])) :
    Returns reader (if (Term.ofTree tree).isTruthy then f (Term.ofTree tree) else pure
      (Term.ofTree tree)) (Names form read tree) := by
  cases tree with
  | absent => exact .pure .absent
  | text s =>
    by_cases filled : s = ""
    · subst filled
      exact .pure .empty
    · have truthy : (Term.ofTree (.text s)).isTruthy = true := by
        simpa [Term.ofTree, Term.isTruthy] using filled
      rw [if_pos truthy]
      exact fun s₀ t s' ran => .given filled (given s filled s₀ t s' ran)
  | _ => cases isName

theorem luid_shows {s : String} : Returns reader (make (.name .luid) [.text s])
    (Term.Shows (.name .luid) [("value", .text (String.ofList (Name.dropHash s.toList)))]) := by
  refine .make fun fillings filled => ⟨rfl, ?_⟩
  change fillLuid [.text s] = .ok fillings at filled
  simp only [fillLuid, partAt, List.getD_cons_zero] at filled
  split at filled
  · cases filled
  · rename_i rest marked
    cases filled
    rw [marked]
    rfl
  · rename_i unmarked
    cases filled
    have kept : Name.dropHash s.toList = s.toList := by
      unfold Name.dropHash
      split
      · rename_i rest marked
        exact absurd marked (unmarked rest)
      · rfl
    rw [kept, String.ofList_toList]
    rfl

theorem identification_returns (isIdentification : tree.isIdentification = true) :
    Returns reader (identification tree) (Identifies tree) := by
  cases tree with
  | identification id luid =>
    obtain ⟨isId, isLuid⟩ : id.isTextOrAbsent = true ∧ luid.isTextOrAbsent = true := by
      simpa [ParseTree.isIdentification] using isIdentification
    have identifier : ∀ s ≠ "", Returns reader (plainIdentifier (.text s))
        (Term.Shows (.name .identifier) [("value", .text s)]) := by
      refine fun s _ => .make fun fillings filled => ?_
      cases filled
      exact ⟨rfl, rfl⟩
    refine .bind_ite (names_returns isId identifier) fun name names => ?_
    refine .bind_ite (names_returns (f := fun t => make _ [t]) isLuid fun s _ => luid_shows)
      fun number numbers => ?_
    exact .make_plain rfl (.intro ⟨rfl, rfl, rfl⟩ names numbers)
  | _ => cases isIdentification

/-! ### Forks -/

/-- The converters of the parts of arrows do their work. -/
structure Draws (reader : Reader) (inner : Convert) (isArrow : ParseTree → Bool) : Prop where
  arrow : ∀ tree, isArrow tree = true → Returns reader (inner .arrow tree) (Mirrors reader tree)
  entry : ∀ tree, isArrow tree = true →
    Returns reader (inner .priorityFork tree) (MirrorsEntry reader tree)
  guard : ∀ tree, tree.isGuard = true → Returns reader (exprOrText inner tree) (Guards reader tree)
  action : ∀ tree, Returns reader (inner .scope tree) (Becomes reader .scope tree)

structure Drawn (reader : Reader) (tree : ParseTree) (p : ArrowParts) : Prop where
  mirrors : Mirrors reader tree p.arrow
  ranks : Ranks p.arrow tree (.node (.equation .priorityFork) [p.priority, p.arrow, p.isIf])

section
variable {self : Convert} {isArrow : ParseTree → Bool} (draws : Draws reader self isArrow)
include draws

open TreeShape

theorem fork_returns (accepted : Grammar.fork.accepts (ParseTree.isArrowPart isArrow) tree = true) :
    Returns reader (fork (self .arrow) (self .priorityFork) tree) (Forks reader tree) := by
  rcases accepts_oneOf accepted with accepted | accepted | ⟨⟨⟩⟩
  · obtain ⟨_, _, rfl, isIf, areElsifs, isElse, ⟨⟩⟩ := accepts_case accepted
    simp only [fork, ↓tag_bind, itemAt_first, itemAt_second, itemAt_third, pure_bind]
    refine (draws.arrow _ isIf).bind fun first starts => ?_
    refine (each_returns areElsifs fun tree => draws.arrow tree).bind fun others elsifs => ?_
    refine (optional_returns isElse fun tree => draws.arrow tree).bind fun last ends => ?_
    obtain ⟨trees, ts, rfl, rfl, goesOn⟩ := elsifs
    refine .make fun fillings filled => ?_
    cases filled
    -- A list without arrows is made anew, so the parts of the fork are known only by cases.
    cases goesOn with
    | nil => exact .tree ⟨rfl, rfl, rfl, rfl⟩ starts .nil ends
    | cons head tail => exact .tree ⟨rfl, rfl, rfl, rfl⟩ starts (.cons head tail) ends
  · obtain ⟨tag, _, _, rfl, different, areForks, ⟨⟩⟩ := accepts_other accepted
    simp only [fork, ↓tag_bind, item_node, pure_bind]
    split
    · contradiction
    · refine (each_returns areForks fun tree => draws.entry tree).bind fun entries forks => ?_
      obtain ⟨trees, ts, rfl, rfl, each⟩ := forks
      exact .make_plain rfl (.priorities (by simpa using different) ⟨rfl, rfl⟩ each)

omit draws in
theorem ranks_arrow {priority guard : ParseTree} {isIf : Bool} {condition scope goal : Term}
    (given : tree.Has [("APrio", priority), ("AIf", .truth isIf), ("AGuard", guard)])
    (guards : Optionally (Guards reader) guard condition) :
    let arrow := .node (.equation .arrow) [condition, scope, goal]
    Ranks arrow tree (.node (.equation .priorityFork) [.ofTree priority, arrow, .truth isIf]) := by
  refine .intro given ⟨rfl, rfl, rfl, rfl, ?_⟩
  change Except.ok (Term.truth (condition.isAbsent != isIf)) = _
  cases guards with
  | absent => cases isIf <;> rfl
  | present guards =>
    rw [guards.2]
    cases isIf <;> rfl

theorem arrowParts_returns {tag : Option String} {items : List ParseTree} {fork value : ParseTree}
    (has : HasFields (ParseTree.isArrowPart isArrow) fields Grammar.arrowFields)
    (foundFork : fields.lookup "AFork" = some fork) (isValue : fork.value = .ok value)
    (goals : Returns reader
      (if value.isTruthy then Convert.fork (self .arrow) (self .priorityFork) value
        else target (.node tag items fields))
      fun goal => ∀ t, Heads reader fork goal (.node tag items fields) t →
        Mirrors reader (.node tag items fields) t) :
    Returns reader (arrowParts self (.node tag items fields))
      (Drawn reader (.node tag items fields)) := by
  obtain ⟨foundPriority, -, foundGuard, isGuard, foundAction, -, foundIf, isIf, ⟨⟩⟩ := has
  obtain ⟨isIf, rfl⟩ := isFlag_eq isIf
  simp only [arrowParts, field_node foundPriority, field_node foundGuard, field_node foundAction,
    field_node foundIf, field_node foundFork, isValue, Convert.ofExcept, pure_bind]
  refine (optional_returns isGuard draws.guard).bind fun condition guards =>
    (draws.action _).bind fun scope acts => ?_
  refine goals.bind_ite fun goal mirrors => Returns.bind (.make_plain rfl rfl) fun arrow made => .pure ?_
  subst made
  refine ⟨mirrors _ ?_, ranks_arrow ⟨field_has foundPriority, field_has foundIf,
    field_has foundGuard⟩ guards⟩
  exact .intro ⟨field_has foundGuard, field_has foundAction, field_has foundFork⟩
    ⟨rfl, rfl, rfl, rfl⟩ guards acts

theorem forkedArrow_returns
    (accepted : Grammar.forkedArrow.accepts (ParseTree.isArrowPart isArrow) tree = true) :
    Returns reader (arrowParts self tree) (Drawn reader tree) := by
  obtain ⟨_, _, _, rfl, has⟩ := accepts_record accepted
  obtain ⟨has, foundFork, isPresent, foundAgain, isFork, ⟨⟩⟩ := has.of_append
  obtain rfl := Option.some.inj (foundFork.symm.trans foundAgain)
  rcases accepts_option isFork with rfl | ⟨value, rfl, truthy, isFork⟩
  · cases isPresent
  · refine arrowParts_returns draws has foundFork rfl ?_
    rw [if_pos truthy]
    exact fun s goal s' ran t heads => .forked heads (fork_returns draws isFork s goal s' ran)

theorem directArrow_returns
    (accepted : Grammar.directArrow.accepts (ParseTree.isArrowPart isArrow) tree = true) :
    Returns reader (arrowParts self tree) (Drawn reader tree) := by
  obtain ⟨_, _, _, rfl, has⟩ := accepts_record accepted
  obtain ⟨has, foundFork, isMissing, foundTarget, isTarget, foundResume, isResume, ⟨⟩⟩ := has.of_append
  obtain rfl := missing_eq isMissing
  obtain ⟨resume, rfl⟩ := isFlag_eq isResume
  refine arrowParts_returns draws has foundFork rfl ?_
  rw [if_neg (by decide)]
  simp only [target, field_node foundTarget, field_node foundResume, pure_bind]
  refine (identification_returns isTarget).bind fun id identifies => .make_plain rfl fun t heads => ?_
  exact .direct heads (.intro ⟨field_has foundTarget, field_has foundResume⟩ ⟨rfl, rfl, rfl,
    rfl⟩ identifies)

theorem arrow_drawn (accepted : HasOne (ParseTree.isArrowPart isArrow) tree Rule.arrow.shapes) :
    Returns reader (arrowParts self tree) (Drawn reader tree) := by
  rcases accepted with accepted | accepted | ⟨⟨⟩⟩
  · exact forkedArrow_returns draws accepted
  · exact directArrow_returns draws accepted

end

/-! ### Guards -/

variable {levels : Nat}

theorem NeverAbsent.guard (isGuard : tree.isGuard = true) :
    NeverAbsent (exprOrText (convertUpTo levels) tree) := by
  unfold ParseTree.isGuard at isGuard
  split at isGuard
  · rename_i tag items fields
    simp only [exprOrText, ↓tag_bind]
    split
    · refine .bind fun value asked => .expr ?_
      obtain ⟨_, _, _, asked⟩ := asked
      -- The first of several items is asked for, and of a single item there is no first.
      rcases items with _ | ⟨first, _ | ⟨second, rest⟩⟩
      · cases asked
      · cases asked
      · cases asked
        exact isGuard
    · infer_instance
  · cases isGuard

theorem guard_returns (isGuard : tree.isGuard = true) :
    Returns reader (exprOrText (convertUpTo levels) tree) (Guards reader tree) :=
  fun s t s' ran => ⟨⟨levels + 1, s, s', ran⟩, (NeverAbsent.guard isGuard).given t ⟨reader, s, s', ran⟩⟩

/-! ### Arrows of any depth -/

theorem draws_upTo (reader : Reader) (levels depth : Nat) :
    Draws reader (convertUpTo levels) (ParseTree.arrowUpTo depth) := by
  -- Every fork takes a level of the converter; if there are too few of them nothing is given.
  induction levels generalizing depth with
  | zero =>
    exact
      { arrow := fun tree _ s t s' ran => by cases ran
        entry := fun tree _ s t s' ran => by cases ran
        guard := fun tree => guard_returns
        action := fun tree s t s' ran => by cases ran }
  | succ levels ih =>
    have drawn : ∀ tree, ParseTree.arrowUpTo depth tree = true →
        Returns reader (arrowParts (convertUpTo levels) tree) (Drawn reader tree) := by
      intro tree isArrow
      cases depth with
      | zero => cases isArrow
      | succ depth => exact arrow_drawn (ih depth) (hasOne_of_any isArrow)
    exact
      { arrow := fun tree isArrow => (drawn tree isArrow).bind fun p drawn => .pure drawn.mirrors
        entry := fun tree isArrow => (drawn tree isArrow).bind fun p drawn =>
          .make_plain rfl (.intro drawn.ranks drawn.mirrors)
        guard := fun tree => guard_returns
        action := fun tree s t s' ran => ⟨levels + 1, s, s', ran⟩ }

/-! ### States -/

inductive MirrorsTransition (reader : Reader) : ParseTree → Term → Prop
  | intro {tree : ParseTree} {t arrow : Term}
    (shows : t.Shows (.equation .transition) [("arrow", arrow)])
    (mirrors : Mirrors reader tree arrow) : MirrorsTransition reader tree t

/-- A state has the transitions of its tree: the weak ones are the until transitions and the strong
ones are the unless transitions. -/
inductive MirrorsState (reader : Reader) : ParseTree → Term → Prop
  | intro {tree : ParseTree} {t : Term} {untils unlesses : List ParseTree} {weak strong : List Term}
      (given : tree.Has [("UntilTransitions", .list untils), ("UnlessTransitions", .list unlesses)])
      (shows : t.Shows (.equation .state) [("weak_transitions", .list weak),
        ("strong_transitions", .list strong)])
      (weakly : List.Forall₂ (MirrorsTransition reader) untils weak)
      (strongly : List.Forall₂ (MirrorsTransition reader) unlesses strong) :
      MirrorsState reader tree t

def ParseTree.isState (tree : ParseTree) : Bool :=
  Grammar.state.accepts (fun rule part => rule != .arrow || part.isArrow) tree

theorem transition_returns (isArrow : tree.isArrow = true) :
    Returns reader (transition (convertUpTo levels) tree) (MirrorsTransition reader tree) :=
  ((draws_upTo reader (levels + 1) _).arrow tree isArrow).bind fun _ mirrors =>
    .make_plain rfl (.intro ⟨rfl, rfl⟩ mirrors)

theorem Returns.anything : Returns reader x fun _ => True := fun _ _ _ _ => trivial

theorem state_returns (isState : tree.isState = true) :
    Returns reader (state (convertUpTo levels) tree) (MirrorsState reader tree) := by
  obtain ⟨_, _, _, rfl, foundId, -, foundUntil, areWeak, foundUnless, areStrong, foundInitial, -,
      foundBody, -, ⟨⟩⟩ :=
    TreeShape.accepts_record isState
  simp only [state, field_node foundId, field_node foundUntil, field_node foundUnless,
    field_node foundInitial, field_node foundBody, pure_bind]
  refine Returns.anything.bind fun id _ => ?_
  refine (each_returns areWeak fun tree isArrow => transition_returns isArrow).bind fun t weak => ?_
  obtain ⟨untils, weak, rfl, rfl, weakly⟩ := weak
  refine (each_returns areStrong fun tree isArrow => transition_returns isArrow).bind fun t strong => ?_
  obtain ⟨unlesses, strong, rfl, rfl, strongly⟩ := strong
  refine Returns.anything.bind fun sections _ => .make fun fillings filled => ?_
  cases filled
  refine .intro ⟨field_has foundUntil, field_has foundUnless⟩ ⟨rfl, ?_, ?_⟩ weakly strongly
  · cases weak <;> rfl
  · cases strong <;> rfl

/-! ### Trees that the grammar describes -/

def TreeShape.tag? : TreeShape → Option String
  | .case tag _ => some tag
  | _ => none

namespace ParseTree

variable {n : Nat}

theorem isTagged_of_described (described : describedUpTo n .expr tree = true) :
    tree.isTagged exprTags = true := by
  cases n with
  | zero => cases described
  | succ n =>
    obtain ⟨shape, listed, accepted⟩ := List.any_eq_true.mp described
    have tags : (Rule.expr.shapes.all fun shape => shape.tag?.any exprTags.contains) = true := by
      decide +kernel
    have tagged := List.all_eq_true.mp tags shape listed
    cases shape with
    | case tag shapes =>
      obtain ⟨_, _, rfl, -⟩ := TreeShape.accepts_case accepted
      exact tagged
    | _ => cases tagged

theorem isGuard_of_described (described : describedUpTo n .exprOrText tree = true) :
    tree.isGuard = true := by
  cases n with
  | zero => cases described
  | succ n =>
    rcases hasOne_of_any described with accepted | accepted | ⟨⟨⟩⟩
    · obtain ⟨_, _, rfl, isExpr, -⟩ := TreeShape.accepts_case accepted
      exact isTagged_of_described isExpr
    · obtain ⟨tag, _, _, rfl, different, -⟩ := TreeShape.accepts_other accepted
      simp_all [isGuard]

theorem isIdentification_of_described (described : describedUpTo n .identification tree = true) :
    tree.isIdentification = true := by
  cases n with
  | zero => cases described
  | succ n => exact (hasOne_of_any described).only

theorem arrowUpTo_of_described (described : describedUpTo n .arrow tree = true) :
    arrowUpTo n tree = true := by
  induction n generalizing tree with
  | zero => cases described
  | succ n ih =>
    obtain ⟨shape, listed, accepted⟩ := List.any_eq_true.mp described
    refine List.any_eq_true.mpr ⟨shape, listed,
      TreeShape.accepts_of_below ?_ shape (Nat.le_refl _) accepted⟩
    intro rule part _ described
    cases rule with
    | arrow => exact ih described
    | priorityFork =>
      -- Both rules describe the same trees.
      have same : describedUpTo n .arrow part = describedUpTo n .priorityFork part := by cases n <;> rfl
      exact ih (same.trans described)
    | exprOrText => exact isGuard_of_described described
    | identification => exact isIdentification_of_described described
    | _ => rfl

theorem isArrow_of_described (described : describedUpTo n .arrow tree = true) : tree.isArrow = true :=
  arrowUpTo_of_described (describedUpTo_of_height described (Nat.le_refl _))

theorem isState_of_described
    (described : (ParseTree.node (some "StateItem") [tree] fields).describedBy .machineItem = true) :
    tree.isState = true := by
  obtain accepted | accepted | ⟨⟨⟩⟩ := hasOne_of_any described
  · obtain ⟨_, _, same, isState, -⟩ := TreeShape.accepts_case accepted
    cases same
    refine TreeShape.accepts_of_below ?_ Grammar.state (Nat.le_refl _) isState
    intro rule part _ described
    by_cases isArrow : rule = .arrow
    · subst isArrow
      exact isArrow_of_described described
    · simp [isArrow]
  · obtain ⟨_, _, _, same, different, -⟩ := TreeShape.accepts_other accepted
    cases same
    simp at different

end ParseTree

/-! ### Conversion of arrows and states -/

theorem convert_returns {rule : Rule} {post : Term → Prop}
    (levels : ∀ levels, Returns reader (convertUpTo levels rule tree) post) :
    Returns reader (convert rule tree) post :=
  Returns.anything.bind fun _ _ => levels _

theorem convert_arrow (reader : Reader) (isArrow : tree.isArrow = true) :
    Returns reader (convert .arrow tree) (Mirrors reader tree) :=
  convert_returns fun levels => (draws_upTo reader levels _).arrow tree isArrow

theorem convert_state (reader : Reader) (isState : tree.isState = true) :
    Returns reader (convert .machineItem (.node (some "StateItem") [tree] fields))
      (MirrorsState reader tree) := by
  refine convert_returns fun levels => ?_
  cases levels with
  | zero =>
    intro s t s' ran
    cases ran
  | succ levels => exact state_returns isState

/-- Arrows, whatever their guards and actions are, mirror their trees if they are converted at all;
so do the transitions of states. The trees that the grammar describes are converted. -/
theorem transitions_mirror_trees (reader : Reader) (s : Reading) :
    (∀ tree : ParseTree, tree.isArrow = true →
      ∀ t s', perform (convert .arrow tree) reader s = (.ok t, s') → Mirrors reader tree t) ∧
    (∀ (tree : ParseTree) fields, tree.isState = true → ∀ t s',
      perform (convert .machineItem (.node (some "StateItem") [tree] fields)) reader s = (.ok t, s') →
        MirrorsState reader tree t) ∧
    (∀ tree : ParseTree, tree.describedBy .arrow = true →
      ∃ t, perform (convert .arrow tree) reader s = (.ok t, s) ∧ Mirrors reader tree t) ∧
    ∀ (tree : ParseTree) fields,
      (ParseTree.node (some "StateItem") [tree] fields).describedBy .machineItem = true →
        ∃ t, perform (convert .machineItem (.node (some "StateItem") [tree] fields)) reader s =
          (.ok t, s) ∧ MirrorsState reader tree t := by
  refine ⟨fun tree isArrow => convert_arrow reader isArrow s,
    fun tree fields isState => convert_state reader isState s, fun tree described => ?_,
    fun tree fields described => ?_⟩
  · obtain ⟨t, ran, -⟩ := convert_gives described reader s
    exact ⟨t, ran, convert_arrow reader (ParseTree.isArrow_of_described described) s t s ran⟩
  · obtain ⟨t, ran, -⟩ := convert_gives described reader s
    exact ⟨t, ran, convert_state reader (ParseTree.isState_of_described described) s t s ran⟩

def arrowTree (priority : Int) (guard : Option String) (rest : List (String × ParseTree)) : ParseTree :=
  let condition (name : String) : ParseTree :=
    .node (some "EId") [.list [.identifier (.text name) (.list [])]] []
  let guarded : Option ParseTree :=
    guard.map fun name => .present (.node (some "ExprWithSP") [condition name, .absent] [])
  .node none [] ([("APrio", .number priority), ("AIf", .truth guard.isSome),
    ("AGuard", guarded.getD .absent), ("AAction", .node (some "SDEmpty") [] [])] ++ rest)

def leadsTo (name : String) (resume : Bool) : List (String × ParseTree) :=
  [("AFork", .absent), ("ATarget", .identification (.text name) .absent), ("AIsResume", .truth resume)]

def forkingArrow : ParseTree :=
  let inner := .node (some "AForkTree") [arrowTree 0 (some "b") (leadsTo "B" true),
    .list [arrowTree 0 (some "c") (leadsTo "C" false)],
    .present (arrowTree 0 none (leadsTo "D" true))] []
  arrowTree 0 none [("AFork", .present (.node (some "AForkPrio")
    [.list [arrowTree 1 (some "a") [("AFork", .present inner)],
      arrowTree 2 none (leadsTo "E" false)]] []))]

def leavingState : ParseTree :=
  .node none [] [("StateId", .identification (.text "A") .absent),
    ("UntilTransitions", .list [forkingArrow]), ("UnlessTransitions",
      .list [arrowTree 0 (some "d") (leadsTo "E" true)]), ("StateIsInitial", .truth true),
    ("StateBody", .node (some "SDSections") [.list [], .absent] [])]

theorem forking_arrow_mirrors_tree :
    forkingArrow.isArrow = true ∧ leavingState.isState = true ∧
      (∃ t, perform (convert .arrow forkingArrow) Reader.none {} = (.ok t, {}) ∧
        Mirrors Reader.none forkingArrow t) ∧
      ∃ t, perform (convert .machineItem (.node (some "StateItem") [leavingState] [])) Reader.none
        {} = (.ok t, {}) ∧ MirrorsState Reader.none leavingState t := by
  obtain ⟨arrows, states, arrowsConvert, statesConvert⟩ := transitions_mirror_trees Reader.none {}
  have isArrow : forkingArrow.isArrow = true := by decide +kernel
  have isState : leavingState.isState = true := by decide +kernel
  obtain ⟨t, ran, -⟩ := arrowsConvert forkingArrow (by decide +kernel)
  obtain ⟨t', ran', -⟩ := statesConvert leavingState [] (by decide +kernel)
  exact ⟨isArrow, isState, ⟨t, ran, arrows forkingArrow isArrow t _ ran⟩, t', ran',
    states leavingState [] isState t' _ ran'⟩

end SwanModel
