import SwanModel.Proofs.Convert.Made

/-!
# How conversions are composed

Besides giving a value and failing, a converter can ask how deep the trees of its reader are and
read a text again. What holds of these steps and of sequences of them holds of every conversion.
-/

namespace SwanModel

variable {α β : Type} [Carrier α] [Carrier β]

/-- Reads a text as part of the source that was read last, by the parser that read it. -/
def reread (rule : ReadRule) (text : Term) : Conversion ParseTree := do
  let name ← currentSource
  let code ← Convert.ofExcept text.print
  readSource (← currentParser) rule (Source.ofText code name)

def readerDepth : Conversion Nat := do return (← read).depth

def CanGive {α : Type} (x : Conversion α) (a : α) : Prop := ∃ reader s t, perform x reader s = (.ok a, t)

/-- Conversions that are sequences of the basic steps of converters. -/
class inductive Silent : {α : Type} → [Carrier α] → Conversion α → Prop
  | pure {α : Type} [Carrier α] {a : α} (made : Carrier.Made a) : Silent (pure a : Conversion α)
  | throw {α : Type} [Carrier α] (e : Error) : Silent (throw e : Conversion α)
  | depth : Silent readerDepth
  | again (rule : ReadRule) (text : Term) : Silent (reread rule text)
  | bind {α β : Type} [Carrier α] [Carrier β] {x : Conversion α} {f : α → Conversion β} :
    Silent x → (∀ a, CanGive x a → Silent (f a)) → Silent (x >>= f)

/-- Conversions that are sequences of the basic steps. -/
class inductive Composed : {α : Type} → [Carrier α] → Conversion α → Prop
  | pure {α : Type} [Carrier α] {a : α} (made : Carrier.Made a) : Composed (pure a : Conversion α)
  | throw {α : Type} [Carrier α] (e : Error) : Composed (throw e : Conversion α)
  | reader : Composed (read : Conversion Reader)
  | again (rule : ReadRule) (text : Term) : Composed (reread rule text)
  | log (message : String) : Composed (logLoader message)
  | bind {α β : Type} [Carrier α] [Carrier β] {x : Conversion α} {f : α → Conversion β} :
    Composed x → (∀ a, CanGive x a → Composed (f a)) → Composed (x >>= f)

-- Some converters are sequences of more than ten steps.
set_option synthInstance.maxSize 4096

namespace Composed

theorem made {x : Conversion α} (composed : Composed x) {a : α} (given : CanGive x a) :
    Carrier.Made a := by
  induction composed with
  | pure made =>
    obtain ⟨_, _, _, ran⟩ := given
    cases ran
    exact made
  | throw e =>
    obtain ⟨_, _, _, ran⟩ := given
    cases ran
  | reader => exact trivial
  | again rule text => exact trivial
  | log message => exact trivial
  | bind _ _ _ rest =>
    obtain ⟨reader, _, _, ran⟩ := given
    obtain ⟨b, _, gave, ran⟩ := bind_ok ran
    exact rest b ⟨reader, _, _, gave⟩ ⟨reader, _, _, ran⟩

attribute [instance] log

theorem before {x : Conversion α} {f : α → Conversion β} (first : Composed x)
    (rest : ∀ a, [IsMade a] → Composed (f a)) : Composed (x >>= f) :=
  .bind first fun a given => @rest a ⟨first.made given⟩

-- Instance search does not use the hypotheses of a goal, so what is known comes with the value.
instance (x : Conversion α) (f : α → Conversion β) [first : Composed x]
    [rest : ∀ a : {a : α // Carrier.Made a}, Composed (f a.val)] : Composed (x >>= f) :=
  .bind first fun a given => rest ⟨a, first.made given⟩

end Composed

namespace Silent

instance composed (x : Conversion α) [silent : Silent x] : Composed x := by
  induction silent with
  | pure made => exact .pure made
  | throw e => exact .throw e
  | depth => exact .bind .reader fun _ _ => .pure trivial
  | again rule text => exact .again rule text
  | bind _ _ first rest => exact .bind first rest

attribute [instance] Silent.throw depth again

instance (a : α) [made : IsMade a] : Silent (Pure.pure a : Conversion α) := .pure made.made

theorem before {x : Conversion α} {f : α → Conversion β} (first : Silent x)
    (rest : ∀ a, [IsMade a] → Silent (f a)) : Silent (x >>= f) :=
  .bind first fun a given => @rest a ⟨(composed x).made given⟩

instance (x : Conversion α) (f : α → Conversion β) [first : Silent x]
    [rest : ∀ a : {a : α // Carrier.Made a}, Silent (f a.val)] : Silent (x >>= f) :=
  .bind first fun a given => rest ⟨a, (composed x).made given⟩

instance (c : Prop) [Decidable c] (x y : Conversion α) [Silent x] [Silent y] :
    Silent (if c then x else y) := by
  split <;> assumption

theorem ofExcept {x : Except Error α} (made : ∀ a, x = .ok a → Carrier.Made a) :
    Silent (Convert.ofExcept x) := by
  cases x with
  | ok a => exact .pure (made a rfl)
  | error e => exact .throw e

instance {γ : Type} [Termless γ] (x : Except Error γ) : Silent (Convert.ofExcept x) :=
  ofExcept fun _ _ => trivial

instance (t : Term) [made : IsMade t] : Silent (Convert.ofExcept t.valueMember) :=
  ofExcept fun _ given => valueMember_made given made.made

instance {γ : Type} (xs : List γ) (f : γ → Conversion Term) [∀ a, Silent (f a)] :
    Silent (xs.mapM f) := by
  induction xs with
  | nil => rw [List.mapM_nil]; infer_instance
  | cons a rest ih => rw [List.mapM_cons]; infer_instance

theorem make {form : Form} {args : List Term} (takes : form.Takes args) (made : Term.AllMade args) :
    Silent (Convert.make form args) :=
  ofExcept fun _ built => build_made built takes made

instance (form : Form) (args : List Term) [free : Holds form.isFree] [made : IsMade args] :
    Silent (Convert.make form args) :=
  make (.inl free.holds) made.made

instance (tree : ParseTree) : Silent (Convert.tag tree) := by unfold Convert.tag; infer_instance

instance (tree : ParseTree) : Silent (Convert.item tree) := by unfold Convert.item; infer_instance

instance (n : Nat) (tree : ParseTree) : Silent (Convert.itemAt n tree) := by
  unfold Convert.itemAt; infer_instance

instance (name : String) (tree : ParseTree) : Silent (Convert.field name tree) := by
  unfold Convert.field; infer_instance

section
variable (convert : ParseTree → Conversion Term) [∀ tree, Silent (convert tree)] (tree : ParseTree)

instance : Silent (Convert.each convert tree) := by unfold Convert.each; infer_instance

instance : Silent (Convert.optional convert tree) := by unfold Convert.optional; infer_instance

end

end Silent

namespace Convert

instance (table : List (String × Constant)) (tree : ParseTree) : Silent (constantOf table tree) := by
  unfold constantOf; infer_instance

/-! ### Names -/

section
variable (tree : ParseTree)

instance : Silent (option tree) := by unfold option; infer_instance

instance : Silent (markup tree) := by unfold markup; infer_instance

instance : Silent (protectedText tree) := by unfold protectedText; infer_instance

instance : Silent (protectedItem tree) := by unfold protectedItem; infer_instance

instance : Silent (identifier tree) := by unfold identifier; split <;> infer_instance

instance : Silent (path tree) := by unfold path; infer_instance

instance : Silent (pathOrText tree) := by
  refine .before inferInstance fun _ _ => ?_
  split <;> infer_instance

instance : Silent (locatedText tree) := by unfold locatedText; infer_instance

instance : Silent (instanceId tree) := by
  refine .before inferInstance fun _ _ => ?_
  split <;> infer_instance

instance : Silent (nameText tree) := by
  refine .before inferInstance fun _ made => ?_
  split
  · infer_instance
  · rename_i items
    have all : IsMade items := ⟨made.made.members⟩
    have rest : IsMade (items.drop 1) := all.subset (items.drop_subset 1)
    infer_instance
  · infer_instance

instance : Silent (nameIdentifier tree) := by unfold nameIdentifier; infer_instance

instance (text : Term) [IsMade text] : Silent (plainIdentifier text) := by
  unfold plainIdentifier; infer_instance

instance : Silent (luid tree) := by unfold luid; infer_instance

instance : Silent (identification tree) := by unfold identification; split <;> infer_instance

instance (name : String) : Silent (modulePath name) := by unfold modulePath; split <;> infer_instance

end

/-! ### Converters that call the converter of parts -/

theorem readAgain_eq (self : Convert) (rule : ReadRule) (goal : Rule) (text : Term) :
    readAgain self rule goal text = reread rule text >>= self goal := by
  simp only [readAgain, reread, bind_assoc]

section
variable (self : Convert) [∀ rule tree, Silent (self rule tree)] (tree : ParseTree)

instance : Silent (predefinedType tree) := by unfold predefinedType; infer_instance

instance : Silent (numericKind tree) := by unfold numericKind; infer_instance

instance : Silent (structField self tree) := by unfold structField; infer_instance

instance : Silent (type self tree) := by
  refine .before inferInstance fun _ _ => ?_
  split <;> infer_instance

instance : Silent (typeOrText self tree) := by
  refine .before inferInstance fun _ _ => ?_
  split <;> infer_instance

instance : Silent (namedGroupType self tree) := by unfold namedGroupType; infer_instance

instance : Silent (groupType self tree) := by
  refine .before inferInstance fun _ _ => ?_
  split <;> infer_instance

instance : Silent (variantCase self tree) := by unfold variantCase; infer_instance

instance : Silent (exprOrText self tree) := by
  refine .before inferInstance fun _ _ => ?_
  split <;> infer_instance

instance : Silent (labelOrIndex self tree) := by
  refine .before inferInstance fun _ _ => ?_
  split <;> infer_instance

instance : Silent (groupItem self tree) := by
  refine .before inferInstance fun _ _ => ?_
  split <;> infer_instance

instance : Silent (group self tree) := by unfold group; infer_instance

instance : Silent (modifier self tree) := by
  refine .before inferInstance fun _ _ => .before inferInstance fun _ _ =>
    .before inferInstance fun _ _ => ?_
  split <;> infer_instance

instance : Silent (readPattern tree) := by
  refine .before inferInstance fun _ _ => ?_
  split <;> infer_instance

instance : Silent (pattern tree) := by
  refine .before inferInstance fun _ _ => ?_
  split <;> infer_instance

instance : Silent (caseBranch self tree) := by unfold caseBranch; infer_instance

instance : Silent (caseBranches self tree) := by unfold caseBranches; infer_instance

instance : Silent (groupRenaming tree) := by
  refine .before inferInstance fun _ _ => ?_
  split <;> infer_instance

instance : Silent (adaptation tree) := by unfold adaptation; infer_instance

instance : Silent (clock tree) := by
  refine .before inferInstance fun _ _ => ?_
  split <;> infer_instance

instance : Silent (port tree) := by
  refine .before inferInstance fun _ _ => ?_
  split <;> infer_instance

instance : Silent (projection self tree) := by
  refine .before inferInstance fun _ _ => .before inferInstance fun _ _ =>
    .before inferInstance fun _ _ =>
    .before inferInstance fun _ _ => ?_
  split <;> infer_instance

instance : Silent (operation self tree) := by unfold operation; infer_instance

instance (form : ExprForm) : Silent (twoParts self form tree) := by unfold twoParts; infer_instance

instance (form : ExprForm) : Silent (threeParts self form tree) := by unfold threeParts; infer_instance

instance (kind : LiteralKind) (value : Term) [IsMade value] : Silent (literal kind value) := by
  unfold literal; infer_instance

instance : Silent (expr self tree) := by
  refine .before inferInstance fun _ _ => ?_
  split <;> infer_instance

instance (rule : ReadRule) (goal : Rule) (text : Term) : Silent (readAgain self rule goal text) := by
  rw [readAgain_eq]; infer_instance

instance : Silent (transposeIndex tree) := by unfold transposeIndex; split <;> infer_instance

instance : Silent (transposeIndices tree) := by
  refine .before inferInstance fun _ _ => ?_
  split <;> infer_instance

instance (sizes : Term) [IsMade sizes] : Silent (primitive sizes tree) := by
  refine .before inferInstance fun _ _ => ?_
  split <;> infer_instance

instance (sizes : Term) [IsMade sizes] : Silent (protectedOperator self sizes tree) := by
  refine .before inferInstance fun _ _ => .before inferInstance fun _ _ => ?_
  split <;> infer_instance

instance : Silent (locatedOperatorExpr self tree) := by unfold locatedOperatorExpr; infer_instance

instance (sizes marks : Term) [IsMade sizes] [IsMade marks] :
    Silent (operatorCall self sizes marks tree) := by
  refine .before inferInstance fun _ _ => ?_
  split <;> infer_instance

instance : Silent (pragmas tree) := by unfold pragmas; infer_instance

instance : Silent (operator self tree) := by unfold operator; infer_instance

instance (op : Term) [IsMade op] : Silent (iterator op tree) := by
  refine .before inferInstance fun _ _ => ?_
  split <;> infer_instance

instance : Silent (optionalItem self tree) := by
  refine .before inferInstance fun _ _ => ?_
  split <;> infer_instance

instance : Silent (operatorExpr self tree) := by
  refine .before inferInstance fun _ _ => ?_
  split
  case h_8 =>
    refine .before inferInstance fun _ _ => .before inferInstance fun _ _ => ?_
    split <;> infer_instance
  all_goals infer_instance

instance : Silent (operatorBlock self tree) := by
  refine .before inferInstance fun _ _ => .before inferInstance fun _ _ => ?_
  split <;> infer_instance

instance : Silent (blockParts self tree) := by unfold blockParts; infer_instance

instance : Silent (instanceBlock self tree) := by unfold instanceBlock; infer_instance

instance : Silent (forwardLeft self tree) := by
  refine .before inferInstance fun _ _ => ?_
  split <;> infer_instance

instance : Silent (forwardElement self tree) := by unfold forwardElement; infer_instance

instance : Silent (dimension self tree) := by
  refine .before inferInstance fun _ _ => ?_
  split <;> infer_instance

instance : Silent (forwardBody self tree) := by
  refine .before inferInstance fun _ _ => .before inferInstance fun _ _ =>
    .before inferInstance fun _ _ =>
    .before inferInstance fun _ _ => ?_
  split <;> infer_instance

instance : Silent (lastDefault self tree) := by
  refine .before inferInstance fun _ _ => ?_
  split <;> infer_instance

instance : Silent (itemClause self tree) := by unfold itemClause; infer_instance

instance : Silent (arrayClause self tree) := by
  refine .before inferInstance fun _ _ => ?_
  split <;> infer_instance

instance : Silent (forwardReturn self tree) := by
  refine .before inferInstance fun _ _ => ?_
  split <;> infer_instance

instance : Silent (forwardState tree) := by
  refine .before inferInstance fun _ _ => ?_
  split <;> infer_instance

instance : Silent (forward self tree) := by unfold forward; infer_instance

instance : Silent (leftItem tree) := by
  refine .before inferInstance fun _ _ => ?_
  split <;> infer_instance

instance : Silent (left tree) := by
  refine .before inferInstance fun _ _ => ?_
  split <;> infer_instance

instance : Silent (branch self tree) := by
  refine .before inferInstance fun _ _ => ?_
  split <;> infer_instance

instance : Silent (activationBranch self tree) := by unfold activationBranch; infer_instance

omit [∀ rule tree, Silent (self rule tree)] in
theorem activationBranch_gives {t : Term} (given : CanGive (activationBranch self tree) t) :
    ∃ condition body, t = Activation.branch condition body := by
  obtain ⟨_, _, _, ran⟩ := given
  obtain ⟨_, _, _, ran⟩ := bind_ok ran
  obtain ⟨condition, _, _, ran⟩ := bind_ok ran
  obtain ⟨_, _, _, ran⟩ := bind_ok ran
  obtain ⟨body, _, _, ran⟩ := bind_ok ran
  cases ran
  exact ⟨condition, body, rfl⟩

instance : Silent (ifActivation self tree) := by
  refine .before inferInstance fun _ _ => .before inferInstance fun trees _ => ?_
  refine .bind inferInstance fun branches given => ?_
  have made : IsMade branches := ⟨Composed.made inferInstance given⟩
  have guarded : ∀ t ∈ branches, ∃ condition body, t = Activation.branch condition body := by
    intro t inside
    obtain ⟨reader, _, _, ran⟩ := given
    obtain ⟨tree, -, s, s', ran⟩ := mapM_ok ran t inside
    exact activationBranch_gives self tree ⟨reader, s, s', ran⟩
  refine .before inferInstance fun _ _ => .before inferInstance fun body _ =>
    .bind inferInstance fun last given => ?_
  have lastMade : IsMade last := ⟨Composed.made inferInstance given⟩
  have list : IsMade [Term.list (branches ++ [last])] := inferInstance
  have isOpen : last = Activation.branch .absent body := by
    obtain ⟨_, _, _, ran⟩ := given
    cases ran
    rfl
  exact .make (.inr ⟨branches, body, by rw [isOpen]; rfl, guarded⟩) list.made

instance (lhs : Term) [IsMade lhs] : Silent (activateIf self lhs tree) := by
  unfold activateIf; infer_instance

instance : Silent (whenBranch self tree) := by unfold whenBranch; infer_instance

instance (lhs : Term) [IsMade lhs] : Silent (activateWhen self lhs tree) := by
  unfold activateWhen; infer_instance

instance (arrow priorityFork : ParseTree → Conversion Term) [∀ tree, Silent (arrow tree)]
    [∀ tree, Silent (priorityFork tree)] : Silent (fork arrow priorityFork tree) := by
  refine .before inferInstance fun _ _ => ?_
  split <;> infer_instance

instance : Silent (target tree) := by unfold target; infer_instance

instance : Silent (arrowParts self tree) := by unfold arrowParts; infer_instance

instance : Silent (arrow self tree) := by unfold arrow; infer_instance

instance : Silent (priorityFork self tree) := by unfold priorityFork; infer_instance

instance : Silent (transition self tree) := by unfold transition; infer_instance

instance : Silent (stateBody self tree) := by unfold stateBody; infer_instance

instance : Silent (state self tree) := by unfold state; infer_instance

instance : Silent (transitionDecl self tree) := by unfold transitionDecl; infer_instance

instance : Silent (machineItem self tree) := by
  refine .before inferInstance fun _ _ => ?_
  split <;> infer_instance

instance (lhs : Term) [IsMade lhs] : Silent (machine self lhs tree) := by unfold machine; infer_instance

instance : Silent (equation self tree) := by
  refine .before inferInstance fun _ _ => ?_
  split
  case h_3 =>
    refine .before inferInstance fun _ _ => .before inferInstance fun _ _ =>
      .before inferInstance fun _ _ =>
      .before inferInstance fun _ _ => ?_
    split <;> infer_instance
  all_goals infer_instance

instance : Silent (connection tree) := by
  refine .before inferInstance fun _ _ => ?_
  split <;> infer_instance

instance : Silent (groupOperation tree) := by
  refine .before inferInstance fun _ _ => ?_
  split <;> infer_instance

instance (luid locals : Term) [IsMade luid] [IsMade locals] :
    Silent (described self luid locals tree) := by
  refine .before inferInstance fun _ _ => ?_
  split <;> infer_instance

instance : Silent (object self tree) := by unfold object; infer_instance

instance : Silent (emission self tree) := by unfold emission; infer_instance

instance : Silent (formalProperty self tree) := by unfold formalProperty; infer_instance

instance : Silent (scopeSection self tree) := by
  refine .before inferInstance fun _ _ => ?_
  split <;> infer_instance

instance : Silent (scope self tree) := by
  refine .before inferInstance fun _ _ => ?_
  split <;> infer_instance

instance : Silent (constant self tree) := by unfold constant; infer_instance

instance : Silent (sensor self tree) := by unfold sensor; infer_instance

instance : Silent (typeDecl self tree) := by
  refine .before inferInstance fun _ _ => .before inferInstance fun _ _ =>
    .before inferInstance fun _ _ =>
    .before inferInstance fun _ _ => ?_
  split <;> infer_instance

instance : Silent (use tree) := by unfold use; infer_instance

instance : Silent (groupDecl self tree) := by unfold groupDecl; infer_instance

instance : Silent (constraint self tree) := by
  refine .before inferInstance fun _ _ => .before inferInstance fun _ _ =>
    .before inferInstance fun _ _ => ?_
  split <;> infer_instance

instance : Silent (flow self tree) := by
  refine .before inferInstance fun _ _ => ?_
  split
  · infer_instance
  · refine .before inferInstance fun _ _ => .before inferInstance fun _ _ =>
      .before inferInstance fun _ _ => ?_
    infer_instance

instance : Silent (signatureParts self tree) := by
  refine .before inferInstance fun _ _ => .before inferInstance fun _ _ =>
    .before inferInstance fun _ _ =>
    .before inferInstance fun _ _ => .before inferInstance fun _ _ => .before inferInstance fun _ _ => ?_
  infer_instance

instance : Silent (signatureElements self tree) := by unfold signatureElements; infer_instance

instance : Silent (signature self tree) := by unfold signature; infer_instance

instance : Silent (userOperator self tree) := by unfold userOperator; infer_instance

instance : Silent (operatorBody self tree) := by unfold operatorBody; infer_instance

instance : Silent (protectedDeclaration self tree) := by
  refine .before inferInstance fun _ _ => .before inferInstance fun _ _ => ?_
  split <;> infer_instance

instance : Silent (declaration self tree) := by
  refine .before inferInstance fun _ _ => ?_
  split <;> infer_instance

instance : Silent (declarationParts self tree) := by unfold declarationParts; infer_instance

instance : Silent (declarations self tree) := by unfold declarations; infer_instance

instance (form : ModuleForm) (name : String) : Silent (module self form name tree) := by
  unfold module; infer_instance

/-- The converter of a rule is composed if the converter of parts is. -/
instance (rule : Rule) : Silent (step self rule tree) := by
  cases rule <;> unfold step <;> infer_instance

end

end Convert

instance (levels : Nat) (rule : Rule) (tree : ParseTree) : Silent (convertUpTo levels rule tree) := by
  induction levels generalizing rule tree with
  | zero => exact .throw .tooDeep
  | succ levels ih => exact inferInstanceAs (Silent (Convert.step (convertUpTo levels) rule tree))

instance (rule : Rule) (tree : ParseTree) : Silent (convert rule tree) :=
  inferInstanceAs (Silent (readerDepth >>= fun depth =>
    convertUpTo (3 * (tree.height + depth) + 3) rule tree))

instance (form : ModuleForm) (name : String) (tree : ParseTree) :
    Silent (convertModule form name tree) :=
  inferInstanceAs (Silent (readerDepth >>= fun depth =>
    Convert.module (convertUpTo (3 * (tree.height + depth) + 3)) form name tree))

instance (tree : ParseTree) : Composed (informationValue tree) := by
  unfold informationValue
  split
  case h_2 => split <;> infer_instance
  all_goals infer_instance

instance (tree : ParseTree) : Composed (informationOf tree) := by
  refine .before inferInstance fun _ _ => ?_
  split <;> infer_instance

end SwanModel
