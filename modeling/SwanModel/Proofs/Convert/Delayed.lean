import SwanModel.Proofs.Convert.Modules
import SwanModel.Proofs.Reading.History

/-!
# Operators wait for their bodies

An operator comes from a parser with its tree in the place of its body. The body itself is a
construct or nothing.
-/

namespace SwanModel

open SwanModel.Convert

variable {α : Type} {reader : Reader} {s s' : Reading} {tree : ParseTree} {t : Term}

def Form.hasOperators : Form → Bool
  | .decl .operator | .module .body | .module .interface => true
  | _ => false

/-- Nothing or a construct that is no module; an operator has its tree in the place of its body. -/
inductive Term.Waits : Term → Prop
  | absent : Waits .absent
  | operator {parts : List Term} {tree : ParseTree}
    (body : parts[Operator.bodyIndex]? = some (.raw tree)) : Waits (.node (.decl .operator) parts)
  | other {form : Form} {parts : List Term} (simple : form.hasOperators = false) :
    Waits (.node form parts)

theorem Term.Waits.absent_or_construct (waits : t.Waits) :
    t = .absent ∨ ∃ form parts, t = .node form parts := by
  cases waits with
  | absent => exact .inl rfl
  | operator => exact .inr ⟨_, _, rfl⟩
  | other => exact .inr ⟨_, _, rfl⟩

/-- A conversion that leaves the bodies of operators for later. -/
class DelaysBodies (x : Conversion Term) : Prop where
  result : ∀ {reader s t s'}, perform x reader s = (.ok t, s') → t.Waits

namespace DelaysBodies

instance : DelaysBodies (pure .absent) where
  result h := by
    cases h
    exact .absent

instance (e : Error) : DelaysBodies (throw e) where
  result h := by cases h

theorem after {x : Conversion α} {f : α → Conversion Term} (rest : ∀ a, DelaysBodies (f a)) :
    DelaysBodies (x >>= f) where
  result h := by
    obtain ⟨a, _, _, h⟩ := bind_ok h
    exact (rest a).result h

instance (x : Conversion α) (f : α → Conversion Term) [∀ a, DelaysBodies (f a)] :
    DelaysBodies (x >>= f) :=
  after inferInstance

instance (c : Prop) [Decidable c] (x y : Conversion Term) [DelaysBodies x] [DelaysBodies y] :
    DelaysBodies (if c then x else y) := by
  split <;> assumption

theorem make {form : Form} (simple : form.hasOperators = false) (args : List Term) :
    DelaysBodies (make form args) where
  result h := by
    obtain ⟨_, -, rfl⟩ := make_ok h
    exact .other simple

instance (form : ExprForm) (args : List Term) : DelaysBodies (Convert.make (.expr form) args) :=
  make rfl args

instance (form : EquationForm) (args : List Term) :
    DelaysBodies (Convert.make (.equation form) args) := make rfl args

instance (form : OperatorForm) (args : List Term) :
    DelaysBodies (Convert.make (.operator form) args) := make rfl args

instance (form : SectionForm) (args : List Term) : DelaysBodies (Convert.make (.scope form) args) :=
  make rfl args

instance (form : DiagramForm) (args : List Term) :
    DelaysBodies (Convert.make (.diagram form) args) := make rfl args

end DelaysBodies

/-! ### Conversions without operators -/

instance (tree : ParseTree) : DelaysBodies (port tree) := by
  refine .after fun _ => ?_
  split <;> infer_instance

instance (kind : LiteralKind) (value : Term) : DelaysBodies (literal kind value) := by
  unfold literal; infer_instance

instance (op : Term) (tree : ParseTree) : DelaysBodies (iterator op tree) := by
  refine .after fun _ => ?_
  split <;> infer_instance

instance (sizes : Term) (tree : ParseTree) : DelaysBodies (primitive sizes tree) := by
  refine .after fun _ => ?_
  split <;> infer_instance

section
variable (self : Convert) (tree : ParseTree)

instance : DelaysBodies (projection self tree) := by
  refine .after fun _ => .after fun _ => .after fun _ => .after fun _ => ?_
  split <;> infer_instance

instance : DelaysBodies (operation self tree) := by unfold operation; infer_instance

instance (form : ExprForm) : DelaysBodies (twoParts self form tree) := by unfold twoParts; infer_instance

instance (form : ExprForm) : DelaysBodies (threeParts self form tree) := by
  unfold threeParts; infer_instance

instance : DelaysBodies (forward self tree) := by unfold forward; infer_instance

instance : DelaysBodies (operatorExpr self tree) := by
  refine .after fun _ => ?_
  split
  case h_8 =>
    refine .after fun _ => .after fun _ => ?_
    split <;> infer_instance
  all_goals infer_instance

instance (lhs : Term) : DelaysBodies (machine self lhs tree) := by unfold machine; infer_instance

instance (lhs : Term) : DelaysBodies (activateIf self lhs tree) := by unfold activateIf; infer_instance

instance (lhs : Term) : DelaysBodies (activateWhen self lhs tree) := by
  unfold activateWhen; infer_instance

instance : DelaysBodies (equation self tree) := by
  refine .after fun _ => ?_
  split
  case h_3 =>
    refine .after fun _ => .after fun _ => .after fun _ => .after fun _ => ?_
    split <;> infer_instance
  all_goals infer_instance

instance : DelaysBodies (scopeSection self tree) := by
  refine .after fun _ => ?_
  split <;> infer_instance

instance : DelaysBodies (userOperator self tree) := by
  refine .after fun parts => ⟨fun h => ?_⟩
  obtain ⟨_, filled, rfl⟩ := make_ok h
  cases filled
  exact .operator rfl

end

def Rule.isConstruct : Rule → Bool
  | .expr | .forward | .operator | .operatorExpr | .operatorBlock | .equation | .scope | .scopeSection
  | .userOperator | .operatorBody | .declaration => true
  | _ => false

section
variable {self : Convert} (delays : ∀ rule tree, rule.isConstruct = true → DelaysBodies (self rule tree))
  (tree : ParseTree)
include delays

theorem expr_delays : DelaysBodies (expr self tree) := by
  have forward : ∀ tree, DelaysBodies (self .forward tree) := fun tree => delays _ tree rfl
  refine .after fun _ => ?_
  split <;> infer_instance

theorem protectedOperator_delays (sizes : Term) : DelaysBodies (protectedOperator self sizes tree) := by
  have block : ∀ tree, DelaysBodies (self .operatorBlock tree) := fun tree => delays _ tree rfl
  refine .after fun _ => .after fun _ => ?_
  split
  · rw [readAgain_eq]
    infer_instance
  · infer_instance
  · infer_instance

theorem operator_delays : DelaysBodies (operator self tree) := by
  have kept := protectedOperator_delays delays
  refine .after fun _ => .after fun sizes => .after fun _ => .after fun _ => .after fun _ =>
    .after fun _ => ?_
  split
  case h_3 => exact .after fun tree => kept tree sizes
  case h_4 => exact .after fun tree => kept tree sizes
  all_goals infer_instance

theorem operatorBlock_delays : DelaysBodies (operatorBlock self tree) := by
  have operator : ∀ tree, DelaysBodies (self .operator tree) := fun tree => delays _ tree rfl
  have expression : ∀ tree, DelaysBodies (self .operatorExpr tree) := fun tree => delays _ tree rfl
  refine .after fun _ => .after fun _ => ?_
  split
  · infer_instance
  · unfold locatedOperatorExpr
    infer_instance

theorem scope_delays : DelaysBodies (scope self tree) := by
  have equation : ∀ tree, DelaysBodies (self .equation tree) := fun tree => delays _ tree rfl
  refine .after fun _ => ?_
  split <;> infer_instance

theorem declaration_delays : DelaysBodies (declaration self tree) := by
  have operator : ∀ tree, DelaysBodies (self .userOperator tree) := fun tree => delays _ tree rfl
  have block : ∀ {form : ModuleForm} (_ : (Form.module form).hasOperators = false)
      (convert : ParseTree → Conversion Term),
      DelaysBodies (do make (.module form) [← each convert (← itemAt 1 tree)]) :=
    fun simple _ => .after fun _ => .after fun _ => .make simple _
  refine .after fun _ => ?_
  split
  · exact block rfl _
  · exact block rfl _
  · infer_instance
  · refine .after fun _ => .after fun _ => .after fun _ => ?_
    split
    · rw [readAgain_eq]
      infer_instance
    · exact .make rfl _
  · exact block rfl _
  · exact .after fun _ => .after fun _ => .make rfl _
  · exact block rfl _
  · exact .after fun _ => .after fun _ => .after fun _ => .after fun _ => .after fun _ => .make rfl _
  · infer_instance

end

theorem convertUpTo_delays (levels : Nat) (rule : Rule) (tree : ParseTree)
    (construct : rule.isConstruct = true) : DelaysBodies (convertUpTo levels rule tree) := by
  induction levels generalizing rule tree with
  | zero => exact inferInstanceAs (DelaysBodies (throw .tooDeep))
  | succ levels ih =>
    change DelaysBodies (step (convertUpTo levels) rule tree)
    cases rule with
    | expr => exact expr_delays ih tree
    | forward => exact inferInstanceAs (DelaysBodies (forward _ tree))
    | operator => exact operator_delays ih tree
    | operatorExpr => exact inferInstanceAs (DelaysBodies (operatorExpr _ tree))
    | operatorBlock => exact operatorBlock_delays ih tree
    | equation => exact inferInstanceAs (DelaysBodies (equation _ tree))
    | scope => exact scope_delays ih tree
    | scopeSection => exact inferInstanceAs (DelaysBodies (scopeSection _ tree))
    | userOperator => exact inferInstanceAs (DelaysBodies (userOperator _ tree))
    | operatorBody => exact .after fun tree => ih .scope tree rfl
    | declaration => exact declaration_delays ih tree
    | _ => cases construct

theorem convert_delays (rule : Rule) (tree : ParseTree) (construct : rule.isConstruct = true) :
    DelaysBodies (convert rule tree) :=
  .after fun reader => convertUpTo_delays (levelsFor reader tree) rule tree construct

/-! ### Calls of parsers -/

/-- What a parser gives: a construct that waits, or a module of such. -/
inductive Term.Parsed : Term → Prop
  | construct {t : Term} (waits : t.Waits) : Parsed t
  | module {kind : ModuleKind} {id : Term} {uses others : List Term} (each : ∀ d ∈ others, d.Waits) :
      Parsed (.node (.module kind.form) [id, .list uses, .list others])

theorem Fragment.isConstruct (part : Fragment) : part.rule.isConstruct = true := by
  cases part <;> rfl

theorem Task.parse_parsed {parser : Nat} {task : Task} {source : Source}
    {result : Term × Option Information}
    (h : perform (task.parse parser source) reader s = (.ok result, s')) : result.1.Parsed := by
  cases task with
  | fragment part =>
    obtain ⟨t, _, parsed, h⟩ := bind_ok h
    cases h
    obtain ⟨tree, _, _, converted⟩ := bind_ok parsed
    exact .construct ((convert_delays part.rule tree part.isConstruct).result converted)
  | module kind =>
    obtain ⟨⟨t, information⟩, _, parsed, h⟩ := bind_ok h
    cases h
    obtain ⟨_, _, _, parsed⟩ := bind_ok parsed
    obtain ⟨_, _, _, parsed⟩ := bind_ok parsed
    obtain ⟨_, _, converted, parsed⟩ := bind_ok parsed
    obtain ⟨_, _, _, parsed⟩ := bind_ok parsed
    obtain ⟨_, _, _, parsed⟩ := bind_ok parsed
    cases parsed
    obtain ⟨id, uses, others, levels, rfl, -, declared⟩ := convertModule_ok converted
    refine .module fun d member => ?_
    obtain ⟨tree, _, _, found⟩ := declared d (List.mem_append_right uses member)
    exact (declaration_delays (convertUpTo_delays levels) tree).result found

end SwanModel
