import SwanModel.Proofs.Convert.Modules
import SwanModel.Proofs.Language.Grammar

/-!
# Conversions that never give nothing

A converter gives nothing for a tag which it does not know, and makes a construct for those that it
knows.
-/

namespace SwanModel

open SwanModel.Convert

/-- A conversion that gives something if it gives anything. -/
class NeverAbsent (x : Conversion Term) : Prop where
  given : ∀ t, CanGive x t → t.isAbsent = false

namespace NeverAbsent

section
variable {α : Type} {x : Conversion α} {f : α → Conversion Term}

theorem bind (rest : ∀ a, CanGive x a → NeverAbsent (f a)) : NeverAbsent (x >>= f) where
  given t := by
    rintro ⟨reader, s, s', ran⟩
    obtain ⟨a, s₁, first, ran⟩ := bind_ok ran
    exact (rest a ⟨reader, s, s₁, first⟩).given t ⟨reader, s₁, s', ran⟩

theorem after (rest : ∀ a, NeverAbsent (f a)) : NeverAbsent (x >>= f) := bind fun a _ => rest a

instance [rest : ∀ a, NeverAbsent (f a)] : NeverAbsent (x >>= f) := after rest

end

instance (form : Form) (args : List Term) : NeverAbsent (make form args) where
  given t := by
    rintro ⟨reader, s, s', ran⟩
    obtain ⟨_, -, rfl⟩ := make_ok ran
    rfl

instance (e : Error) : NeverAbsent (throw e) where
  given t := by
    rintro ⟨reader, s, s', ran⟩
    cases ran

instance (c : Prop) [Decidable c] (x y : Conversion Term) [NeverAbsent x] [NeverAbsent y] :
    NeverAbsent (if c then x else y) := by
  split <;> assumption

/-! ### Expressions -/

variable {self : Convert} {tree : ParseTree} {levels : Nat}

instance (form : ExprForm) : NeverAbsent (twoParts self form tree) := by unfold twoParts; infer_instance

instance (form : ExprForm) : NeverAbsent (threeParts self form tree) := by
  unfold threeParts; infer_instance

instance (kind : LiteralKind) (value : Term) : NeverAbsent (literal kind value) := by
  unfold literal; infer_instance

instance : NeverAbsent (projection self tree) := by
  refine after fun _ => after fun _ => after fun _ => after fun _ => ?_
  split <;> infer_instance

instance : NeverAbsent (operation self tree) := by unfold operation; infer_instance

instance : NeverAbsent (port tree) := by
  refine after fun _ => ?_
  split <;> infer_instance

instance : NeverAbsent (forward self tree) := by unfold forward; infer_instance

instance : NeverAbsent (convertUpTo levels .forward tree) := by
  cases levels <;> rw [convertUpTo]
  · infer_instance
  · exact inferInstanceAs (NeverAbsent (forward _ _))

/-! ### Equations -/

instance {lhs : Term} : NeverAbsent (machine self lhs tree) := by unfold machine; infer_instance

instance {lhs : Term} : NeverAbsent (activateIf self lhs tree) := by unfold activateIf; infer_instance

instance {lhs : Term} : NeverAbsent (activateWhen self lhs tree) := by
  unfold activateWhen; infer_instance

instance : NeverAbsent (equation self tree) := by
  refine after fun _ => ?_
  split
  · infer_instance
  · infer_instance
  · refine after fun _ => after fun _ => after fun _ => after fun _ => ?_
    split <;> infer_instance

end NeverAbsent

/-! ### Tags -/

def ParseTree.exprTags : List String :=
  ["EId", "ELast", "EBoolLiteral", "ECharLiteral", "ENumLiteral", "EUnaryOp", "EBinaryOp",
    "EWhenClock", "EWhenMatch", "ECast", "EGroup", "EGroupAdapt", "EStaticProj", "EMkGroup",
    "ESlice", "EDynProj", "EMkArray", "EMkArrayGroup", "EMkStruct", "EVariant", "EMkCopy", "EIfte",
      "ECase", "EOpCall", "EPort", "EForward", "EWindow", "EMerge"]

namespace NeverAbsent

variable {tree : ParseTree} {levels : Nat}

theorem expr (tagged : tree.isTagged ParseTree.exprTags = true) :
    NeverAbsent (convertUpTo levels .expr tree) := by
  cases levels with
  | zero =>
    rw [convertUpTo]
    infer_instance
  | succ levels =>
    refine bind (x := Convert.tag tree) fun name asked => ?_
    obtain ⟨reader, s, s', asked⟩ := asked
    obtain ⟨tag, _, _, rfl, known⟩ := ParseTree.isTagged_cases tagged
    obtain rfl : tag = name := by
      cases asked
      rfl
    split
    case h_29 => simp_all [ParseTree.exprTags]
    all_goals infer_instance

end NeverAbsent

end SwanModel
