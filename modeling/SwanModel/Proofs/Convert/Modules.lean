import SwanModel.Proofs.Convert.Repeated

/-!
# What modules are made of

A module that is parsed has a list of declarations, and a block of declarations has a list of
members.
-/

namespace SwanModel

open SwanModel.Convert

variable {kind : ModuleKind} {form : Form} {args : List Term}

variable {self : Convert} {reader : Reader} {s s' : Reading} {tree : ParseTree} {t : Term}

theorem allBut_nil (args : List Term) : (Filling.allBut [] args).map (Filling.term args) = args := by
  simp only [Filling.allBut, List.contains_nil, Bool.false_eq_true, if_false, List.map_map]
  refine List.ext_getElem (by simp) fun i _ inside => ?_
  simp [Filling.term, partAt, inside]

theorem make_ok (h : perform (make form args) reader s = (.ok t, s')) :
    ∃ fillings, form.fill args = .ok fillings ∧ t = .node form (fillings.map (Filling.term args)) := by
  obtain ⟨built, -⟩ := ofExcept_ok h
  obtain ⟨fillings, filled, made, -⟩ := build_ok built
  exact ⟨fillings, filled, made⟩

theorem make_ok_plain (plain : form.fill args = .ok (Filling.allBut [] args))
    (h : perform (make form args) reader s = (.ok t, s')) : t = .node form args := by
  obtain ⟨fillings, filled, rfl⟩ := make_ok h
  rw [plain] at filled
  cases filled
  rw [allBut_nil]

def ModuleForm.isBlock : ModuleForm → Bool
  | .types | .constants | .sensors | .groups => true
  | _ => false

/-- Whether a term is a construct, and one with a list of members if it is a block. -/
def Term.isDeclaration : Term → Bool
  | .node (.module form) parts => !form.isBlock || match parts with
    | [.list _] => true
    | _ => false
  | .node _ _ => true
  | _ => false

theorem each_ok {convert : ParseTree → Conversion Term}
    (h : perform (each convert tree) reader s = (.ok t, s')) : ∃ items, t = .list items := by
  obtain ⟨trees, _, _, h⟩ := bind_ok h
  obtain ⟨items, _, _, h⟩ := bind_ok h
  cases h
  exact ⟨items, rfl⟩

theorem block_isDeclaration {convert : ParseTree → Conversion Term} {form : ModuleForm}
    (plain : ∀ args, (Form.module form).fill args = .ok (Filling.allBut [] args))
    (h : perform (do make (.module form) [← each convert (← itemAt 1 tree)]) reader s = (.ok t, s')) :
    t.isDeclaration = true := by
  obtain ⟨_, _, _, h⟩ := bind_ok h
  obtain ⟨_, _, members, h⟩ := bind_ok h
  obtain ⟨items, rfl⟩ := each_ok members
  rw [make_ok_plain (plain _) h]
  simp [Term.isDeclaration]

theorem make_isDeclaration (other : ∀ parts, (Term.node form parts).isDeclaration = true)
    (h : perform (make form args) reader s = (.ok t, s')) : t.isDeclaration = true := by
  obtain ⟨_, -, rfl⟩ := make_ok h
  exact other _

theorem userOperator_isDeclaration (h : perform (userOperator self tree) reader s = (.ok t, s')) :
    t.isDeclaration = true := by
  obtain ⟨_, _, _, h⟩ := bind_ok h
  exact make_isDeclaration (fun _ => rfl) h

theorem convertUpTo_userOperator_isDeclaration {levels : Nat}
    (h : perform (convertUpTo levels .userOperator tree) reader s = (.ok t, s')) :
    t.isDeclaration = true := by
  cases levels with
  | zero => cases h
  | succ levels => exact userOperator_isDeclaration h

theorem declaration_isDeclaration {levels : Nat}
    (h : perform (declaration (convertUpTo levels) tree) reader s = (.ok t, s')) :
    t.isDeclaration = true := by
  obtain ⟨_, _, _, h⟩ := bind_ok h
  split at h
  · exact block_isDeclaration (fun _ => rfl) h
  · exact block_isDeclaration (fun _ => rfl) h
  · obtain ⟨_, _, _, h⟩ := bind_ok h
    exact userOperator_isDeclaration h
  · obtain ⟨_, _, _, h⟩ := bind_ok h
    obtain ⟨_, _, _, h⟩ := bind_ok h
    obtain ⟨_, _, _, h⟩ := bind_ok h
    split at h
    · rw [readAgain_eq] at h
      obtain ⟨_, _, _, h⟩ := bind_ok h
      exact convertUpTo_userOperator_isDeclaration h
    · exact make_isDeclaration (fun _ => rfl) h
  · exact block_isDeclaration (fun _ => rfl) h
  · obtain ⟨_, _, _, h⟩ := bind_ok h
    obtain ⟨_, _, _, h⟩ := bind_ok h
    exact make_isDeclaration (fun _ => rfl) h
  · exact block_isDeclaration (fun _ => rfl) h
  · obtain ⟨_, _, _, h⟩ := bind_ok h
    obtain ⟨_, _, _, h⟩ := bind_ok h
    obtain ⟨_, _, _, h⟩ := bind_ok h
    obtain ⟨_, _, _, h⟩ := bind_ok h
    obtain ⟨_, _, _, h⟩ := bind_ok h
    exact make_isDeclaration (fun _ => rfl) h
  · cases h

def Term.declarations : Term → List Term
  | .node _ [_, _, .list declarations] => declarations
  | _ => []

def Term.isModule : Term → Bool
  | .node (.module form) [_, .list _, .list declarations] =>
    (form == .body || form == .interface) && declarations.all Term.isDeclaration
  | _ => false

theorem module_fill (kind : ModuleKind) (id : Term) (uses others : List Term) {fillings : List Filling}
    (filled : (Form.module kind.form).fill [id, .list uses, .list others] = .ok fillings) :
    fillings.map (Filling.term [id, .list uses, .list others]) = [id, .list uses, .list others] := by
  cases kind <;> cases filled <;> cases uses <;> cases others <;> rfl

/-- A module has its path, what it uses and its other declarations, each converted from a tree. -/
theorem convertModule_ok {name : String}
    (h : perform (convertModule kind.form name tree) reader s = (.ok t, s')) :
    ∃ id uses others levels, t = .node (.module kind.form) [id, .list uses, .list others] ∧
      (∃ s s', perform (modulePath name) reader s = (.ok id, s')) ∧
      ∀ d ∈ uses ++ others, ∃ tree s s',
        perform (declaration (convertUpTo levels) tree) reader s = (.ok d, s') := by
  obtain ⟨reader', _, _, h⟩ := bind_ok h
  obtain ⟨id, _, named, h⟩ := bind_ok h
  obtain ⟨⟨uses, others⟩, _, parts, h⟩ := bind_ok h
  obtain ⟨fillings, filled, rfl⟩ := make_ok h
  rw [module_fill kind id uses others filled]
  obtain ⟨_, _, _, parts⟩ := bind_ok parts
  obtain ⟨_, _, _, parts⟩ := bind_ok parts
  obtain ⟨items, _, converted, parts⟩ := bind_ok parts
  have parted : items.partition (·.is (.module .use)) = (uses, others) :=
    Except.ok.inj (Prod.mk.inj parts).1
  refine ⟨id, uses, others, levelsFor reader' tree, rfl, ⟨_, _, named⟩, fun d member => ?_⟩
  -- What is used and the other declarations are the converted ones, parted in two.
  rw [List.partition_eq_filter_filter] at parted
  rw [← (Prod.mk.inj parted).1, ← (Prod.mk.inj parted).2, List.mem_append, List.mem_filter,
    List.mem_filter] at member
  obtain ⟨tree, _, s, s', found⟩ := mapM_ok converted d (member.elim And.left And.left)
  exact ⟨tree, s, s', found⟩

theorem convertModule_isModule {name : String}
    (h : perform (convertModule kind.form name tree) reader s = (.ok t, s')) : t.isModule = true := by
  obtain ⟨id, uses, others, levels, rfl, -, converted⟩ := convertModule_ok h
  have inside : ∀ d ∈ others, d.isDeclaration = true := by
    intro d member
    obtain ⟨_, _, _, found⟩ := converted d (List.mem_append_right uses member)
    exact declaration_isDeclaration found
  cases kind <;> simpa [Term.isModule, ModuleKind.form] using inside

theorem parseModule_isModule {source : Source} {information : Information}
    (h : perform (parseModule kind source) reader s = (.ok (t, information), s')) :
    t.isModule = true := by
  obtain ⟨_, _, _, h⟩ := bind_ok h
  obtain ⟨_, _, _, h⟩ := bind_ok h
  obtain ⟨_, _, converted, h⟩ := bind_ok h
  obtain ⟨_, _, _, h⟩ := bind_ok h
  obtain ⟨_, _, _, h⟩ := bind_ok h
  cases h
  exact convertModule_isModule converted

/-- What parsing a module gives once, it gives whatever was read before. -/
theorem parseModule_anywhere {source : Source} {result : Term × Information}
    (h : perform (parseModule kind source) reader s = (.ok result, s')) (u : Reading) :
    ∃ u', perform (parseModule kind source) reader u = (.ok result, u') := by
  obtain ⟨tree, _, opened, h⟩ := bind_ok h
  obtain ⟨text, content, replied⟩ := readSource_ok opened
  -- Both ways the source is the current one when the tree is converted.
  let opened : Reading :=
    { parser := 0, source := some source.name, reads := u.reads ++ [(kind.readRule, source.origin)],
      logs := u.logs ++ (reader.reply kind.readRule text).logs }
  obtain ⟨u', h', -⟩ := Composed.repeatable inferInstance opened h fun _ => rfl
  exact ⟨u', (perform_bind_ok (perform_readSource content replied u) _).trans h'⟩

end SwanModel
