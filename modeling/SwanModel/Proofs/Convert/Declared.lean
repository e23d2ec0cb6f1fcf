import SwanModel.Proofs.Convert.Modules
import SwanModel.Proofs.Language.Texts
import SwanModel.Proofs.Store.View

/-!
# The declarations of a module

What a block of declarations has for members follows from its form. All declarations but kept text
and uses begin with an identifier that has a text.
-/

namespace SwanModel

open SwanModel.Convert

variable {self : Convert} {reader : Reader} {s s' : Reading} {tree : ParseTree} {t : Term}

/-! ### Identifiers -/

def Term.identifier (text : String) (pragmas : List Term) : Term :=
  .node (.name .identifier) [.text text, .list pragmas, .absent, .truth false]

inductive Term.IsOptionalList : Term → Prop
  | absent : IsOptionalList .absent
  | list (items : List Term) : IsOptionalList (.list items)

theorem makeIdentifier_ok {text pragmas : Term} (optional : pragmas.IsOptionalList)
    (h : perform (make (.name .identifier) [text, pragmas, .absent, .truth false]) reader s =
      (.ok t, s')) :
    ∃ text pragmas, t = .identifier text pragmas := by
  obtain ⟨fillings, filled, rfl⟩ := make_ok h
  unfold Form.fill fillIdentifier at filled
  dsimp only at filled
  split at filled
  · rename_i isText
    cases filled
    cases text with
    | text text =>
      cases optional with
      | absent => exact ⟨text, [], rfl⟩
      | list items => cases items <;> exact ⟨text, _, rfl⟩
    | _ => cases isText
  · cases filled

theorem identifier_ok (h : perform (identifier tree) reader s = (.ok t, s')) :
    ∃ text pragmas, t = .identifier text pragmas := by
  unfold identifier at h
  split at h
  · obtain ⟨_, _, _, h⟩ := bind_ok h
    exact makeIdentifier_ok (.list _) h
  · cases h

theorem plainIdentifier_ok {text : Term} (h : perform (plainIdentifier text) reader s = (.ok t, s')) :
    ∃ text pragmas, t = .identifier text pragmas :=
  makeIdentifier_ok .absent h

/-! ### Paths of modules -/

def Name.PathText.fullName : Name.PathText → String
  | .names parts => "::".intercalate parts
  | .verbatim text => text

theorem identifiers_eq {names : List String} {ids : List Term}
    (h : perform (names.mapM fun n => plainIdentifier (.text n)) reader s = (.ok ids, s')) :
    ids = names.map fun n => .identifier n [] := by
  induction names generalizing ids s s' with
  | nil =>
    cases h
    rfl
  | cons name names ih =>
    rw [List.mapM_cons] at h
    obtain ⟨_, _, first, h⟩ := bind_ok h
    obtain ⟨_, _, others, h⟩ := bind_ok h
    cases h
    rw [List.map_cons, ih others]
    cases first
    rfl

theorem fullName_identifiers (names : List String) :
    Path.fullName (.list (names.map fun n => .identifier n [])) =
      .ok (.text ("::".intercalate names)) := by
  refine fullName_of_values ?_
  induction names with
  | nil => rfl
  | cons name names ih =>
    rw [List.map_cons, List.mapM_cons, ih]
    rfl

/-- A path that has a full name and no trees in it. -/
structure Term.IsPath (t : Term) (fullName : String) : Prop where
  ids : ∃ ids, t = .node (.name .path) [ids] ∧ Path.fullName ids = .ok (.text fullName)
  settled : t.isSettled = true

theorem identifiers_areSettled (names : List String) :
    Term.areSettled (names.map fun n => .identifier n []) = true := by
  induction names with
  | nil => rfl
  | cons name names ih =>
    rw [List.map_cons, Term.areSettled, ih]
    rfl

theorem modulePath_ok {name : String} (h : perform (modulePath name) reader s = (.ok t, s')) :
    t.IsPath (Name.readPath name).fullName := by
  unfold modulePath at h
  split at h
  · rename_i names read
    obtain ⟨ids, _, made, h⟩ := bind_ok h
    rw [make_ok_plain rfl h, read, identifiers_eq made]
    refine ⟨⟨_, rfl, fullName_identifiers names⟩, ?_⟩
    simp [Term.isSettled, Term.areSettled, identifiers_areSettled]
  · rename_i text read
    rw [make_ok_plain rfl h, read]
    exact ⟨⟨_, rfl, rfl⟩, rfl⟩

/-! ### Declarations -/

/-- A declaration of a form that begins with an identifier. -/
inductive Term.Names (form : DeclForm) : Term → Prop
  | intro (text : String) (pragmas rest : List Term) :
    Names form (.node (.decl form) (.identifier text pragmas :: rest))

def ModuleForm.member : ModuleForm → DeclForm
  | .types => .type
  | .sensors => .sensor
  | .groups => .group
  | _ => .constant

inductive Term.Declares : Term → Prop
  | block {form : ModuleForm} {items : List Term} (isBlock : form.isBlock = true)
      (members : ∀ item ∈ items, item.Names form.member) : Declares (.node (.module form) [.list items])
  | signature {u : Term} (names : u.Names .signature) : Declares u
  | operator {u : Term} (names : u.Names .operator) : Declares u
  | verbatim (parts : List Term) : Declares (.node (.module .verbatim) parts)
  | use (parts : List Term) : Declares (.node (.module .use) parts)

theorem makeNamed_ok {form : DeclForm} {id : Term} {args : List Term}
    (named : ∃ text pragmas, id = .identifier text pragmas)
    (first : ∀ fillings, (Form.decl form).fill (id :: args) = .ok fillings →
      fillings.head? = some (.given 0))
    (h : perform (make (.decl form) (id :: args)) reader s = (.ok t, s')) : t.Names form := by
  obtain ⟨fillings, filled, rfl⟩ := make_ok h
  obtain ⟨text, pragmas, rfl⟩ := named
  obtain ⟨rest, rfl⟩ := List.head?_eq_some_iff.mp (first fillings filled)
  exact .intro text pragmas _

theorem constant_names (h : perform (constant self tree) reader s = (.ok t, s')) :
    t.Names .constant := by
  obtain ⟨_, _, _, h⟩ := bind_ok h
  obtain ⟨_, _, named, h⟩ := bind_ok h
  obtain ⟨_, _, _, h⟩ := bind_ok h
  obtain ⟨_, _, _, h⟩ := bind_ok h
  obtain ⟨_, _, _, h⟩ := bind_ok h
  obtain ⟨_, _, _, h⟩ := bind_ok h
  exact makeNamed_ok (identifier_ok named) (fun _ filled => by cases filled; rfl) h

theorem sensor_names (h : perform (sensor self tree) reader s = (.ok t, s')) : t.Names .sensor := by
  obtain ⟨_, _, _, h⟩ := bind_ok h
  obtain ⟨_, _, named, h⟩ := bind_ok h
  obtain ⟨_, _, _, h⟩ := bind_ok h
  obtain ⟨_, _, _, h⟩ := bind_ok h
  exact makeNamed_ok (identifier_ok named) (fun _ filled => by cases filled; rfl) h

theorem groupDecl_names (h : perform (groupDecl self tree) reader s = (.ok t, s')) : t.Names .group := by
  obtain ⟨_, _, _, h⟩ := bind_ok h
  obtain ⟨_, _, named, h⟩ := bind_ok h
  obtain ⟨_, _, _, h⟩ := bind_ok h
  obtain ⟨_, _, _, h⟩ := bind_ok h
  exact makeNamed_ok (identifier_ok named) (fun _ filled => by cases filled; rfl) h

theorem typeDecl_names (h : perform (typeDecl self tree) reader s = (.ok t, s'))
    (adoptable : t.isAdoptable = true) : t.Names .type := by
  obtain ⟨_, _, _, h⟩ := bind_ok h
  obtain ⟨_, _, named, h⟩ := bind_ok h
  have type : ∀ {definition s s'},
      perform (make (.decl .type) [_, definition]) reader s = (.ok t, s') → t.Names .type :=
    makeNamed_ok (identifier_ok named) (fun _ filled => by cases filled; rfl)
  obtain ⟨_, _, _, h⟩ := bind_ok h
  obtain ⟨_, _, _, h⟩ := bind_ok h
  split at h
  · exact type h
  · obtain ⟨_, _, _, h⟩ := bind_ok h
    obtain ⟨_, _, _, h⟩ := bind_ok h
    exact type h
  · obtain ⟨_, _, _, h⟩ := bind_ok h
    obtain ⟨_, _, _, h⟩ := bind_ok h
    obtain ⟨_, _, _, h⟩ := bind_ok h
    exact type h
  · obtain ⟨_, _, _, h⟩ := bind_ok h
    obtain ⟨_, _, _, h⟩ := bind_ok h
    obtain ⟨_, _, _, h⟩ := bind_ok h
    exact type h
  · cases h
    cases adoptable

theorem signatureParts_id {parts : SignatureParts}
    (h : perform (signatureParts self tree) reader s = (.ok parts, s')) :
    ∃ text pragmas, parts.id = .identifier text pragmas := by
  obtain ⟨_, _, _, h⟩ := bind_ok h
  obtain ⟨_, _, _, h⟩ := bind_ok h
  obtain ⟨_, _, _, h⟩ := bind_ok h
  obtain ⟨_, _, named, h⟩ := bind_ok h
  obtain ⟨_, _, _, h⟩ := bind_ok h
  obtain ⟨_, _, _, h⟩ := bind_ok h
  obtain ⟨_, _, _, h⟩ := bind_ok h
  obtain ⟨_, _, _, h⟩ := bind_ok h
  obtain ⟨_, _, _, h⟩ := bind_ok h
  obtain ⟨_, _, _, h⟩ := bind_ok h
  obtain ⟨_, _, _, h⟩ := bind_ok h
  obtain ⟨_, _, _, h⟩ := bind_ok h
  obtain ⟨_, _, _, h⟩ := bind_ok h
  obtain ⟨_, _, _, h⟩ := bind_ok h
  obtain ⟨_, _, _, h⟩ := bind_ok h
  obtain ⟨_, _, _, h⟩ := bind_ok h
  cases h
  exact plainIdentifier_ok named

theorem signature_names (h : perform (signature self tree) reader s = (.ok t, s')) :
    t.Names .signature := by
  obtain ⟨_, _, parts, h⟩ := bind_ok h
  exact makeNamed_ok (signatureParts_id parts) (fun _ filled => by cases filled; rfl) h

theorem userOperator_names (h : perform (userOperator self tree) reader s = (.ok t, s')) :
    t.Names .operator := by
  obtain ⟨_, _, parts, h⟩ := bind_ok h
  exact makeNamed_ok (signatureParts_id parts) (fun _ filled => by cases filled; rfl) h

theorem convertUpTo_userOperator_names {levels : Nat}
    (h : perform (convertUpTo levels .userOperator tree) reader s = (.ok t, s')) :
    t.Names .operator := by
  cases levels with
  | zero => cases h
  | succ levels => exact userOperator_names h

/-! ### Blocks -/

theorem block_declares {convert : ParseTree → Conversion Term} (form : ModuleForm)
    (isBlock : form.isBlock = true)
    (member : ∀ {tree s t s'}, perform (convert tree) reader s = (.ok t, s') →
      t.isAdoptable = true → t.Names form.member)
    (h : perform (do make (.module form) [← each convert (← itemAt 1 tree)]) reader s = (.ok t, s')) :
    t.Declares := by
  obtain ⟨_, _, _, h⟩ := bind_ok h
  obtain ⟨_, _, members, h⟩ := bind_ok h
  obtain ⟨_, _, _, members⟩ := bind_ok members
  obtain ⟨items, _, converted, members⟩ := bind_ok members
  cases members
  obtain ⟨built, -⟩ := ofExcept_ok h
  obtain ⟨fillings, filled, rfl, adopted⟩ := build_ok built
  have adoptable : ∀ item ∈ items, item.isAdoptable = true := by
    rw [← forM_checkAdoptable, isOk_iff]
    cases form <;> cases isBlock <;> exact forM_eq_ok.mp adopted _ List.mem_cons_self
  have plain : fillings.map (Filling.term [.list items]) = [.list items] := by
    cases form <;> cases isBlock <;> cases filled <;> rfl
  rw [plain]
  refine .block isBlock fun item inside => ?_
  obtain ⟨_, _, _, _, found⟩ := mapM_ok converted item inside
  exact member found (adoptable item inside)

/-- Whatever a declaration is converted from, it declares something that a module can declare. -/
theorem declaration_declares {levels : Nat}
    (h : perform (declaration (convertUpTo levels) tree) reader s = (.ok t, s')) : t.Declares := by
  obtain ⟨_, _, _, h⟩ := bind_ok h
  split at h
  · exact block_declares .constants rfl (fun h _ => constant_names h) h
  · exact block_declares .groups rfl (fun h _ => groupDecl_names h) h
  · obtain ⟨_, _, _, h⟩ := bind_ok h
    exact .operator (userOperator_names h)
  · obtain ⟨_, _, _, h⟩ := bind_ok h
    obtain ⟨_, _, _, h⟩ := bind_ok h
    obtain ⟨_, _, _, h⟩ := bind_ok h
    split at h
    · rw [readAgain_eq] at h
      obtain ⟨_, _, _, h⟩ := bind_ok h
      exact .operator (convertUpTo_userOperator_names h)
    · rw [make_ok_plain rfl h]
      exact .verbatim _
  · exact block_declares .sensors rfl (fun h _ => sensor_names h) h
  · obtain ⟨_, _, _, h⟩ := bind_ok h
    exact .signature (signature_names h)
  · exact block_declares .types rfl typeDecl_names h
  · obtain ⟨_, _, _, h⟩ := bind_ok h
    obtain ⟨_, _, _, h⟩ := bind_ok h
    obtain ⟨_, _, _, h⟩ := bind_ok h
    obtain ⟨_, _, _, h⟩ := bind_ok h
    obtain ⟨_, _, _, h⟩ := bind_ok h
    rw [make_ok_plain rfl h]
    exact .use _
  · cases h

/-- A module has a path with the name that was asked for, and it declares what a module can
declare. -/
theorem convertModule_declares {kind : ModuleKind} {name : String}
    (h : perform (convertModule kind.form name tree) reader s = (.ok t, s')) :
    ∃ id uses others, t = .node (.module kind.form) [id, .list uses, .list others] ∧
      id.IsPath (Name.readPath name).fullName ∧ ∀ d ∈ uses ++ others, d.Declares := by
  obtain ⟨id, uses, others, levels, rfl, ⟨_, _, named⟩, converted⟩ := convertModule_ok h
  refine ⟨id, uses, others, rfl, modulePath_ok named, fun d member => ?_⟩
  obtain ⟨_, _, _, found⟩ := converted d member
  exact declaration_declares found

end SwanModel
