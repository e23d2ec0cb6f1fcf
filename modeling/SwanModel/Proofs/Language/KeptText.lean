import SwanModel.Proofs.Language.Loops

/-!
# Kept texts

`ParseTree.kept?` gives the text of a construct that could not be read, and `Shows` says that a
construct tells of it and displays it.
-/

namespace SwanModel

open SwanModel.Convert

/-- The part of a tree whose case tells whether its text is kept. -/
def Rule.choice (rule : Rule) (tree : ParseTree) : Option ParseTree :=
  match rule, tree with
  | .operator, .node _ _ fields => fields.lookup "CallOp"
  | .object, .node _ _ fields => fields.lookup "ObjDescription"
  | _, tree => some tree

/-- The cases in which the text of a construct is kept. -/
def Rule.keeps (rule : Rule) (tag : String) : Bool :=
  match rule with
  | .pathOrText => tag != "PIOfId"
  | .exprOrText => tag != "ExprWithSP"
  | .pattern => tag == "PRaw"
  | .typeOrText => tag == "RawTypeExpr"
  | .flow => tag == "RawVar"
  | .constraint => tag == "TCRaw"
  | .modifier => tag == "ModifierRaw"
  | .operator => tag == "ORawPrefix" || tag == "ORawOpExpr"
  | .object => tag == "BRawDef" || tag == "BRawBlock"
  | .declaration => tag == "DRaw"
  | .dimension => tag == "FRaw"
  | .forwardReturn => tag == "FRetRaw"
  | .scopeSection => tag == "SRaw"
  | _ => false

/-- The markup that is printed around a text: its own one, or that of the construct. -/
def Rule.printedMarkup (rule : Rule) (own : String) : String :=
  match rule with
  | .operator | .object | .declaration => own
  | .flow => flowMarkup
  | .dimension => dimensionMarkup
  | _ => Name.defaultMarkup

namespace ParseTree

def kept? (rule : Rule) (tree : ParseTree) : Option ParseTree :=
  match rule.choice tree with
  | some (.node (some tag) (first :: _) _) => if rule.keeps tag then some first else none
  | _ => none

def keptIndices? (tree : ParseTree) : Option ParseTree :=
  match Rule.operator.choice tree with
  | some (.node (some "OPrefixPrimitive") [.node (some kind) [.node (some tag) [first] _] _] _) =>
    if kind ∉ ["Flatten", "Pack", "Reverse"] && tag != "TSList" then some first else none
  | _ => none

def callsKept (block : ParseTree) : Bool :=
  match block with
  | .node _ _ fields =>
    match fields.lookup "OIBCalled" with
    | some (.node (some "CallOperator") [operator] _) => (operator.kept? .operator).isSome
    | _ => false
  | _ => false

/-- Whether a construct tells that its text is kept. -/
def tellsKept (rule : Rule) (tree : ParseTree) : Bool :=
  match rule, rule.choice tree with
  | .object, some (.node (some "BRawDef") _ _) => false
  | .object, some (.node (some "BBlock") (block :: _) _) => block.callsKept
  | _, _ => (tree.kept? rule).isSome

end ParseTree

def Term.Displays (t : Term) (text : String) : Prop :=
  ∃ front back, t.print = .ok (front ++ text ++ back)

/-- A construct tells whether its text is kept, and displays it between markups. -/
structure Shows (rule : Rule) (tree : ParseTree) (t : Term) : Prop where
  tells : t.isProtected = .ok (tree.tellsKept rule)
  displays : ∀ text, tree.kept? rule = some text →
    ∃ raw own, text = .protectedText (.text raw) (.text own) ∧
      t.Displays (Name.enclose (rule.printedMarkup own) raw)

/-! ### Constructs that were read -/

def Term.IsRead (t : Term) : Prop := t = .absent ∨ t.isProtected = .ok false

section Read

variable {self : Convert} {reader : Reader} {s s' : Reading} {tree : ParseTree} {t : Term}

theorem make_isRead {form : Form} {args : List Term} (read : ∀ parts, form.isProtected parts = false)
    (h : perform (make form args) reader s = (.ok t, s')) : t.IsRead := by
  obtain ⟨_, -, rfl⟩ := make_ok h
  exact .inr (congrArg Except.ok (read _))

theorem forward_isRead {levels : Nat}
    (h : perform (convertUpTo levels .forward tree) reader s = (.ok t, s')) : t.IsRead := by
  cases levels with
  | zero => cases h
  | succ levels =>
    obtain ⟨_, _, _, _, _, rfl⟩ := forward_form h
    exact .inr rfl

-- In each case of the converters below the parts are converted first, and the construct is made last.

theorem readPattern_isRead (h : perform (readPattern tree) reader s = (.ok t, s')) : t.IsRead := by
  obtain ⟨_, _, -, h⟩ := bind_ok h
  split at h
  all_goals repeat' first | obtain ⟨_, _, -, h⟩ := bind_ok h | split at h
  all_goals first | exact make_isRead (fun _ => rfl) h | (cases h; exact .inl rfl)

theorem type_isRead (h : perform (Convert.type self tree) reader s = (.ok t, s')) : t.IsRead := by
  obtain ⟨_, _, -, h⟩ := bind_ok h
  split at h
  all_goals repeat' obtain ⟨_, _, -, h⟩ := bind_ok h
  all_goals first | exact make_isRead (fun _ => rfl) h | (cases h; exact .inl rfl)

theorem expr_isRead {levels : Nat}
    (h : perform (expr (convertUpTo levels) tree) reader s = (.ok t, s')) : t.IsRead := by
  obtain ⟨_, _, -, h⟩ := bind_ok h
  split at h
  all_goals repeat' first | obtain ⟨_, _, -, h⟩ := bind_ok h | split at h
  all_goals first
    | exact make_isRead (fun _ => rfl) h
    | exact forward_isRead h
    | cases h <;> exact .inl rfl

theorem primitive_isRead {sizes : Term}
    (h : perform (primitive sizes tree) reader s = (.ok t, s')) : t.IsRead := by
  obtain ⟨_, _, -, h⟩ := bind_ok h
  split at h
  all_goals repeat' obtain ⟨_, _, -, h⟩ := bind_ok h
  all_goals exact make_isRead (fun _ => rfl) h

theorem operatorExpr_isRead (h : perform (operatorExpr self tree) reader s = (.ok t, s')) :
    t.IsRead := by
  obtain ⟨_, _, -, h⟩ := bind_ok h
  split at h
  all_goals repeat' first | obtain ⟨_, _, -, h⟩ := bind_ok h | split at h
  all_goals first | exact make_isRead (fun _ => rfl) h | cases h <;> exact .inl rfl

theorem scopeSection_isRead (h : perform (scopeSection self tree) reader s = (.ok t, s')) :
    t.IsRead := by
  obtain ⟨_, _, -, h⟩ := bind_ok h
  split at h
  all_goals repeat' obtain ⟨_, _, -, h⟩ := bind_ok h
  all_goals first | exact make_isRead (fun _ => rfl) h | cases h <;> exact .inl rfl

theorem Term.IsRead.tells (read : t.IsRead) (present : t ≠ .absent) : t.isProtected = .ok false := by
  rcases read with absent | tells
  · exact absurd absent present
  · exact tells

theorem Term.IsRead.not_verbatim (read : t.IsRead) : t.isVerbatim = false := by
  rcases read with rfl | tells
  · rfl
  · cases t with
    | node form parts =>
      rw [Bool.eq_false_iff]
      intro verbatim
      have listed : form = .name .verbatim ∨ form = .type .verbatim ∨ form = .pattern .verbatim ∨
          form = .expr .verbatim ∨ form = .operator .verbatim ∨ form = .forward .returnVerbatim ∨
            form = .decl .flowVerbatim ∨
          form = .module .verbatim := by
        simpa [Term.isVerbatim, Term.is, Term.form?] using verbatim
      rcases listed with rfl | rfl | rfl | rfl | rfl | rfl | rfl | rfl <;> cases tells
    | _ => cases tells

end Read

/-! ### Kept texts -/

section Texts

variable {raw own : String} {content luid locals sizes kind value : Term}

theorem constraint_displays
    (legible : ∃ printed, (Term.node (.decl .typeConstraint) [.text raw, kind]).print = .ok printed) :
    (Term.node (.decl .typeConstraint) [.text raw, kind]).Displays
      (Name.enclose Name.defaultMarkup raw) := by
  obtain ⟨printed, whole⟩ := legible
  have text := whole
  rw [Term.print_node] at text
  obtain ⟨_, enclosed, text⟩ := ok_of_bind text
  cases enclosed
  obtain ⟨word, -, text⟩ := ok_of_bind text
  cases text
  exact ⟨"where ", " " ++ word, by rw [whole, ← String.append_assoc]⟩

theorem modifier_displays
    (legible : ∃ printed, (Term.node (.part .modifier) [.text raw, value]).print = .ok printed) :
    (Term.node (.part .modifier) [.text raw, value]).Displays (Name.enclose Name.defaultMarkup raw) := by
  obtain ⟨printed, whole⟩ := legible
  have text := whole
  rw [Term.print_node] at text
  obtain ⟨_, enclosed, text⟩ := ok_of_bind text
  cases enclosed
  obtain ⟨word, -, text⟩ := ok_of_bind text
  cases text
  exact ⟨"", " = " ++ word, by rw [whole, ← String.append_assoc, String.empty_append]⟩

theorem transpose_displays
    (legible : ∃ printed, (Term.node (.operator .transpose) [.text raw, sizes]).print = .ok printed) :
    (Term.node (.operator .transpose) [.text raw, sizes]).Displays
      (Name.enclose Name.defaultMarkup raw) := by
  obtain ⟨printed, whole⟩ := legible
  have text := whole
  rw [Term.print_node] at text
  obtain ⟨front, indices, text⟩ := ok_of_bind text
  have filled : (Name.enclose Name.defaultMarkup raw).isEmpty = false := by
    simp [Name.enclose]
  obtain rfl : "transpose \x7b" ++ Name.enclose Name.defaultMarkup raw ++ "\x7d" = front := by
    change Except.ok (if (Name.enclose Name.defaultMarkup raw).isEmpty then _ else _) = _ at indices
    rw [filled] at indices
    exact Except.ok.inj indices
  unfold sizesLayout at text
  split at text
  · obtain ⟨inside, -, text⟩ := ok_of_bind text
    cases text
    exact ⟨"transpose \x7b", "\x7d" ++
      (" <<" ++ (inside ++ ">>")), by rw [whole]; simp only [String.append_assoc]⟩
  · cases text
    exact ⟨"transpose \x7b", "\x7d", whole⟩

theorem objectLayout_displays {form : DiagramForm} {parts : List Term}
    {description : Except Error String} (front : String)
    (laidOut : (Term.node (.diagram form) parts).print =
      objectLayout luid.printed locals.printed description)
    (described : description = .ok (front ++ Name.enclose own raw))
    (legible : ∃ printed, (Term.node (.diagram form) parts).print = .ok printed) :
    (Term.node (.diagram form) parts).Displays (Name.enclose own raw) := by
  obtain ⟨printed, whole⟩ := legible
  have text := laidOut.symm.trans whole
  obtain ⟨before, -, text⟩ := ok_of_bind text
  obtain ⟨inner, -, text⟩ := ok_of_bind text
  rw [described] at text
  cases text
  refine ⟨"(" ++ before ++ front, (if inner.isEmpty then "" else "\nwhere\n" ++ inner) ++ ")", ?_⟩
  rw [whole]
  simp only [String.append_assoc]

end Texts

section Kept

variable {known : Rule → ParseTree → Bool} {self : Convert} {reader : Reader} {s s' : Reading}
  {tree : ParseTree} {t : Term}

theorem ParseTree.isProtected_cases {markups : List String} (isText : tree.isProtected markups = true) :
    ∃ raw own, tree = .protectedText (.text raw) (.text own) ∧ own ∉ markups := by
  unfold ParseTree.isProtected at isText
  split at isText
  · exact ⟨_, _, rfl, by simpa using isText⟩
  · cases isText

theorem protectedText_text (raw own : String) :
    protectedText (.protectedText (.text raw) (.text own)) = pure (.text raw) := rfl

theorem markup_text (raw own : String) :
    Convert.markup (.protectedText (.text raw) (.text own)) = pure (.text own) := rfl

section Choice

variable {rule : Rule} {name : String} {first : ParseTree} {rest : List ParseTree}
  {fields : List (String × ParseTree)}
  (found : rule.choice tree = some (.node (some name) (first :: rest) fields))
include found

theorem kept_of_choice : tree.kept? rule = if rule.keeps name then some first else none := by
  simp only [ParseTree.kept?, found]

theorem kept_eq_some (keeps : rule.keeps name = true) : tree.kept? rule = some first := by
  rw [kept_of_choice found, if_pos keeps]

theorem kept_eq_none (reads : rule.keeps name = false) : tree.kept? rule = none := by
  rw [kept_of_choice found, reads]
  rfl

end Choice

theorem Shows.of_text {rule : Rule} (raw own : String)
    (kept : tree.kept? rule = some (.protectedText (.text raw) (.text own)))
    (told : tree.tellsKept rule = (tree.kept? rule).isSome) (tells : t.isProtected = .ok true)
    (printed : t.print = .ok (Name.enclose (rule.printedMarkup own) raw)) : Shows rule tree t where
  tells := by rw [tells, told, kept]; rfl
  displays := by
    rintro text found
    cases kept.symm.trans found
    exact ⟨raw, own, rfl, "", "", by rw [printed, String.empty_append, String.append_empty]⟩

theorem Shows.of_inside {rule : Rule} (raw own : String)
    (kept : tree.kept? rule = some (.protectedText (.text raw) (.text own)))
    (tells : t.isProtected = .ok (tree.tellsKept rule))
    (displays : t.Displays (Name.enclose (rule.printedMarkup own) raw)) : Shows rule tree t where
  tells := tells
  displays := by
    rintro text found
    cases kept.symm.trans found
    exact ⟨raw, own, rfl, displays⟩

theorem Shows.of_read {rule : Rule} (kept : tree.kept? rule = none)
    (told : tree.tellsKept rule = (tree.kept? rule).isSome) (tells : t.isProtected = .ok false) :
    Shows rule tree t where
  tells := by rw [tells, told, kept]; rfl
  displays := by
    rintro text found
    cases kept.symm.trans found

theorem pathOrText_shows (accepted : HasOne known tree Rule.pathOrText.shapes)
    (h : perform (pathOrText tree) reader s = (.ok t, s')) : Shows .pathOrText tree t := by
  rcases accepted with accepted | accepted | ⟨⟨⟩⟩
  · obtain ⟨_, _, rfl, isPath, -, ⟨⟩⟩ := TreeShape.accepts_case accepted
    simp only [pathOrText, ↓tag_bind, itemAt_first, pure_bind] at h
    obtain ⟨_, _, listed, h⟩ := bind_ok h
    obtain ⟨ids, rfl⟩ := each_ok listed
    rw [make_ok_plain rfl h]
    exact .of_read rfl rfl rfl
  · obtain ⟨tag, _, _, rfl, different, isText, ⟨⟩⟩ := TreeShape.accepts_other accepted
    obtain ⟨raw, own, rfl, -⟩ := ParseTree.isProtected_cases isText
    simp only [pathOrText, ↓tag_bind, item_node, pure_bind, protectedText_text] at h
    split at h
    · contradiction
    · rw [make_ok_plain rfl h]
      have raised : tag ≠ "PIOfId" := by simpa using different
      exact .of_text raw own (kept_eq_some rfl (bne_iff_ne.mpr raised)) rfl rfl rfl

theorem exprOrText_shows {levels : Nat} (accepted : HasOne known tree Rule.exprOrText.shapes)
    (present : t ≠ .absent)
    (h : perform (exprOrText (convertUpTo levels) tree) reader s = (.ok t, s')) :
    Shows .exprOrText tree t := by
  rcases accepted with accepted | accepted | ⟨⟨⟩⟩
  · obtain ⟨_, _, rfl, isExpr, -, ⟨⟩⟩ := TreeShape.accepts_case accepted
    simp only [exprOrText, ↓tag_bind, itemAt_first, pure_bind] at h
    cases levels with
    | zero => cases h
    | succ levels => exact .of_read rfl rfl ((expr_isRead h).tells present)
  · obtain ⟨tag, _, _, rfl, different, isText, ⟨⟩⟩ := TreeShape.accepts_other accepted
    obtain ⟨raw, own, rfl, -⟩ := ParseTree.isProtected_cases isText
    simp only [exprOrText, ↓tag_bind, item_node, pure_bind, protectedText_text] at h
    split at h
    · contradiction
    · rw [make_ok_plain rfl h]
      have raised : tag ≠ "ExprWithSP" := by simpa using different
      exact .of_text raw own (kept_eq_some rfl (bne_iff_ne.mpr raised)) rfl rfl rfl

theorem pattern_shows (accepted : HasOne known tree Rule.pattern.shapes) (present : t ≠ .absent)
    (h : perform (pattern tree) reader s = (.ok t, s')) : Shows .pattern tree t := by
  rcases accepted with accepted | accepted | ⟨⟨⟩⟩
  · obtain ⟨_, _, rfl, isText, ⟨⟩⟩ := TreeShape.accepts_case accepted
    obtain ⟨raw, own, rfl, -⟩ := ParseTree.isProtected_cases isText
    simp only [pattern, ↓tag_bind, item_node, pure_bind, protectedText_text] at h
    rw [make_ok_plain rfl h]
    exact .of_text raw own rfl rfl rfl rfl
  · obtain ⟨tag, _, _, rfl, different, isPattern, -, ⟨⟩⟩ := TreeShape.accepts_other accepted
    simp only [pattern, ↓tag_bind, itemAt_first, pure_bind] at h
    split at h
    · contradiction
    · have other : tag ≠ "PRaw" := by simpa using different
      exact .of_read (kept_eq_none rfl (beq_eq_false_iff_ne.mpr other)) rfl
        ((readPattern_isRead h).tells present)

theorem typeOrText_shows {levels : Nat} (accepted : HasOne known tree Rule.typeOrText.shapes)
    (present : t ≠ .absent)
    (h : perform (typeOrText (convertUpTo levels) tree) reader s = (.ok t, s')) :
    Shows .typeOrText tree t := by
  rcases accepted with accepted | accepted | ⟨⟨⟩⟩
  · obtain ⟨_, _, rfl, isText, ⟨⟩⟩ := TreeShape.accepts_case accepted
    obtain ⟨raw, own, rfl, -⟩ := ParseTree.isProtected_cases isText
    simp only [typeOrText, ↓tag_bind, item_node, pure_bind, protectedText_text] at h
    rw [make_ok_plain rfl h]
    exact .of_text raw own rfl rfl rfl rfl
  · obtain ⟨tag, _, _, rfl, different, isType, -, ⟨⟩⟩ := TreeShape.accepts_other accepted
    simp only [typeOrText, ↓tag_bind, itemAt_first, pure_bind] at h
    split at h
    · contradiction
    · have other : tag ≠ "RawTypeExpr" := by simpa using different
      cases levels with
      | zero => cases h
      | succ levels =>
        exact .of_read (kept_eq_none rfl (beq_eq_false_iff_ne.mpr other)) rfl
          ((type_isRead h).tells present)

theorem flow_shows (accepted : HasOne known tree Rule.flow.shapes)
    (h : perform (flow self tree) reader s = (.ok t, s')) : Shows .flow tree t := by
  rcases accepted with accepted | accepted | ⟨⟨⟩⟩
  · obtain ⟨_, _, rfl, isText, ⟨⟩⟩ := TreeShape.accepts_case accepted
    obtain ⟨raw, own, rfl, -⟩ := ParseTree.isProtected_cases isText
    simp only [flow, ↓tag_bind, item_node, pure_bind, protectedText_text] at h
    rw [make_ok_plain rfl h]
    exact .of_text raw own rfl rfl rfl rfl
  · obtain ⟨tag, _, _, rfl, different, isDecl, -, ⟨⟩⟩ := TreeShape.accepts_other accepted
    simp only [flow, ↓tag_bind, itemAt_first, pure_bind] at h
    split at h
    · contradiction
    · have other : tag ≠ "RawVar" := by simpa using different
      repeat obtain ⟨_, _, -, h⟩ := bind_ok h
      obtain ⟨_, -, rfl⟩ := make_ok h
      exact .of_read (kept_eq_none rfl (beq_eq_false_iff_ne.mpr other)) rfl rfl

theorem constraint_shows (accepted : HasOne known tree Rule.constraint.shapes)
    (legible : ∃ printed, t.print = .ok printed)
    (h : perform (constraint self tree) reader s = (.ok t, s')) : Shows .constraint tree t := by
  rcases accepted with accepted | accepted | ⟨⟨⟩⟩
  · obtain ⟨_, _, rfl, isText, -, ⟨⟩⟩ := TreeShape.accepts_case accepted
    obtain ⟨raw, own, rfl, -⟩ := ParseTree.isProtected_cases isText
    simp only [constraint, ↓tag_bind, itemAt_first, itemAt_second, pure_bind, protectedText_text] at h
    obtain ⟨kind, _, -, h⟩ := bind_ok h
    obtain rfl := make_ok_plain rfl h
    exact .of_inside raw own rfl rfl (constraint_displays legible)
  · obtain ⟨tag, _, _, rfl, different, areTypes, -, ⟨⟩⟩ := TreeShape.accepts_other accepted
    simp only [constraint, ↓tag_bind, itemAt_first, itemAt_second, pure_bind] at h
    obtain ⟨kind, _, -, h⟩ := bind_ok h
    split at h
    · contradiction
    · have other : tag ≠ "TCRaw" := by simpa using different
      obtain ⟨_, _, listed, h⟩ := bind_ok h
      obtain ⟨types, rfl⟩ := each_ok listed
      rw [make_ok_plain rfl h]
      exact .of_read (kept_eq_none rfl (beq_eq_false_iff_ne.mpr other)) rfl rfl

theorem modifier_shows (accepted : HasOne known tree Rule.modifier.shapes)
    (legible : ∃ printed, t.print = .ok printed)
    (h : perform (modifier self tree) reader s = (.ok t, s')) : Shows .modifier tree t := by
  rcases accepted with accepted | accepted | ⟨⟨⟩⟩
  · obtain ⟨_, _, rfl, isText, -, ⟨⟩⟩ := TreeShape.accepts_case accepted
    obtain ⟨raw, own, rfl, -⟩ := ParseTree.isProtected_cases isText
    simp only [modifier, ↓tag_bind, itemAt_first, itemAt_second, pure_bind, protectedText_text] at h
    obtain ⟨value, _, -, h⟩ := bind_ok h
    obtain rfl := make_ok_plain rfl h
    exact .of_inside raw own rfl rfl (modifier_displays legible)
  · obtain ⟨tag, _, _, rfl, different, areTargets, -, ⟨⟩⟩ := TreeShape.accepts_other accepted
    simp only [modifier, ↓tag_bind, itemAt_first, itemAt_second, pure_bind] at h
    obtain ⟨value, _, -, h⟩ := bind_ok h
    split at h
    · contradiction
    · have other : tag ≠ "ModifierRaw" := by simpa using different
      obtain ⟨_, _, listed, h⟩ := bind_ok h
      obtain ⟨targets, rfl⟩ := each_ok listed
      rw [make_ok_plain rfl h]
      exact .of_read (kept_eq_none rfl (beq_eq_false_iff_ne.mpr other)) rfl rfl

theorem declaration_shows (accepted : HasOne known tree Rule.declaration.shapes)
    (h : perform (declaration self tree) reader s = (.ok t, s')) : Shows .declaration tree t := by
  rcases accepted with accepted | accepted | accepted | accepted | accepted | accepted | accepted |
    accepted | ⟨⟨⟩⟩ <;>
    obtain ⟨_, _, rfl, isFirst, items⟩ := TreeShape.accepts_case accepted
  case there.there.there.here =>
    obtain ⟨⟩ := items
    obtain ⟨raw, own, rfl, notRead⟩ := ParseTree.isProtected_cases isFirst
    simp only [declaration, ↓tag_bind, item_node, pure_bind, protectedDeclaration,
      protectedText_text, markup_text] at h
    split at h
    · rename_i same
      exact absurd (Term.text.inj same) (by simpa using notRead)
    · rw [make_ok_plain rfl h]
      exact .of_text raw own rfl rfl rfl rfl
  all_goals
    simp only [declaration, ↓tag_bind] at h
    repeat obtain ⟨_, _, -, h⟩ := bind_ok h
    obtain ⟨_, -, rfl⟩ := make_ok h
    exact .of_read rfl rfl rfl

theorem scopeSection_shows (accepted : HasOne known tree Rule.scopeSection.shapes)
    (present : t ≠ .absent) (h : perform (scopeSection self tree) reader s = (.ok t, s')) :
    Shows .scopeSection tree t := by
  have tells := (scopeSection_isRead h).tells present
  rcases accepted with accepted | accepted | accepted | accepted | accepted | accepted | ⟨⟨⟩⟩ <;>
    obtain ⟨_, _, rfl, -, -⟩ := TreeShape.accepts_case accepted <;>
    exact .of_read rfl rfl tells

theorem protectedOperator_ok {sizes : Term} {raw own : String} (notRead : own ∉ ["text", "op_expr"])
    (h : perform (protectedOperator self sizes (.protectedText (.text raw) (.text own))) reader s =
      (.ok t, s')) :
    t = .node (.operator .verbatim) [.text raw, .text own] := by
  have others : own ≠ "text" ∧ own ≠ "op_expr" := by simpa using notRead
  simp only [protectedOperator, protectedText_text, markup_text, pure_bind] at h
  split at h
  · rename_i same
    exact absurd (Term.text.inj same) others.1
  · rename_i same
    exact absurd (Term.text.inj same) others.2
  · exact make_ok_plain rfl h

theorem operator_shows (accepted : HasOne known tree Rule.operator.shapes) (present : t ≠ .absent)
    (h : perform (operator self tree) reader s = (.ok t, s')) : Shows .operator tree t := by
  obtain ⟨_, _, fields, rfl, foundSizes, -, foundMarks, -, foundCall, isCall, ⟨⟩⟩ :=
    TreeShape.accepts_record accepted.only
  have choice (tag : Option String) (items : List ParseTree) :
    Rule.operator.choice (.node tag items fields) = _ := foundCall
  simp only [operator, field_node foundSizes, field_node foundMarks, field_node foundCall,
    pure_bind] at h
  obtain ⟨sizes, _, -, h⟩ := bind_ok h
  obtain ⟨marks, _, -, h⟩ := bind_ok h
  rcases TreeShape.accepts_oneOf isCall with accepted | accepted | accepted | accepted | accepted | ⟨⟨⟩⟩
  case there.there.here | there.there.there.here =>
    obtain ⟨_, _, rfl, isText, ⟨⟩⟩ := TreeShape.accepts_case accepted
    obtain ⟨raw, own, rfl, notRead⟩ := ParseTree.isProtected_cases isText
    simp only [operatorCall, ↓tag_bind, item_node, pure_bind] at h
    rw [protectedOperator_ok notRead h]
    exact .of_text raw own (kept_of_choice (choice _ _)) rfl rfl rfl
  · obtain ⟨_, _, rfl, isPath, ⟨⟩⟩ := TreeShape.accepts_case accepted
    simp only [operatorCall, ↓tag_bind, item_node, pure_bind] at h
    obtain ⟨_, _, -, h⟩ := bind_ok h
    obtain ⟨_, -, rfl⟩ := make_ok h
    exact .of_read (kept_of_choice (choice _ _)) rfl rfl
  · obtain ⟨_, _, rfl, isPrimitive, ⟨⟩⟩ := TreeShape.accepts_case accepted
    simp only [operatorCall, ↓tag_bind, item_node, pure_bind] at h
    exact .of_read (kept_of_choice (choice _ _)) rfl ((primitive_isRead h).tells present)
  · obtain ⟨tag, _, _, rfl, different, isExpr, ⟨⟩⟩ := TreeShape.accepts_other accepted
    have others : tag ≠ "OPathId" ∧ tag ≠ "OPrefixPrimitive" ∧ tag ≠ "ORawPrefix" ∧
        tag ≠ "ORawOpExpr" := by
      simpa using different
    simp only [operatorCall, ↓tag_bind, item_node, pure_bind] at h
    split at h
    · exact absurd rfl others.1
    · exact absurd rfl others.2.1
    · exact absurd rfl others.2.2.1
    · exact absurd rfl others.2.2.2
    · obtain ⟨_, _, -, h⟩ := bind_ok h
      obtain ⟨_, -, rfl⟩ := make_ok h
      refine .of_read (kept_eq_none (choice _ _) ?_) rfl rfl
      change (tag == "ORawPrefix" || tag == "ORawOpExpr") = false
      simp [others]

/-- A transposition displays its indices too, if they were kept. -/
theorem operator_displays_indices {text : ParseTree} (accepted : HasOne known tree Rule.operator.shapes)
    (kept : tree.keptIndices? = some text) (legible : ∃ printed, t.print = .ok printed)
    (h : perform (operator self tree) reader s = (.ok t, s')) :
    ∃ raw own, text = .protectedText (.text raw) (.text own) ∧ t.isProtected = .ok false ∧
      t.Displays (Name.enclose Name.defaultMarkup raw) := by
  obtain ⟨_, _, _, rfl, foundSizes, -, foundMarks, -, foundCall, isCall, ⟨⟩⟩ :=
    TreeShape.accepts_record accepted.only
  simp only [operator, field_node foundSizes, field_node foundMarks, field_node foundCall,
    pure_bind] at h
  obtain ⟨sizes, _, -, h⟩ := bind_ok h
  obtain ⟨marks, _, -, h⟩ := bind_ok h
  simp only [ParseTree.keptIndices?, Rule.choice, foundCall] at kept
  split at kept
  · rename_i kind tag first _ _ _ same
    cases same
    obtain ⟨⟨notOther, notList⟩, rfl⟩ :
        (kind ∉ ["Flatten", "Pack", "Reverse"] ∧ tag ≠ "TSList") ∧ first = text := by
      simpa using kept
    have others : kind ≠ "Flatten" ∧ kind ≠ "Pack" ∧ kind ≠ "Reverse" := by simpa using notOther
    have isText : first.isProtected [] = true := by
      simpa [Grammar.operatorCall, Grammar.primitive, Grammar.indices, Grammar.tagged,
        Grammar.verbatim, ParseTree.isTagged, TreeShape.accepts, TreeShape.acceptsSome,
        TreeShape.acceptsItems, others, notList] using isCall
    obtain ⟨raw, own, rfl, -⟩ := ParseTree.isProtected_cases isText
    simp only [operatorCall, primitive, transposeIndices, ↓tag_bind, item_node, pure_bind,
      protectedText_text] at h
    split at h
    · exact absurd rfl others.1
    · exact absurd rfl others.2.1
    · exact absurd rfl others.2.2
    · obtain rfl := make_ok_plain rfl h
      exact ⟨raw, own, rfl, rfl, transpose_displays legible⟩
  · cases kept

end Kept

end SwanModel
