import SwanModel.Name.Pragma
import SwanModel.Proofs.Language.Loops
import SwanModel.Proofs.Printing.Words

/-!
# Printed activations

Nothing closes the branches of an activation. As every activation ends with a branch without
condition, the text still tells which branch belongs to which activation
(`activation_print_eq_iff`).
-/

namespace SwanModel.Printing

open SwanModel.Convert

/-! ### Names with pragmas -/

structure PragmaText where
  text : String
  opened : text.toList.head? = some '#'
  ended : Name.pragmaEnd <:+ text.toList
  first : ∀ n < text.toList.length, ¬Name.pragmaEnd <:+ text.toList.take n

theorem PragmaText.read_unique {p q : PragmaText} {rest rest' : List Char}
    (same : p.text.toList ++ rest = q.text.toList ++ rest') : p = q ∧ rest = rest' := by
  -- of two pragmas at the front of one text the shorter one would have its end mark inside the other
  have shorter : ∀ p q : PragmaText, p.text.toList <+: q.text.toList →
      p.text.toList = q.text.toList := by
    rintro p q ⟨more, text⟩
    by_contra different
    have less : p.text.toList.length < q.text.toList.length := by
      have lengths := congrArg List.length text
      rw [List.length_append] at lengths
      have filled : more ≠ [] := by
        rintro rfl
        exact different (by rw [← text, List.append_nil])
      have := List.length_pos_iff.mpr filled
      omega
    apply q.first _ less
    rw [← text, List.take_left]
    exact p.ended
  have texts : p.text.toList = q.text.toList := by
    have inWhole : q.text.toList <+: p.text.toList ++ rest := ⟨rest', same.symm⟩
    rcases List.prefix_or_prefix_of_prefix (List.prefix_append p.text.toList rest) inWhole with
      inside | inside
    · exact shorter p q inside
    · exact (shorter q p inside).symm
  refine ⟨?_, ?_⟩
  · cases p
    cases q
    have := String.toList_inj.mp texts
    simpa using this
  · rw [texts] at same
    exact List.append_cancel_left same

structure MarkedName where
  text : String
  pragmas : List PragmaText
  valid : Name.isIdentifier text = true

namespace MarkedName

def pragmaTerms (n : MarkedName) : List Term := n.pragmas.map fun p => .text p.text

def term (n : MarkedName) : Term :=
  .node (.name .identifier) [.text n.text, .list n.pragmaTerms, .absent, .truth false]

def expr (n : MarkedName) : Term := .node (.expr .path) [.node (.name .path) [.list [n.term]]]

def identifier (n : MarkedName) : Identifier := ⟨n.text, .absent, n.valid⟩

def marks : List PragmaText → List Char
  | [] => []
  | p :: more => p.text.toList ++ ' ' :: marks more

def chars (n : MarkedName) : List Char := marks n.pragmas ++ n.identifier.chars

theorem pragmas_layout (ps : List PragmaText) :
    pragmasLayout (Term.list (ps.map fun p => .text p.text)).printed =
      .ok (String.ofList (marks ps)) := by
  have joined : ∀ (p : PragmaText) (ps : List PragmaText), ∃ cs, marks (p :: ps) = cs ++ [' '] ∧
      (Term.list ((p :: ps).map fun p => .text p.text)).printed.join " " = .ok (String.ofList cs) := by
    intro p ps
    have first : ∀ p : PragmaText, Prints (.text p.text) p.text.toList := fun p => by
      rw [Prints, String.ofList_toList]
      rfl
    induction ps generalizing p with
    | nil => exact ⟨p.text.toList, rfl, join_one " " (first p)⟩
    | cons q ps ih =>
      obtain ⟨cs, text, rest⟩ := ih q
      refine ⟨p.text.toList ++ (" ".toList ++ cs), ?_, join_cons (first p) (by simp) rest⟩
      rw [marks, text]
      simp
  cases ps with
  | nil => rfl
  | cons p ps =>
    obtain ⟨cs, text, rest⟩ := joined p ps
    rw [pragmasLayout, if_pos (by rfl), rest, ok_bind, text, String.ofList_append]
    rfl

theorem prints (n : MarkedName) : Prints n.term n.chars := by
  rw [Prints, term, Term.print_node]
  simp only [Form.text, Form.isSilent, Form.layout, List.map_cons, List.map_nil, NameForm.layout,
    pragmaTerms, pragmas_layout, ok_bind]
  simp [Term.printed, Printed.isTruthy, Printed.term, Printed.text, Term.isTruthy, Term.atomText,
    chars, identifier, Identifier.chars, ok_bind, pure, Except.pure]

theorem expr_prints (n : MarkedName) : Prints n.expr n.chars := by
  have front : Path.printedPragmas (Term.list [n.term]).printed =
      .ok (Term.list n.pragmaTerms).printed := rfl
  have values : [n.term].mapM Term.valueMember = .ok ([n.text].map Term.text) := rfl
  have name : Path.fullName (.list [n.term]) = .ok (.text n.text) := by
    simpa using fullName_of_values values
  rw [Prints, expr, Term.print_node]
  change pathLayout (Term.list [n.term]).printed = _
  rw [pathLayout]
  simp only [Term.term_printed, Term.isList, if_true, front, name, pragmaTerms, pragmas_layout, ok_bind]
  simp [chars, identifier, Identifier.chars, pure, Except.pure]

theorem head (n : MarkedName) : ∃ c cs, n.chars = c :: cs ∧ (c = '#' ∨ c.isAlpha = true) := by
  obtain ⟨text, pragmas, valid⟩ := n
  cases pragmas with
  | nil =>
    obtain ⟨c, cs, spelling, letter, -⟩ := Identifier.spelled ⟨text, .absent, valid⟩
    exact ⟨c, cs, spelling, .inr letter⟩
  | cons p ps =>
    obtain ⟨cs, text⟩ := List.head?_eq_some_iff.mp p.opened
    exact ⟨'#', _, by rw [chars, marks, text, List.cons_append, List.cons_append], .inl rfl⟩

/-- A number sign tells that there are more pragmas. -/
theorem read_unique {n m : MarkedName} {rest rest' : List Char} (stops : Stops isNameChar rest)
    (stops' : Stops isNameChar rest') (same : n.chars ++ rest = m.chars ++ rest') :
    n = m ∧ rest = rest' := by
  have apart : ∀ (i : Identifier) (p : PragmaText) (xs ys : List Char),
      i.chars ++ xs ≠ p.text.toList ++ ys := by
    intro i p xs ys texts
    obtain ⟨c, cs, spelling, letter, -⟩ := i.spelled
    obtain ⟨ds, opened⟩ := List.head?_eq_some_iff.mp p.opened
    rw [spelling, opened, List.cons_append, List.cons_append, List.cons.injEq] at texts
    rw [texts.1] at letter
    exact absurd letter (by decide)
  obtain ⟨text, pragmas, valid⟩ := n
  obtain ⟨text', pragmas', valid'⟩ := m
  induction pragmas generalizing pragmas' with
  | nil =>
    cases pragmas' with
    | nil =>
      obtain ⟨names, rests⟩ := Identifier.read_unique stops stops' same
      obtain rfl : text = text' := congrArg Identifier.text names
      exact ⟨rfl, rests⟩
    | cons q qs =>
      simp only [chars, marks, List.append_assoc] at same
      exact absurd same (apart _ q _ _)
  | cons p ps ih =>
    cases pragmas' with
    | nil =>
      simp only [chars, marks, List.append_assoc] at same
      exact absurd same.symm (apart _ p _ _)
    | cons q qs =>
      simp only [chars, marks, List.append_assoc, List.cons_append] at same
      obtain ⟨rfl, others⟩ := PragmaText.read_unique same
      have behind := (List.cons.inj others).2
      rw [← List.append_assoc, ← List.append_assoc] at behind
      obtain ⟨names, rests⟩ := ih qs behind
      rw [mk.injEq] at names
      obtain ⟨rfl, rfl, -⟩ := names
      exact ⟨rfl, rests⟩

end MarkedName

/-! ### Equations and activations -/

/-- What an identifier is defined by. -/
inductive Value where
  | name (n : MarkedName)
  | literal (n : NumericLiteral)

namespace Value

def term : Value → Term
  | name n => n.expr
  | literal n => n.term

def chars : Value → List Char
  | name n => n.chars
  | literal n => n.chars

theorem prints (v : Value) : Prints v.term v.chars := by
  cases v with
  | name n => exact n.expr_prints
  | literal n => exact n.prints

/-- A value ends at the semicolon. -/
theorem read_unique {v w : Value} {rest rest' : List Char}
    (same : v.chars ++ ';' :: rest = w.chars ++ ';' :: rest') : v = w ∧ rest = rest' := by
  have apart : ∀ (n : MarkedName) (m : NumericLiteral) (xs ys : List Char),
      n.chars ++ xs ≠ m.chars ++ ys := by
    intro n m xs ys texts
    obtain ⟨c, cs, name, start⟩ := n.head
    obtain ⟨d, ds, number, noLetter, digits⟩ := Numeral.isLiteral_spelled m.valid
    have spelling : m.chars = d :: ds := number
    rw [name, spelling, List.cons_append, List.cons_append, List.cons.injEq] at texts
    obtain ⟨rfl, -⟩ := texts
    rcases start with rfl | letter
    · exact absurd (digits '#' (by simp)) (by decide)
    · rw [letter] at noLetter
      cases noLetter
  cases v with
  | name n =>
    cases w with
    | name m =>
      have stops : ∀ more, Stops isNameChar (';' :: more) := fun _ => rfl
      obtain ⟨rfl, rests⟩ := MarkedName.read_unique (stops _) (stops _) same
      exact ⟨rfl, (List.cons.inj rests).2⟩
    | literal m => exact absurd same (apart n m _ _)
  | literal n =>
    cases w with
    | name m => exact absurd same.symm (apart m n _ _)
    | literal m =>
      have stops : ∀ more, Stops Atom.isAtomChar (';' :: more) := fun _ => rfl
      have atoms : (Atom.literal n).chars ++ ';' :: rest = (Atom.literal m).chars ++ ';' :: rest' := same
      obtain ⟨literals, rests⟩ := Atom.read_unique (stops _) (stops _) atoms
      obtain rfl : n = m := Atom.literal.inj literals
      exact ⟨rfl, (List.cons.inj rests).2⟩

end Value

mutual

inductive Branch where
  | equation (left : MarkedName) (right : Value)
  | activation (a : Activation)

/-- The branches of an activation: one or more with a condition, and the last one without. -/
inductive Activation where
  | last (condition : MarkedName) (body otherwise : Branch)
  | cons (condition : MarkedName) (body : Branch) (more : Activation)

end

mutual

def Branch.term : Branch → Term
  | .equation left right =>
    .node (.equation .branchScope) [.node (.equation .expression)
      [.node (.equation .left) [.list [.node (.equation .leftItem) [left.term]], .truth false],
        right.term]]
  | .activation a => .node (.equation .branchIf) [.node (.equation .ifActivation) [.list a.branches]]

def Activation.branches : Activation → List Term
  | .last condition body otherwise =>
    [.node (.equation .ifBranch) [condition.expr, body.term],
      .node (.equation .ifBranch) [.absent, otherwise.term]]
  | .cons condition body more => .node (.equation .ifBranch) [condition.expr, body.term] :: more.branches

end

def Activation.term (a : Activation) : Term := .node (.equation .ifActivation) [.list a.branches]

mutual

def Branch.chars : Branch → List Char
  | .equation left right => left.chars ++ (" = ".toList ++ (right.chars ++ [';']))
  | .activation a => "if ".toList ++ a.chars

/-- The text of an activation behind its first word. -/
def Activation.chars : Activation → List Char
  | .last condition body otherwise =>
    condition.chars ++ (" then ".toList ++ (body.chars ++ ("\nelse ".toList ++ otherwise.chars)))
  | .cons condition body more =>
    condition.chars ++ (" then ".toList ++ (body.chars ++ ("\nelsif ".toList ++ more.chars)))

end

/-! ### Reading activations -/

/-- An equation does not start like an activation: no condition starts with an equals sign. -/
theorem equation_ne_activation (left condition : MarkedName) (xs ys : List Char) :
    left.chars ++ (" = ".toList ++ xs) ≠ "if ".toList ++ (condition.chars ++ ys) := by
  intro same
  obtain ⟨c, cs, start, opening⟩ := condition.head
  obtain ⟨text, pragmas, valid⟩ := left
  cases pragmas with
  | nil =>
    have blank : ∀ more, Stops isNameChar (' ' :: more) := fun _ => rfl
    have word : ∀ d ∈ "if".toList, isNameChar d = true := List.all_eq_true.mp (by rfl)
    have names : ∀ d ∈ (Identifier.mk text .absent valid).chars, isNameChar d = true :=
      fun _ => Identifier.isNameChar_of_mem
    have rests := (cut_unique names word (blank _) (blank _) same).2
    rw [start] at rests
    have equals : '=' = c := (List.cons.inj (List.cons.inj rests).2).1
    rw [← equals] at opening
    exact absurd opening (by decide)
  | cons p ps =>
    obtain ⟨ds, opened⟩ := List.head?_eq_some_iff.mp p.opened
    simp only [MarkedName.chars, MarkedName.marks, opened, List.cons_append] at same
    exact absurd (List.cons.inj same).1 (by decide)

mutual

/-- A branch ends by itself. -/
theorem Branch.read_unique (b : Branch) {b' : Branch} {rest rest' : List Char}
    (same : b.chars ++ rest = b'.chars ++ rest') : b = b' ∧ rest = rest' := by
  have starts : ∀ a : Activation, ∃ (condition : MarkedName) (more : List Char),
      a.chars = condition.chars ++ more := by
    intro a
    cases a with
    | last condition body otherwise => exact ⟨condition, _, rfl⟩
    | cons condition body more => exact ⟨condition, _, rfl⟩
  cases b with
  | equation left right =>
    cases b' with
    | equation left' right' =>
      simp only [Branch.chars, List.append_assoc] at same
      have blank : ∀ more, Stops isNameChar (" = ".toList ++ more) := fun _ => rfl
      obtain ⟨rfl, values⟩ := MarkedName.read_unique (blank _) (blank _) same
      obtain ⟨rfl, rests⟩ := Value.read_unique (List.append_cancel_left values)
      exact ⟨rfl, rests⟩
    | activation a =>
      obtain ⟨condition, more, text⟩ := starts a
      simp only [Branch.chars, text, List.append_assoc] at same
      exact absurd same (equation_ne_activation left condition _ _)
  | activation a =>
    cases b' with
    | equation left right =>
      obtain ⟨condition, more, text⟩ := starts a
      simp only [Branch.chars, text, List.append_assoc] at same
      exact absurd same.symm (equation_ne_activation left condition _ _)
    | activation a' =>
      simp only [Branch.chars, List.append_assoc] at same
      obtain ⟨rfl, rests⟩ := a.read_unique (List.append_cancel_left same)
      exact ⟨rfl, rests⟩

/-- The branch without condition ends an activation. -/
theorem Activation.read_unique (a : Activation) {a' : Activation} {rest rest' : List Char}
    (same : a.chars ++ rest = a'.chars ++ rest') : a = a' ∧ rest = rest' := by
  have blank : ∀ more, Stops isNameChar (" then ".toList ++ more) := fun _ => rfl
  cases a with
  | last condition body otherwise =>
    cases a' with
    | last condition' body' otherwise' =>
      simp only [Activation.chars, List.append_assoc] at same
      obtain ⟨rfl, bodies⟩ := MarkedName.read_unique (blank _) (blank _) same
      obtain ⟨rfl, elses⟩ := body.read_unique (List.append_cancel_left bodies)
      obtain ⟨rfl, rests⟩ := otherwise.read_unique (List.append_cancel_left elses)
      exact ⟨rfl, rests⟩
    | cons condition' body' more' =>
      simp only [Activation.chars, List.append_assoc] at same
      obtain ⟨rfl, bodies⟩ := MarkedName.read_unique (blank _) (blank _) same
      obtain ⟨rfl, elses⟩ := body.read_unique (List.append_cancel_left bodies)
      simp at elses
  | cons condition body more =>
    cases a' with
    | last condition' body' otherwise' =>
      simp only [Activation.chars, List.append_assoc] at same
      obtain ⟨rfl, bodies⟩ := MarkedName.read_unique (blank _) (blank _) same
      obtain ⟨rfl, elses⟩ := body.read_unique (List.append_cancel_left bodies)
      simp at elses
    | cons condition' body' more' =>
      simp only [Activation.chars, List.append_assoc] at same
      obtain ⟨rfl, bodies⟩ := MarkedName.read_unique (blank _) (blank _) same
      obtain ⟨rfl, elses⟩ := body.read_unique (List.append_cancel_left bodies)
      obtain ⟨rfl, rests⟩ := more.read_unique (List.append_cancel_left elses)
      exact ⟨rfl, rests⟩

end

/-! ### Printing activations -/

theorem guarded_layout (condition : MarkedName) {t : Term} {cs : List Char} (prints : Prints t cs)
    (first : Bool) : branchLayout first (Term.node (.equation .ifBranch) [condition.expr, t]).printed =
      .ok ((if first then "if " else "elsif ") ++
        String.ofList (condition.chars ++ (" then ".toList ++ cs))) := by
  have guard := condition.expr_prints.text
  have truthy : condition.expr.printed.isTruthy = true := rfl
  change (if first then do return "if " ++ (← condition.expr.printed.text) ++ " then " ++
    (← t.printed.text) else if condition.expr.printed.isTruthy then do
      return "elsif " ++ (← condition.expr.printed.text) ++ " then " ++ (← t.printed.text)
    else do return "else " ++ (← t.printed.text)) = _
  rw [guard, prints.text, truthy]
  cases first <;> simp [ok_bind, pure, Except.pure, ← String.toList_inj]

theorem otherwise_layout {t : Term} {cs : List Char} (prints : Prints t cs) :
    branchLayout false (Term.node (.equation .ifBranch) [.absent, t]).printed =
      .ok ("else " ++ String.ofList cs) := by
  change (do return "else " ++ (← t.printed.text)) = _
  rw [prints.text]
  rfl

theorem equation_prints (left : MarkedName) (right : Value) :
    Prints (Branch.equation left right).term (Branch.equation left right).chars := by
  have item : Prints (.node (.equation .leftItem) [left.term]) left.chars := by
    rw [Prints, Term.print_node]
    exact left.prints
  have lhs :
      Prints (.node (.equation .left) [.list [.node (.equation .leftItem) [left.term]],
        .truth false]) left.chars := by
    have items := join_one ", " item
    rw [Prints, Term.print_node]
    simp [Form.text, Form.isSilent, Form.layout, EquationForm.layout, Term.length, items,
      Printed.isTruthy, Term.isTruthy, ok_bind, pure, Except.pure]
  have whole : Prints (.node (.equation .expression)
      [.node (.equation .left) [.list [.node (.equation .leftItem) [left.term]], .truth false],
        right.term])
      (Branch.equation left right).chars := by
    rw [Prints, Term.print_node]
    simp [Form.text, Form.isSilent, Form.layout, EquationForm.layout, lhs.text, right.prints.text,
      ok_bind, pure, Except.pure, Branch.chars, ← String.toList_inj]
  rw [Branch.term, Prints, Term.print_node]
  exact whole

mutual

theorem Branch.prints (b : Branch) : Prints b.term b.chars := by
  cases b with
  | equation left right => exact equation_prints left right
  | activation a =>
    have inside :
        Prints (.node (.equation .ifActivation) [.list a.branches]) ("if ".toList ++ a.chars) := by
      obtain ⟨p, ps, head, tail, printed, first, rest, joined⟩ := a.layout true
      rw [Prints, Term.print_node]
      change branchesLayout (Term.list a.branches).printed = _
      rw [branchesLayout, items_printed, ok_bind, printed]
      simp only [first, rest, ok_bind]
      change Except.ok ("\n".intercalate ((_ ++ head) :: tail)) = _
      rw [joined, String.ofList_append, String.ofList_toList]
      rfl
    rw [Branch.term, Prints, Term.print_node]
    exact inside

theorem Activation.layout (a : Activation) (isFirst : Bool) :
    ∃ p ps head tail, a.branches.map Term.printed = p :: ps ∧
      branchLayout isFirst p = .ok ((if isFirst then "if " else "elsif ") ++ head) ∧
    ps.mapM (branchLayout false) = .ok tail ∧
    ∀ front : String, "\n".intercalate ((front ++ head) :: tail) = front ++ String.ofList a.chars := by
  cases a with
  | last condition body otherwise =>
    refine ⟨_, _, _, ["else " ++ String.ofList otherwise.chars], rfl,
      guarded_layout condition body.prints isFirst, ?_, ?_⟩
    · rw [List.map_cons, List.mapM_cons, otherwise_layout otherwise.prints]
      rfl
    · intro front
      rw [String.intercalate_cons_cons, String.intercalate_singleton, ← String.toList_inj]
      simp [Activation.chars]
  | cons condition body more =>
    obtain ⟨p, ps, head, tail, printed, first, rest, joined⟩ := more.layout false
    refine ⟨_, _, _, ("elsif " ++ head) :: tail, rfl, guarded_layout condition body.prints isFirst,
      ?_, ?_⟩
    · rw [printed, List.mapM_cons, first, ok_bind, rest]
      rfl
    · intro front
      rw [String.intercalate_cons_cons, joined, ← String.toList_inj]
      simp [Activation.chars]

end

theorem Activation.prints (a : Activation) : Prints a.term ("if ".toList ++ a.chars) := by
  have branch := (Branch.activation a).prints
  rw [Branch.term, Prints, Term.print_node] at branch
  exact branch

/-! ### Trees of activations -/

def MarkedName.tree (n : MarkedName) : ParseTree :=
  .identifier (.text n.text) (.list (n.pragmas.map fun p => .text p.text))

inductive ValueTree : ParseTree → Value → Prop
  | name (n : MarkedName) (fields : List (String × ParseTree)) :
      ValueTree (.node (some "EId") [.list [n.tree]] fields) (.name n)
  | literal (n : NumericLiteral) (fields : List (String × ParseTree)) :
      ValueTree (.node (some "ENumLiteral") [.text n.text] fields) (.literal n)

/-- The trees of the equation of one identifier. Items behind the two sides are positions. -/
inductive EquationTree : ParseTree → MarkedName → Value → Prop
  | mk {tag : String} {left : MarkedName} {right : Value} {expr : ParseTree}
      (whole : tag ≠ "LhsEmpty" ∧ tag ≠ "LhsWithRest") (isRight : ValueTree expr right)
      (positions : List ParseTree) (item lhs fields : List (String × ParseTree)) :
      EquationTree (.node (some "Equation")
        (.node (some tag) [.list [.node (some "LhsId") [left.tree] item]] lhs :: expr :: positions)
          fields) left right

mutual

inductive BranchTree : ParseTree → Branch → Prop
  | equation {tree : ParseTree} {left : MarkedName} {right : Value}
      (isTree : EquationTree tree left right) (inner fields : List (String × ParseTree)) :
      BranchTree (.node (some "IfteDataDef") [.node (some "SDEquation") [tree] inner] fields)
        (.equation left right)
  | activation {tag : String} {tree : ParseTree} {a : Activation} (other : tag ≠ "IfteDataDef")
      (isTree : ActivationTree tree a) (fields : List (String × ParseTree)) :
      BranchTree (.node (some tag) [tree] fields) (.activation a)

inductive ActivationTree : ParseTree → Activation → Prop
  | mk {tag : Option String} {items guarded : List ParseTree} {fields : List (String × ParseTree)}
    {otherwise : ParseTree} {a : Activation}
    (guards : fields.lookup "IfThenElif" = some (.list guarded))
    (rest : fields.lookup "Else" = some otherwise) (areTrees : BranchTrees guarded otherwise a) :
    ActivationTree (.node tag items fields) a

inductive BranchTrees : List ParseTree → ParseTree → Activation → Prop
  | last {condition : MarkedName} {guard otherwise : ParseTree} {body other : Branch}
      (isGuard : GuardTree guard condition body) (isOther : BranchTree otherwise other) :
      BranchTrees [guard] otherwise (.last condition body other)
  | cons {condition : MarkedName} {guard otherwise : ParseTree} {guarded : List ParseTree}
    {body : Branch} {more : Activation} (isGuard : GuardTree guard condition body)
    (areTrees : BranchTrees guarded otherwise more) :
    BranchTrees (guard :: guarded) otherwise (.cons condition body more)

inductive GuardTree : ParseTree → MarkedName → Branch → Prop
  | mk {tag : Option String} {condition : MarkedName} {tree expr position : ParseTree} {body : Branch}
      (isExpr : ValueTree expr (.name condition)) (isBody : BranchTree tree body)
        (positions more : List ParseTree)
      (inner fields : List (String × ParseTree)) :
      GuardTree (.node tag
        (.node (some "ExprWithSP") (expr :: position :: positions) inner :: tree :: more) fields)
          condition body

end

theorem identifier_converts (n : MarkedName) : Convert.identifier n.tree = pure n.term := by
  have pragmas : (n.pragmas.map fun p => ParseTree.text p.text).map Term.ofTree = n.pragmaTerms := by
    simp [MarkedName.pragmaTerms, Term.ofTree]
  have made : ∀ terms : List Term,
      make (.name .identifier) [.text n.text, .list terms, .absent, .truth false] =
        pure (.node (.name .identifier) [.text n.text, .list terms, .absent, .truth false]) := by
    intro terms
    cases terms <;> rfl
  rw [MarkedName.tree, Convert.identifier]
  change make (.name .identifier) [.text n.text, .list (List.map Term.ofTree _), .absent,
    .truth false] = _
  rw [pragmas, made]
  rfl

theorem each_one {f : ParseTree → Conversion Term} {tree : ParseTree} {t : Term}
    (converts : f tree = pure t) : Convert.each f (.list [tree]) = pure (.list [t]) := by
  rw [Convert.each]
  change (do return Term.list (← [tree].mapM f)) = _
  rw [List.mapM_cons, converts]
  rfl

theorem ValueTree.converts {tree : ParseTree} {v : Value} (isTree : ValueTree tree v) {n : Nat}
    (enough : 0 < n) : convertUpTo n .expr tree = pure v.term := by
  obtain ⟨levels, rfl⟩ := Nat.exists_eq_succ_of_ne_zero (Nat.pos_iff_ne_zero.mp enough)
  cases isTree with
  | literal m fields => rfl
  | name m fields =>
    change (do make (.expr .path) [← Convert.path (.list [m.tree])]) = _
    rw [Convert.path, each_one (identifier_converts m)]
    rfl

theorem EquationTree.converts {tree : ParseTree} {left : MarkedName} {right : Value}
    (isTree : EquationTree tree left right) {n : Nat} (enough : 1 < n) :
      convertUpTo n .equation tree =
        pure (.node (.equation .expression)
          [.node (.equation .left) [.list [.node (.equation .leftItem) [left.term]], .truth false],
            right.term]) := by
  obtain ⟨levels, rfl⟩ := Nat.exists_eq_succ_of_ne_zero (by omega : n ≠ 0)
  cases isTree with
  | mk whole isRight positions item lhs fields =>
    rename_i tag expr
    have leftItem : Convert.leftItem (.node (some "LhsId") [left.tree] item) =
        pure (.node (.equation .leftItem) [left.term]) := by
      change (do make (.equation .leftItem) [← Convert.identifier left.tree]) = _
      rw [identifier_converts]
      rfl
    have isLeft : Convert.left (.node (some tag) [.list [.node (some "LhsId") [left.tree] item]] lhs) =
        pure (.node (.equation .left) [.list [.node (.equation .leftItem) [left.term]],
          .truth false]) := by
      rw [Convert.left, tag_node, pure_bind]
      split
      · exact absurd rfl whole.1
      · rw [item_node, pure_bind, each_one leftItem, pure_bind, beq_false_of_ne whole.2]
        rfl
    change (do
      let lhs ← Convert.left (.node (some tag) [.list [.node (some "LhsId") [left.tree] item]] lhs)
      make (.equation .expression) [lhs, ← convertUpTo levels .expr expr]) = _
    rw [isLeft, pure_bind, isRight.converts (by omega)]
    rfl

/-- What the converter of activations does with its branches. -/
def convertBranches (self : Convert) (guarded : List ParseTree) (otherwise : ParseTree) :
    Conversion (List Term) := do
  let branches ← guarded.mapM (activationBranch self)
  let last ← Convert.branch self otherwise
  let last ← make (.equation .ifBranch) [.absent, last]
  return branches ++ [last]

theorem convertBranches_cons {self : Convert} {guard : ParseTree} {t : Term}
    (converts : activationBranch self guard = pure t) (guarded : List ParseTree)
    (otherwise : ParseTree) :
    convertBranches self (guard :: guarded) otherwise =
      (do return t :: (← convertBranches self guarded otherwise)) := by
  simp only [convertBranches, List.mapM_cons, converts, pure_bind, bind_assoc, List.cons_append]

theorem ifActivation_eq {self : Convert} {tag : Option String} {items guarded : List ParseTree}
    {fields : List (String × ParseTree)} {otherwise : ParseTree}
    (guards : fields.lookup "IfThenElif" = some (.list guarded))
    (rest : fields.lookup "Else" = some otherwise) :
    Convert.ifActivation self (.node tag items fields) =
      (do make (.equation .ifActivation) [.list (← convertBranches self guarded otherwise)]) := by
  rw [Convert.ifActivation, field_node guards, field_node rest, convertBranches]
  simp only [pure_bind, bind_assoc]
  rfl

theorem branch_eq {self : Convert} {tag : String} (other : tag ≠ "IfteDataDef") (tree : ParseTree)
    (fields : List (String × ParseTree)) :
    Convert.branch self (.node (some tag) [tree] fields) =
      (do make (.equation .branchIf) [← self .ifActivation tree]) := by
  rw [Convert.branch, tag_node, pure_bind]
  split
  · exact absurd rfl other
  · rw [item_node, pure_bind]

theorem GuardTree.converts {guard : ParseTree} {condition : MarkedName} {body : Branch}
    (isGuard : GuardTree guard condition body) {n : Nat} (enough : guard.height ≤ n + 1)
    (converts : ∀ tree, BranchTree tree body → tree.height ≤ n + 1 →
      Convert.branch (convertUpTo n) tree = pure body.term) :
    activationBranch (convertUpTo n) guard =
      pure (.node (.equation .ifBranch) [condition.expr, body.term]) := by
  cases isGuard with
  | mk isExpr isBody positions more inner fields =>
    rename_i tree expr position
    simp only [ParseTree.height, ParseTree.heights] at enough
    change (do
      let condition ← convertUpTo n .expr expr
      make (.equation .ifBranch) [condition, ← Convert.branch (convertUpTo n) tree]) = _
    rw [isExpr.converts (by omega), pure_bind, converts tree isBody (by omega)]
    rfl

theorem ActivationTree.converts_of_branches {tree : ParseTree} {a : Activation}
    (isTree : ActivationTree tree a) {n : Nat} (enough : tree.height ≤ n)
    (converts : ∀ guarded otherwise levels, BranchTrees guarded otherwise a →
      ParseTree.heights guarded ≤ levels + 1 → otherwise.height ≤ levels + 1 →
      convertBranches (convertUpTo levels) guarded otherwise = pure a.branches) :
    convertUpTo n .ifActivation tree = pure a.term := by
  cases isTree with
  | mk guards rest areTrees =>
    have guardedHeight := ParseTree.height_le_fieldHeights guards
    have restHeight := ParseTree.height_le_fieldHeights rest
    simp only [ParseTree.height] at enough guardedHeight
    obtain ⟨levels, rfl⟩ : ∃ levels, n = levels + 1 := ⟨n - 1, by omega⟩
    change Convert.ifActivation (convertUpTo levels) _ = _
    rw [ifActivation_eq guards rest, converts _ _ levels areTrees (by omega) (by omega)]
    rfl

mutual

theorem Branch.converts (b : Branch) {tree : ParseTree} (isTree : BranchTree tree b) {n : Nat}
    (enough : tree.height ≤ n + 1) : Convert.branch (convertUpTo n) tree = pure b.term := by
  cases b with
  | equation left right =>
    cases isTree with
    | equation isEquation inner fields =>
      rename_i tree
      obtain ⟨levels, rfl⟩ : ∃ levels, n = levels + 1 := by
        simp only [ParseTree.height, ParseTree.heights] at enough
        exact ⟨n - 1, by omega⟩
      have deep : 1 < levels := by
        cases isEquation
        simp only [ParseTree.height, ParseTree.heights] at enough
        omega
      change (do make (.equation .branchScope) [← convertUpTo levels .equation tree]) = _
      rw [isEquation.converts deep]
      rfl
  | activation a =>
    cases isTree with
    | activation other isActivation fields =>
      simp only [ParseTree.height, ParseTree.heights] at enough
      rw [branch_eq other, isActivation.converts_of_branches (by omega) fun _ _ _ areTrees =>
        a.converts areTrees]
      rfl

theorem Activation.converts (a : Activation) {guarded : List ParseTree} {otherwise : ParseTree}
    (areTrees : BranchTrees guarded otherwise a) {n : Nat} (enough : ParseTree.heights guarded ≤ n + 1)
    (enough' : otherwise.height ≤ n + 1) :
    convertBranches (convertUpTo n) guarded otherwise = pure a.branches := by
  cases a with
  | last condition body other =>
    cases areTrees with
    | last isGuard isOther =>
      simp only [ParseTree.heights] at enough
      rw [convertBranches_cons (isGuard.converts (by omega) fun _ isBody fewer =>
        body.converts isBody fewer), convertBranches, List.mapM_nil, pure_bind,
        other.converts isOther enough']
      rfl
  | cons condition body more =>
    cases areTrees with
    | cons isGuard areTrees =>
      simp only [ParseTree.heights] at enough
      rw [convertBranches_cons (isGuard.converts (by omega) fun _ isBody fewer =>
        body.converts isBody fewer), more.converts areTrees (by omega) enough']
      rfl

end

theorem ActivationTree.converts {tree : ParseTree} {a : Activation} (isTree : ActivationTree tree a)
    (reader : Reader) (s : Reading) :
    perform (convert .ifActivation tree) reader s = (.ok a.term, s) := by
  rw [convert, perform_bind_ok (perform_read reader s),
    isTree.converts_of_branches (height_le_levelsFor reader tree) fun _ _ _ areTrees =>
      a.converts areTrees]
  rfl

/-! Every activation has trees. -/

def Value.tree : Value → ParseTree
  | name n => .node (some "EId") [.list [n.tree]] []
  | literal n => .node (some "ENumLiteral") [.text n.text] []

def guardTree (condition : MarkedName) (body : ParseTree) : ParseTree :=
  .node none [.node (some "ExprWithSP") [(Value.name condition).tree, .absent] [], body] []

mutual

def Branch.tree : Branch → ParseTree
  | .equation left right =>
    .node (some "IfteDataDef") [.node (some "SDEquation") [.node (some "Equation")
      [.node (some "LhsList") [.list [.node (some "LhsId") [left.tree] []]] [], right.tree,
        .absent] []] []] []
  | .activation a =>
    .node (some "IfteBlock") [.node none [] [("IfThenElif", .list a.guards), ("Else", a.lastTree)]] []

def Activation.guards : Activation → List ParseTree
  | .last condition body _ => [guardTree condition body.tree]
  | .cons condition body more => guardTree condition body.tree :: more.guards

def Activation.lastTree : Activation → ParseTree
  | .last _ _ otherwise => otherwise.tree
  | .cons _ _ more => more.lastTree

end

def Activation.tree (a : Activation) : ParseTree :=
  .node none [] [("IfThenElif", .list a.guards), ("Else", a.lastTree)]

theorem valueTree_tree (v : Value) : ValueTree v.tree v := by
  cases v with
  | name n => exact .name n []
  | literal n => exact .literal n []

mutual

theorem branchTree_tree (b : Branch) : BranchTree b.tree b := by
  cases b with
  | equation left right =>
    exact .equation (.mk (by decide) (valueTree_tree right) [.absent] [] [] []) [] []
  | activation a => exact .activation (by decide) (.mk rfl rfl (branchTrees_tree a)) []

theorem branchTrees_tree (a : Activation) : BranchTrees a.guards a.lastTree a := by
  cases a with
  | last condition body otherwise =>
    exact .last (.mk (valueTree_tree (.name condition)) (branchTree_tree body) [] [] [] [])
      (branchTree_tree otherwise)
  | cons condition body more =>
    exact .cons (.mk (valueTree_tree (.name condition)) (branchTree_tree body) [] [] [] [])
      (branchTrees_tree more)

end

/-- Every activation of this form is converted and has a text, and equal texts are those of equal
activations: the same conditions and the same equations, nested in the same way. -/
theorem activation_print_eq_iff {tree tree' : ParseTree} {a b : Activation}
    (isTree : ActivationTree tree a) (isTree' : ActivationTree tree' b) (reader reader' : Reader)
    (s s' : Reading) :
    ∃ t u, perform (convert .ifActivation tree) reader s = (.ok t, s) ∧
      perform (convert .ifActivation tree') reader' s' = (.ok u, s') ∧
      (∃ text, t.print = .ok text) ∧ (t.print = u.print ↔ a = b) ∧ (t = u ↔ a = b) := by
  have told : a.term.print = b.term.print ↔ a = b := by
    rw [a.prints.print_eq_iff b.prints]
    constructor
    · intro same
      exact (a.read_unique (congrArg (· ++ []) (List.append_cancel_left same))).1
    · rintro rfl
      rfl
  refine ⟨a.term, b.term, isTree.converts reader s, isTree'.converts reader' s', ⟨_, a.prints⟩, told, ?_⟩
  constructor
  · intro same
    exact told.mp (congrArg Term.print same)
  · rintro rfl
    rfl

def MarkedName.plain (text : String) (valid : Name.isIdentifier text = true) : MarkedName :=
  ⟨text, [], valid⟩

def markedCondition : MarkedName := ⟨"d", [⟨"#pragma p #end", rfl, by decide, by decide⟩], by decide⟩

def copyEquation : Branch := .equation (.plain "x" (by decide)) (.name (.plain "u" (by decide)))

def numberEquation : Branch := .equation (.plain "y" (by decide)) (.literal ⟨"1", by decide⟩)

def nestedInGuard : Activation :=
  .last (.plain "e" (by decide)) (.activation (.last markedCondition copyEquation numberEquation))
    numberEquation

def nestedInLast : Activation :=
  .last (.plain "e" (by decide)) copyEquation
    (.activation (.last markedCondition numberEquation numberEquation))

theorem nesting_is_told :
    ActivationTree nestedInGuard.tree nestedInGuard ∧ ActivationTree nestedInLast.tree nestedInLast ∧
      ∃ t u, perform (convert .ifActivation nestedInGuard.tree) Reader.none {} = (.ok t, {}) ∧
        perform (convert .ifActivation nestedInLast.tree) Reader.none {} = (.ok u, {}) ∧
        (∃ text, t.print = .ok text) ∧ (t.print = u.print ↔ nestedInGuard = nestedInLast) ∧
        (t = u ↔ nestedInGuard = nestedInLast) := by
  have guarded : ActivationTree nestedInGuard.tree nestedInGuard :=
    .mk rfl rfl (branchTrees_tree nestedInGuard)
  have last : ActivationTree nestedInLast.tree nestedInLast :=
    .mk rfl rfl (branchTrees_tree nestedInLast)
  exact ⟨guarded, last, activation_print_eq_iff guarded last Reader.none Reader.none {} {}⟩

end SwanModel.Printing
