import SwanModel.Proofs.Printing.Words

/-!
# Operator expressions and their texts

No parentheses are printed around operands. Every expression is regrouped into a line, in which each
operator takes all that follows it, and a line can be told from its text.
-/

namespace SwanModel.Printing

/-- What stands between two operands: the sign of a binary operator, or the caret in front of the
size of an array. -/
inductive Link where
  | sign (op : BinaryOp)
  | caret
deriving DecidableEq

def Link.chars : Link → List Char
  | sign op => ' ' :: (op.text.toList ++ [' '])
  | caret => ['^']

def reserved : List (List Char) :=
  (UnaryOp.all.map fun op => op.text.toList) ++ (BinaryOp.all.map fun op => op.text.toList) ++
    ["if".toList, "then".toList, "else".toList]

structure Operand where
  atom : Atom
  free : atom.chars ∉ reserved

def Operand.bare (x : Operand) : Operand := ⟨x.atom.bare, by rw [Atom.chars_bare]; exact x.free⟩

/-- Expressions of unary and binary operators, arrays of one repeated value, and conditional
expressions. -/
inductive Formula where
  | operand (x : Operand)
  | unary (op : UnaryOp) (f : Formula)
  | joined (link : Link) (f g : Formula)
  | conditional (c t e : Formula)

namespace Formula

def term : Formula → Term
  | operand x => x.atom.term
  | unary op f => .node (.expr .unary) [.constant (.unaryOp op), f.term]
  | joined (.sign op) f g => .node (.expr .binary) [.constant (.binaryOp op), f.term, g.term]
  | joined .caret f g => .node (.expr .makeArray) [f.term, g.term]
  | conditional c t e => .node (.expr .conditional) [c.term, t.term, e.term]

def chars : Formula → List Char
  | operand x => x.atom.chars
  | unary op f => op.text.toList ++ ' ' :: f.chars
  | joined link f g => f.chars ++ (link.chars ++ g.chars)
  | conditional c t e =>
    "if ".toList ++ (c.chars ++ (" then ".toList ++ (t.chars ++ (" else ".toList ++ e.chars))))

theorem prints (f : Formula) : Prints f.term f.chars := by
  induction f with
  | operand x => exact x.atom.prints
  | unary op f ih =>
    rw [Prints, term, Term.print_node]
    simp [Form.text, Form.isSilent, Form.layout, ExprForm.layout, unarySign, ih.text, ok_bind,
      chars, pure, Except.pure, ← String.toList_inj]
  | joined link f g ihf ihg =>
    cases link <;> rw [Prints, term, Term.print_node] <;>
      simp [Form.text, Form.isSilent, Form.layout, ExprForm.layout, binarySign, ihf.text, ihg.text,
        ok_bind, chars, Link.chars, pure, Except.pure, ← String.toList_inj]
  | conditional c t e ihc iht ihe =>
    rw [Prints, term, Term.print_node]
    simp [Form.text, Form.isSilent, Form.layout, ExprForm.layout, ihc.text, iht.text, ihe.text,
      ok_bind, chars, pure, Except.pure, ← String.toList_inj]

end Formula

/-! ### Regrouping -/

/-- Two expressions differ by how operands are grouped, and by comments. -/
inductive Regrouped : Formula → Formula → Prop
  | refl (f : Formula) : Regrouped f f
  | symm {f g : Formula} (fg : Regrouped f g) : Regrouped g f
  | trans {f g h : Formula} (fg : Regrouped f g) (gh : Regrouped g h) : Regrouped f h
  | operand {x y : Operand} (same : x.bare = y.bare) : Regrouped (.operand x) (.operand y)
  | unary (op : UnaryOp) {f g : Formula} (fg : Regrouped f g) : Regrouped (.unary op f) (.unary op g)
  | joined (link : Link) {f f' g g' : Formula} (ff : Regrouped f f') (gg : Regrouped g g') :
      Regrouped (.joined link f g) (.joined link f' g')
  | conditional {c c' t t' e e' : Formula} (cc : Regrouped c c') (tt : Regrouped t t')
    (ee : Regrouped e e') : Regrouped (.conditional c t e) (.conditional c' t' e')
  -- an operator may take the operand of the one in front of it
  | afterJoined (first second : Link) (f g h : Formula) :
      Regrouped (.joined second (.joined first f g) h) (.joined first f (.joined second g h))
  | afterUnary (op : UnaryOp) (link : Link) (f g : Formula) :
      Regrouped (.joined link (.unary op f) g) (.unary op (.joined link f g))
  | afterElse (link : Link) (c t e f : Formula) :
      Regrouped (.joined link (.conditional c t e) f) (.conditional c t (.joined link e f))

theorem Operand.chars_of_bare {x y : Operand} (same : x.bare = y.bare) : x.atom.chars = y.atom.chars :=
  Atom.bare_eq_iff.mp (congrArg Operand.atom same)

theorem Operand.bare_of_chars {x y : Operand} (same : x.atom.chars = y.atom.chars) :
    x.bare = y.bare := by
  have atoms := Atom.bare_eq_iff.mpr same
  simp [bare, atoms]

theorem Regrouped.chars_eq {f g : Formula} (regrouped : Regrouped f g) : f.chars = g.chars := by
  induction regrouped with
  | refl f => rfl
  | symm _ ih => exact ih.symm
  | trans _ _ ihf ihg => exact ihf.trans ihg
  | operand same => exact Operand.chars_of_bare same
  | unary op _ ih => rw [Formula.chars, Formula.chars, ih]
  | joined link _ _ ihf ihg => rw [Formula.chars, Formula.chars, ihf, ihg]
  | conditional _ _ _ ihc iht ihe => rw [Formula.chars, Formula.chars, ihc, iht, ihe]
  | afterJoined first second f g h => simp [Formula.chars, List.append_assoc]
  | afterUnary op link f g => simp [Formula.chars, List.append_assoc]
  | afterElse link c t e f => simp [Formula.chars, List.append_assoc]

/-! ### Lines -/

/-- An expression in which every operator takes all that follows it. -/
inductive Line where
  | last (x : Operand)
  | linked (x : Operand) (link : Link) (rest : Line)
  | unary (op : UnaryOp) (rest : Line)
  | conditional (c t e : Line)

namespace Line

def formula : Line → Formula
  | last x => .operand x
  | linked x link rest => .joined link (.operand x) rest.formula
  | unary op rest => .unary op rest.formula
  | conditional c t e => .conditional c.formula t.formula e.formula

def append (line : Line) (link : Link) (after : Line) : Line :=
  match line with
  | last x => linked x link after
  | linked x first rest => linked x first (rest.append link after)
  | unary op rest => unary op (rest.append link after)
  | conditional c t e => conditional c t (e.append link after)

theorem append_regrouped (line : Line) (link : Link) (after : Line) :
    Regrouped (.joined link line.formula after.formula) (line.append link after).formula := by
  induction line with
  | last x => exact .refl _
  | linked x first rest ih => exact .trans (.afterJoined first link _ _ _) (.joined first (.refl _) ih)
  | unary op rest ih => exact .trans (.afterUnary op link _ _) (.unary op ih)
  | conditional c t e _ _ ih =>
    exact .trans (.afterElse link _ _ _ _) (.conditional (.refl _) (.refl _) ih)

end Line

/-- The line that an expression is regrouped into. -/
def Formula.line : Formula → Line
  | operand x => .last x
  | unary op f => .unary op f.line
  | joined link f g => f.line.append link g.line
  | conditional c t e => .conditional c.line t.line e.line

theorem Formula.line_regrouped (f : Formula) : Regrouped f f.line.formula := by
  induction f with
  | operand x => exact .refl _
  | unary op f ih => exact .unary op ih
  | joined link f g ihf ihg => exact .trans (.joined link ihf ihg) (f.line.append_regrouped link g.line)
  | conditional c t e ihc iht ihe => exact .conditional ihc iht ihe

/-! ### Reading lines

A word goes up to a blank or a caret. The first word of a line tells its kind, and a line is
followed by nothing, by `then` or by `else`. -/

def isWordChar (c : Char) : Bool := c != ' ' && c != '^'

theorem isWordChar_of_isAtomChar {c : Char} (inside : Atom.isAtomChar c = true) :
    isWordChar c = true := by
  have blank : Atom.isAtomChar ' ' = false := by decide
  have caret : Atom.isAtomChar '^' = false := by decide
  simp only [isWordChar, Bool.and_eq_true, bne_iff_ne]
  constructor
  · rintro rfl
    simp [blank] at inside
  · rintro rfl
    simp [caret] at inside

theorem Operand.isWord (x : Operand) : ∀ c ∈ x.atom.chars, isWordChar c = true :=
  fun _ member => isWordChar_of_isAtomChar (Atom.isAtomChar_of_mem member)

theorem reserved_isWord {word : List Char} (known : word ∈ reserved) : ∀ c ∈ word, isWordChar c = true :=
  List.all_eq_true.mp (List.all_eq_true.mp (by rfl : reserved.all (·.all isWordChar) = true) word known)

theorem unary_reserved (op : UnaryOp) : op.text.toList ∈ reserved := by
  cases op <;> simp [reserved, UnaryOp.all]

theorem binary_reserved (op : BinaryOp) : op.text.toList ∈ reserved := by
  cases op <;> simp [reserved, BinaryOp.all]

theorem if_reserved : "if".toList ∈ reserved := by decide

theorem Operand.ne_reserved (x : Operand) {word : List Char} (known : word ∈ reserved) :
    x.atom.chars ≠ word := by
  rintro rfl
  exact x.free known

inductive Follows : List Char → Prop
  | nothing : Follows []
  | thenBranch (rest : List Char) : Follows (" then ".toList ++ rest)
  | elseBranch (rest : List Char) : Follows (" else ".toList ++ rest)

theorem Follows.stops {rest : List Char} (follows : Follows rest) : Stops isWordChar rest := by
  cases follows with
  | nothing => trivial
  | thenBranch rest => rfl
  | elseBranch rest => rfl

theorem Link.stops (link : Link) (rest : List Char) : Stops isWordChar (link.chars ++ rest) := by
  cases link <;> rfl

theorem unary_of_text (op : UnaryOp) :
    UnaryOp.all.find? (fun other => other.text.toList == op.text.toList) = some op := by
  cases op <;> rfl

theorem binary_of_text (op : BinaryOp) :
    BinaryOp.all.find? (fun other => other.text.toList == op.text.toList) = some op := by
  cases op <;> rfl

theorem unaryText_inj {op other : UnaryOp} (same : op.text.toList = other.text.toList) : op = other := by
  have found := unary_of_text op
  rw [same, unary_of_text other] at found
  exact (Option.some.inj found).symm

theorem binaryText_inj {op other : BinaryOp} (same : op.text.toList = other.text.toList) :
    op = other := by
  have found := binary_of_text op
  rw [same, binary_of_text other] at found
  exact (Option.some.inj found).symm

/-- The sign of a binary operator ends at the blank behind it. -/
theorem sign_unique {word word' rest rest' : List Char} (known : word ∈ reserved)
    (known' : word' ∈ reserved) (same : word ++ ' ' :: rest = word' ++ ' ' :: rest') :
    word = word' ∧ rest = rest' := by
  have blank : ∀ more, Stops isWordChar (' ' :: more) := fun _ => rfl
  obtain ⟨words, rests⟩ :=
    cut_unique (reserved_isWord known) (reserved_isWord known') (blank _) (blank _) same
  exact ⟨words, (List.cons.inj rests).2⟩

theorem Link.read_unique {link link' : Link} {rest rest' : List Char}
    (same : link.chars ++ rest = link'.chars ++ rest') : link = link' ∧ rest = rest' := by
  cases link with
  | caret =>
    cases link' with
    | caret => exact ⟨rfl, (List.cons.inj same).2⟩
    | sign op' => simp [chars] at same
  | sign op =>
    cases link' with
    | caret => simp [chars] at same
    | sign op' =>
      simp only [chars, List.cons_append, List.append_assoc, List.nil_append, List.cons.injEq,
        true_and] at same
      obtain ⟨words, rests⟩ := sign_unique (binary_reserved op) (binary_reserved op') same
      exact ⟨congrArg Link.sign (binaryText_inj words), rests⟩

theorem Follows.not_link {link : Link} {rest : List Char} : ¬Follows (link.chars ++ rest) := by
  intro follows
  have noSign : ∀ op : BinaryOp, op.text.toList ≠ "then".toList ∧ op.text.toList ≠ "else".toList := by
    intro op
    cases op <;> decide
  generalize text : link.chars ++ rest = whole at follows
  cases link with
  | caret => cases follows <;> simp [Link.chars] at text
  | sign op =>
    simp only [Link.chars, List.cons_append, List.append_assoc, List.nil_append] at text
    cases follows with
    | nothing => cases text
    | thenBranch more =>
      have words := sign_unique (binary_reserved op) (by decide : "then".toList ∈ reserved)
        (List.cons.inj text).2
      exact (noSign op).1 words.1
    | elseBranch more =>
      have words := sign_unique (binary_reserved op) (by decide : "else".toList ∈ reserved)
        (List.cons.inj text).2
      exact (noSign op).2 words.1

namespace Line

def word : Line → List Char
  | last x => x.atom.chars
  | linked x _ _ => x.atom.chars
  | unary op _ => op.text.toList
  | conditional _ _ _ => "if".toList

def behind : Line → List Char
  | last _ => []
  | linked _ link rest => link.chars ++ rest.formula.chars
  | unary _ rest => ' ' :: rest.formula.chars
  | conditional c t e =>
    ' ' :: (c.formula.chars ++
      (" then ".toList ++ (t.formula.chars ++ (" else ".toList ++ e.formula.chars))))

theorem chars_eq (l : Line) : l.formula.chars = l.word ++ l.behind := by
  cases l with
  | last x => exact (List.append_nil _).symm
  | linked x link rest => rfl
  | unary op rest => rfl
  | conditional c t e => rfl

theorem word_isWord (l : Line) : ∀ c ∈ l.word, isWordChar c = true := by
  cases l with
  | last x => exact x.isWord
  | linked x link rest => exact x.isWord
  | unary op rest => exact reserved_isWord (unary_reserved op)
  | conditional c t e => exact reserved_isWord if_reserved

theorem stops_behind (l : Line) {rest : List Char} (follows : Follows rest) :
    Stops isWordChar (l.behind ++ rest) := by
  cases l with
  | last x => exact follows.stops
  | linked x link more =>
    rw [behind, List.append_assoc]
    exact link.stops _
  | unary op more => rfl
  | conditional c t e => rfl

theorem first_word {l m : Line} {rest rest' : List Char} (follows : Follows rest)
    (follows' : Follows rest') (same : l.formula.chars ++ rest = m.formula.chars ++ rest') :
    l.word = m.word ∧ l.behind ++ rest = m.behind ++ rest' := by
  rw [chars_eq, chars_eq, List.append_assoc, List.append_assoc] at same
  exact cut_unique l.word_isWord m.word_isWord (l.stops_behind follows) (m.stops_behind follows') same

/-- A line can be told from its text, up to comments. -/
theorem read_unique {l m : Line} {rest rest' : List Char} (follows : Follows rest)
    (follows' : Follows rest') (same : l.formula.chars ++ rest = m.formula.chars ++ rest') :
    Regrouped l.formula m.formula ∧ rest = rest' := by
  have noIf : ∀ op : UnaryOp, op.text.toList ≠ "if".toList := by
    intro op
    cases op <;> decide
  induction l generalizing m rest rest' with
  | last x =>
    obtain ⟨words, behinds⟩ := first_word follows follows' same
    cases m with
    | last y => exact ⟨.operand (Operand.bare_of_chars words), behinds⟩
    | linked y link more =>
      have goesOn : rest = link.chars ++ (more.formula.chars ++ rest') := by
        rw [← List.append_assoc]
        exact behinds
      rw [goesOn] at follows
      exact absurd follows Follows.not_link
    | unary op more => exact absurd words (x.ne_reserved (unary_reserved op))
    | conditional c t e => exact absurd words (x.ne_reserved if_reserved)
  | linked x link more ih =>
    obtain ⟨words, behinds⟩ := first_word follows follows' same
    cases m with
    | last y =>
      have goesOn : rest' = link.chars ++ (more.formula.chars ++ rest) := by
        rw [← List.append_assoc]
        exact behinds.symm
      rw [goesOn] at follows'
      exact absurd follows' Follows.not_link
    | linked y link' more' =>
      rw [behind, behind, List.append_assoc, List.append_assoc] at behinds
      obtain ⟨rfl, texts⟩ := Link.read_unique behinds
      obtain ⟨regrouped, rests⟩ := ih follows follows' texts
      exact ⟨.joined link (.operand (Operand.bare_of_chars words)) regrouped, rests⟩
    | unary op more' => exact absurd words (x.ne_reserved (unary_reserved op))
    | conditional c t e => exact absurd words (x.ne_reserved if_reserved)
  | unary op more ih =>
    obtain ⟨words, behinds⟩ := first_word follows follows' same
    cases m with
    | last y => exact absurd words.symm (y.ne_reserved (unary_reserved op))
    | linked y link more' => exact absurd words.symm (y.ne_reserved (unary_reserved op))
    | unary op' more' =>
      obtain rfl := unaryText_inj words
      obtain ⟨regrouped, rests⟩ := ih follows follows' (List.cons.inj behinds).2
      exact ⟨.unary op regrouped, rests⟩
    | conditional c t e => exact absurd words (noIf op)
  | conditional c t e ihc iht ihe =>
    obtain ⟨words, behinds⟩ := first_word follows follows' same
    cases m with
    | last y => exact absurd words.symm (y.ne_reserved if_reserved)
    | linked y link more' => exact absurd words.symm (y.ne_reserved if_reserved)
    | unary op more' => exact absurd words.symm (noIf op)
    | conditional c' t' e' =>
      simp only [behind, List.cons_append, List.append_assoc, List.cons.injEq, true_and] at behinds
      obtain ⟨cc, thens⟩ := ihc (.thenBranch _) (.thenBranch _) behinds
      obtain ⟨tt, elses⟩ := iht (.elseBranch _) (.elseBranch _) (List.append_cancel_left thens)
      obtain ⟨ee, rests⟩ := ihe follows follows' (List.append_cancel_left elses)
      exact ⟨.conditional cc tt ee, rests⟩

end Line

/-- Expressions have the same text exactly when they differ by regrouping operands. -/
theorem print_eq_iff_regrouped (f g : Formula) :
    (∃ s, f.term.print = .ok s) ∧ (f.term.print = g.term.print ↔ Regrouped f g) := by
  refine ⟨⟨_, f.prints⟩, ?_⟩
  rw [f.prints.print_eq_iff g.prints]
  constructor
  · intro same
    have lines : f.line.formula.chars ++ [] = g.line.formula.chars ++ [] := by
      rw [← f.line_regrouped.chars_eq, ← g.line_regrouped.chars_eq, same]
    obtain ⟨between, -⟩ := Line.read_unique .nothing .nothing lines
    exact .trans f.line_regrouped (.trans between (.symm g.line_regrouped))
  · exact Regrouped.chars_eq

def Formula.named (name : String) (valid : Name.isIdentifier name = true)
    (free : (Atom.path ⟨⟨name, .absent, valid⟩, []⟩).chars ∉ reserved) : Formula :=
  .operand ⟨_, free⟩

def differenceLess : Formula :=
  .joined (.sign .minus)
    (.joined (.sign .minus) (.named "a" (by decide) (by decide)) (.named "b" (by decide) (by decide)))
    (.named "c" (by decide) (by decide))

def lessDifference : Formula :=
  .joined (.sign .minus) (.named "a" (by decide) (by decide))
    (.joined (.sign .minus) (.named "b" (by decide) (by decide)) (.named "c" (by decide) (by decide)))

/-- The text of a difference does not tell what is subtracted from what. -/
theorem differences_print_alike :
    differenceLess.term.print = .ok "a - b - c" ∧ lessDifference.term.print = .ok "a - b - c" ∧
      differenceLess.term ≠ lessDifference.term := by
  refine ⟨?_, ?_, ?_⟩
  · rw [differenceLess.prints]
    rfl
  · rw [lessDifference.prints]
    rfl
  · simp [differenceLess, lessDifference, Formula.term, Formula.named, Atom.term]

end SwanModel.Printing
