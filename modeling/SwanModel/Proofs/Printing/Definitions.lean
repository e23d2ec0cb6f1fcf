import SwanModel.Proofs.Printing.Types

/-! # Printed type declarations -/

namespace SwanModel.Printing

open Text

/-! ### Rows

A row is one or more things with a separator between them. -/

section Rows

variable {α β : Type} (separator : String) (chars : α → List Char)

def row (first : α) : List α → List Char
  | [] => chars first
  | next :: more => chars first ++ (separator.toList ++ row next more)

theorem row_prints {term : α → Term} (each : ∀ x, Prints (term x) (chars x)) (first : α)
    (more : List α) : (Term.list ((first :: more).map term)).printed.join separator =
      .ok (String.ofList (row separator chars first more)) := by
  induction more generalizing first with
  | nil => exact join_one separator (each first)
  | cons next more ih => exact join_cons (each first) (by simp) (ih next)

theorem row_congr {bare : α → α} (kept : ∀ x, chars (bare x) = chars x) (first : α) (more : List α) :
    row separator chars (bare first) (more.map bare) = row separator chars first more := by
  induction more generalizing first with
  | nil => exact kept first
  | cons next more ih => rw [List.map_cons, row, row, kept, ih]

/-- A row can be told from its text if its members can and if no separator stands at its end. -/
theorem row_unique (bare : α → β) (Final : List Char → Prop)
    (told : ∀ x y rest rest', (Final rest ∨ ∃ more, rest = separator.toList ++ more) →
      (Final rest' ∨ ∃ more, rest' = separator.toList ++ more) →
      chars x ++ rest = chars y ++ rest' → bare x = bare y ∧ rest = rest')
    (final : ∀ more, ¬Final (separator.toList ++ more)) {x y : α} {more more' : List α}
    {rest rest' : List Char} (ends : Final rest) (ends' : Final rest')
    (same : row separator chars x more ++ rest = row separator chars y more' ++ rest') :
    bare x = bare y ∧ more.map bare = more'.map bare ∧ rest = rest' := by
  induction more generalizing x y more' with
  | nil =>
    cases more' with
    | nil =>
      obtain ⟨members, rests⟩ := told x y _ _ (.inl ends) (.inl ends') same
      exact ⟨members, rfl, rests⟩
    | cons y' more' =>
      rw [row, row, List.append_assoc, List.append_assoc] at same
      obtain ⟨-, rests⟩ := told x y _ _ (.inl ends) (.inr ⟨_, rfl⟩) same
      rw [rests] at ends
      exact absurd ends (final _)
  | cons x' more ih =>
    cases more' with
    | nil =>
      rw [row, row, List.append_assoc, List.append_assoc] at same
      obtain ⟨-, rests⟩ := told x y _ _ (.inr ⟨_, rfl⟩) (.inl ends') same
      rw [← rests] at ends'
      exact absurd ends' (final _)
    | cons y' more' =>
      rw [row, row, List.append_assoc, List.append_assoc, List.append_assoc, List.append_assoc] at same
      obtain ⟨members, others⟩ := told x y _ _ (.inr ⟨_, rfl⟩) (.inr ⟨_, rfl⟩) same
      obtain ⟨nexts, tails, rests⟩ := ih (List.append_cancel_left others)
      rw [List.map_cons, List.map_cons, nexts, tails]
      exact ⟨members, rfl, rests⟩

end Rows

/-! ### Variants -/

def TypeExpr.IsStruct : TypeExpr → Prop
  | .struct _ => True
  | _ => False

inductive Payload where
  | nothing
  | struct (fields : Fields)
  | type (t : TypeExpr) (noStruct : ¬t.IsStruct)

namespace Payload

def term : Payload → Term
  | nothing => .absent
  | struct fields => (TypeExpr.struct fields).term
  | type t _ => t.term

def chars : Payload → List Char
  | nothing => ['\x7d']
  | struct fields => fields.chars ++ ['\x7d']
  | type t _ => ' ' :: (t.chars ++ [' ', '\x7d'])

theorem isStruct_bare {t : TypeExpr} (noStruct : ¬t.IsStruct) : ¬t.bare.IsStruct := by
  cases t with
  | struct fields => exact absurd trivial noStruct
  | _ => exact id

def bare : Payload → Payload
  | nothing => nothing
  | struct fields => struct fields.bare
  | type t noStruct => type t.bare (isStruct_bare noStruct)

theorem layout (p : Payload) :
    variantTypeLayout p.term.printed = .ok (String.ofList ('\x7b' :: p.chars)) := by
  cases p with
  | nothing => rfl
  | struct fields => exact (TypeExpr.struct fields).prints
  | type t noStruct =>
    have inside := t.prints.text
    have isNode : (t.term.is (.type .struct)) = false ∧ t.term.isTruthy = true := by
      cases t with
      | struct fields => exact absurd trivial noStruct
      | _ => exact ⟨rfl, rfl⟩
    simp [variantTypeLayout, term, Printed.isTruthy, isNode, inside, ok_bind, pure, Except.pure, chars,
      ← String.toList_inj]

theorem chars_bare (p : Payload) : p.bare.chars = p.chars := by
  cases p with
  | nothing => rfl
  | struct fields => rw [bare, chars, chars, Fields.chars_bare]
  | type t noStruct => rw [bare, chars, chars, TypeExpr.chars_bare]

theorem struct_head (fields : Fields) (rest : List Char) :
    ∃ c more, (Payload.struct fields).chars ++ rest = c :: more ∧ c.isAlpha = true := by
  have labelled : ∀ f : Fields, ∃ (label : Identifier) (more : List Char),
      f.chars = label.chars ++ more := by
    intro f
    cases f with
    | last label type => exact ⟨label, _, rfl⟩
    | cons label type more => exact ⟨label, _, rfl⟩
  obtain ⟨label, more, text⟩ := labelled fields
  obtain ⟨c, cs, spelling, letter, -⟩ := label.spelled
  exact ⟨c, _, by rw [chars, text, spelling, List.cons_append, List.cons_append, List.cons_append],
    letter⟩

/-- A brace, a letter or a blank behind the opening brace tells what a tag goes with. -/
theorem read_unique {p q : Payload} {rest rest' : List Char}
    (same : p.chars ++ rest = q.chars ++ rest') : p.bare = q.bare ∧ rest = rest' := by
  have noBrace : ('\x7d' : Char).isAlpha = false := by decide
  have noBlank : (' ' : Char).isAlpha = false := by decide
  cases p with
  | nothing =>
    cases q with
    | nothing => exact ⟨rfl, (List.cons.inj same).2⟩
    | struct fields =>
      obtain ⟨c, more, text, letter⟩ := struct_head fields rest'
      rw [← (List.cons.inj (same.trans text)).1, noBrace] at letter
      cases letter
    | type t noStruct => simp [chars] at same
  | struct fields =>
    obtain ⟨c, more, text, letter⟩ := struct_head fields rest
    cases q with
    | nothing =>
      rw [(List.cons.inj (text.symm.trans same)).1, noBrace] at letter
      cases letter
    | struct fields' =>
      rw [chars, chars, List.append_assoc, List.append_assoc] at same
      obtain ⟨bares, rests⟩ := fields.read_unique same
      exact ⟨by rw [bare, bare, bares], rests⟩
    | type t noStruct =>
      rw [(List.cons.inj (text.symm.trans same)).1, noBlank] at letter
      cases letter
  | type t noStruct =>
    cases q with
    | nothing => simp [chars] at same
    | struct fields =>
      obtain ⟨c, more, text, letter⟩ := struct_head fields rest'
      rw [← (List.cons.inj (same.trans text)).1, noBlank] at letter
      cases letter
    | type t' noStruct' =>
      simp only [chars, List.cons_append, List.append_assoc, List.nil_append, List.cons.injEq,
        true_and] at same
      obtain ⟨bares, rests⟩ := t.read_unique [] [] (.blank _) (.blank _) same
      have types : t.bare = t'.bare := bares
      exact ⟨by simp [bare, types], (List.cons.inj (List.cons.inj rests).2).2⟩

end Payload

structure VariantCase where
  tag : Identifier
  payload : Payload

namespace VariantCase

def term (v : VariantCase) : Term := .node (.type .variantCase) [v.tag.term false, v.payload.term]

def chars (v : VariantCase) : List Char := v.tag.chars ++ ' ' :: '\x7b' :: v.payload.chars

def bare (v : VariantCase) : VariantCase := ⟨v.tag.bare, v.payload.bare⟩

theorem prints (v : VariantCase) : Prints v.term v.chars := by
  have tag := (v.tag.prints false).text
  rw [Prints, term, Term.print_node]
  simp [Form.text, Form.isSilent, Form.layout, TypeForm.layout, v.payload.layout, tag, ok_bind,
    pure, Except.pure, chars, ← String.toList_inj]

theorem chars_bare (v : VariantCase) : v.bare.chars = v.chars := by
  rw [chars, chars, bare, Payload.chars_bare, Identifier.chars_bare]

theorem read_unique {v w : VariantCase} {rest rest' : List Char}
    (same : v.chars ++ rest = w.chars ++ rest') : v.bare = w.bare ∧ rest = rest' := by
  have blank : ∀ more, Stops isNameChar (' ' :: more) := fun _ => rfl
  rw [chars, chars, List.append_assoc, List.append_assoc] at same
  obtain ⟨tags, payloads⟩ := Identifier.read_unique (blank _) (blank _) same
  obtain ⟨bares, rests⟩ := Payload.read_unique (List.cons.inj (List.cons.inj payloads).2).2
  exact ⟨by rw [bare, bare, tags, bares], rests⟩

end VariantCase

/-! ### Definitions -/

/-- Type definitions. A type expression may stand in a definition of its own or as it is. -/
inductive TypeDef where
  | expr (wrapped : Bool) (t : TypeExpr)
  | enumeration (first : Identifier) (more : List Identifier)
  | variants (first : VariantCase) (more : List VariantCase)

namespace TypeDef

def term : TypeDef → Term
  | expr true t => .node (.type .exprDefinition) [t.term]
  | expr false t => t.term
  | enumeration first more =>
    .node (.type .enumeration) [.list ((first :: more).map (Identifier.term false))]
  | variants first more => .node (.type .variants) [.list ((first :: more).map VariantCase.term)]

def chars : TypeDef → List Char
  | expr _ t => t.chars
  | enumeration first more =>
    "enum ".toList ++ '\x7b' :: (row ", " Identifier.chars first more ++ ['\x7d'])
  | variants first more => row " | " VariantCase.chars first more

/-- The definition without comments and with type expressions as they are. -/
def bare : TypeDef → TypeDef
  | expr _ t => expr false t.bare
  | enumeration first more => enumeration first.bare (more.map Identifier.bare)
  | variants first more => variants first.bare (more.map VariantCase.bare)

theorem prints (d : TypeDef) : Prints d.term d.chars := by
  cases d with
  | expr wrapped t =>
    cases wrapped with
    | false => exact t.prints
    | true =>
      rw [Prints, term, Term.print_node]
      exact t.prints
  | enumeration first more =>
    have tags := row_prints ", " Identifier.chars (fun i => i.prints false) first more
    have braced : bracesLayout (Term.list ((first :: more).map (Identifier.term false))).printed =
        .ok (String.ofList ('\x7b' :: (row ", " Identifier.chars first more ++ ['\x7d']))) := by
      rw [bracesLayout, tags, ok_bind]
      simp [pure, Except.pure, ← String.toList_inj]
    rw [Prints, term, Term.print_node, chars, String.ofList_append, String.ofList_toList]
    change (do return "enum " ++ (← bracesLayout _)) = _
    rw [braced, ok_bind]
    rfl
  | variants first more =>
    rw [Prints, term, Term.print_node]
    exact row_prints " | " VariantCase.chars VariantCase.prints first more

theorem isTruthy (d : TypeDef) : d.term.isTruthy = true := by
  cases d with
  | expr wrapped t => cases wrapped <;> cases t <;> rfl
  | enumeration first more => rfl
  | variants first more => rfl

theorem chars_bare (d : TypeDef) : d.bare.chars = d.chars := by
  cases d with
  | expr wrapped t => exact t.chars_bare
  | enumeration first more =>
    rw [bare, chars, chars, row_congr ", " Identifier.chars Identifier.chars_bare]
  | variants first more => exact row_congr " | " VariantCase.chars VariantCase.chars_bare first more

inductive Kind where
  | expr | enumeration | variants

def opensTag (inside : List Char) : Bool :=
  inside.head?.any isNameChar && (inside.dropWhile isNameChar).head?.all (· != ':')

/-- The kind of the definition with this text. The tag of a variant may be `enum`, but no other tag
follows it. -/
def kindOf (cs : List Char) : Kind :=
  let behind := cs.dropWhile Atom.isAtomChar
  if behind.take 2 = [' ', '\x7b'] then
    if cs.takeWhile Atom.isAtomChar = "enum".toList ∧
      opensTag (behind.drop 2) = true then .enumeration else .variants
  else .expr

def kind : TypeDef → Kind
  | expr _ _ => .expr
  | enumeration _ _ => .enumeration
  | variants _ _ => .variants

theorem kindOf_append {word behind : List Char} (inside : ∀ c ∈ word, Atom.isAtomChar c = true)
    (stops : Stops Atom.isAtomChar behind) :
    kindOf (word ++ behind) =
      if behind.take 2 = [' ', '\x7b'] then
        if word = "enum".toList ∧ opensTag (behind.drop 2) = true then .enumeration else .variants
      else .expr := by
  rw [kindOf, (cut inside stops).1, (cut inside stops).2]

theorem kindOf_braced {word : List Char} (inside : ∀ c ∈ word, Atom.isAtomChar c = true)
    (rest : List Char) : kindOf (word ++ ' ' :: '\x7b' :: rest) =
      if word = "enum".toList ∧ opensTag rest = true then .enumeration else .variants := by
  have blank : Stops Atom.isAtomChar (' ' :: '\x7b' :: rest) := rfl
  rw [kindOf_append inside blank]
  rfl

theorem opensTag_of_identifier (i : Identifier) {c : Char} {rest : List Char}
    (stops : isNameChar c = false) : opensTag (i.chars ++ c :: rest) = (c != ':') := by
  obtain ⟨first, more, spelling, -, all⟩ := i.spelled
  have inside : ∀ d ∈ i.chars, isNameChar d = true := fun _ => Identifier.isNameChar_of_mem
  have behind : Stops isNameChar (c :: rest) := stops
  rw [opensTag, (cut inside behind).2, spelling]
  simp [all first]

theorem row_head (i : Identifier) (more : List Identifier) :
    ∃ c rest, row ", " Identifier.chars i more ++ ['\x7d'] = i.chars ++ c :: rest ∧
      isNameChar c = false ∧ c ≠ ':' := by
  cases more with
  | nil => exact ⟨'\x7d', [], rfl, by decide, by decide⟩
  | cons j more =>
    refine ⟨',', ' ' :: (row ", " Identifier.chars j more ++ ['\x7d']), ?_, by decide, by decide⟩
    simp [row]

theorem opensTag_payload (p : Payload) (rest : List Char) : opensTag (p.chars ++ rest) = false := by
  have labelled : ∀ label : Identifier, ∀ more, opensTag (label.chars ++ ':' :: more) = false :=
    fun label more => opensTag_of_identifier label (by decide)
  cases p with
  | nothing => rfl
  | type t noStruct => rfl
  | struct fields =>
    cases fields with
    | last label type => simpa [Payload.chars, Fields.chars] using labelled label _
    | cons label type more => simpa [Payload.chars, Fields.chars] using labelled label _

theorem kindOf_chars (d : TypeDef) : kindOf d.chars = d.kind := by
  cases d with
  | expr wrapped t =>
    obtain ⟨base, sizes, noArray, -, texts⟩ := t.eq_arrays
    have stops := TypeExpr.stops_behind noArray .nothing sizes
    have parts : t.chars = base.word ++ (base.behind ++ (TypeExpr.sizesChars sizes ++ [])) := by
      rw [texts, base.chars_eq, List.append_assoc, List.append_nil]
    have noBrace : (base.behind ++ (TypeExpr.sizesChars sizes ++ [])).take 2 ≠ [' ', '\x7b'] := by
      cases base with
      | predefined p => cases sizes <;> simp [TypeExpr.behind, TypeExpr.sizesChars]
      | named path free => cases sizes <;> simp [TypeExpr.behind, TypeExpr.sizesChars]
      | generic name => simp [TypeExpr.behind]
      | sized signed size => simp [TypeExpr.behind]
      | struct fields => simp [TypeExpr.behind]
      | array type size => exact absurd trivial noArray
    rw [chars, parts, kindOf_append base.isAtomChar_word stops, if_neg noBrace, kind]
  | enumeration first more =>
    obtain ⟨c, rest, text, stops, noColon⟩ := row_head first more
    have opened : opensTag (row ", " Identifier.chars first more ++ ['\x7d']) = true := by
      rw [text, opensTag_of_identifier first stops]
      simpa using noColon
    have word : ∀ c ∈ "enum".toList, Atom.isAtomChar c = true := List.all_eq_true.mp (by rfl)
    exact (kindOf_braced word _).trans (if_pos ⟨rfl, opened⟩)
  | variants first more =>
    have word : ∀ c ∈ first.tag.chars, Atom.isAtomChar c = true := fun c member => by
      simp [Atom.isAtomChar, Identifier.isNameChar_of_mem member]
    have parts : ∃ rest, (variants first more).chars =
        first.tag.chars ++ ' ' :: '\x7b' :: (first.payload.chars ++ rest) := by
      cases more with
      | nil => exact ⟨[], by simp [chars, row, VariantCase.chars]⟩
      | cons next more => exact ⟨_, by rw [chars, row, VariantCase.chars, List.append_assoc]; rfl⟩
    obtain ⟨rest, text⟩ := parts
    have noTag : ¬(first.tag.chars = "enum".toList ∧ opensTag (first.payload.chars ++ rest) = true) := by
      rw [opensTag_payload]
      simp
    rw [text, kindOf_braced word, if_neg noTag, kind]

/-- A definition can be told from its text. -/
theorem bare_eq_iff {d e : TypeDef} : d.bare = e.bare ↔ d.chars = e.chars := by
  constructor
  · intro same
    rw [← chars_bare d, same, chars_bare]
  · intro same
    have kinds : d.kind = e.kind := by rw [← kindOf_chars, same, kindOf_chars]
    cases d with
    | expr wrapped t =>
      cases e with
      | expr wrapped' t' =>
        have types : t.bare = t'.bare ∧ [] = [] :=
          t.read_unique [] [] .nothing .nothing (congrArg (· ++ []) same)
        rw [bare, bare, types.1]
      | _ => cases kinds
    | enumeration first more =>
      cases e with
      | enumeration first' more' =>
        have tags := List.append_cancel_left same
        have comma : ∀ rest, (rest = ['\x7d'] ∨ ∃ more, rest = ", ".toList ++ more) →
            Stops isNameChar rest := by
          rintro rest (rfl | ⟨more, rfl⟩) <;> rfl
        obtain ⟨firsts, mores, -⟩ := row_unique ", " Identifier.chars Identifier.bare (· = ['\x7d'])
          (fun x y rest rest' ends ends' => Identifier.read_unique (comma rest ends) (comma rest' ends'))
          (by simp) rfl rfl (List.cons.inj tags).2
        rw [bare, bare, firsts, mores]
      | _ => cases kinds
    | variants first more =>
      cases e with
      | variants first' more' =>
        obtain ⟨firsts, mores, -⟩ := row_unique " | " VariantCase.chars VariantCase.bare (· = [])
          (fun x y rest rest' _ _ => VariantCase.read_unique) (by simp) rfl rfl (congrArg (· ++ []) same)
        rw [bare, bare, firsts, mores]
      | _ => cases kinds

end TypeDef

def typeDecl (i : Identifier) (d : TypeDef) : Term := .node (.decl .type) [i.term false, d.term]

theorem typeDecl_prints (i : Identifier) (d : TypeDef) :
    Prints (typeDecl i d) (i.chars ++ " = ".toList ++ d.chars) := by
  have name := (i.prints false).text
  rw [Prints, typeDecl, Term.print_node]
  simp [Form.text, Form.isSilent, Form.layout, DeclForm.layout, Printed.whenTrue, Printed.isTruthy,
    d.isTruthy, name, d.prints.text, ok_bind, pure, Except.pure, ← String.toList_inj]

/-- Every type declaration has a text, and equal texts are those of equal identifiers and equal
definitions. -/
theorem typeDecl_print_eq_iff (i j : Identifier) (d e : TypeDef) :
    (∃ s, (typeDecl i d).print = .ok s) ∧
      ((typeDecl i d).print = (typeDecl j e).print ↔ i.bare = j.bare ∧ d.bare = e.bare) := by
  refine ⟨⟨_, typeDecl_prints i d⟩, ?_⟩
  rw [(typeDecl_prints i d).print_eq_iff (typeDecl_prints j e), TypeDef.bare_eq_iff]
  constructor
  · intro same
    have blank : ∀ more, Stops isNameChar (" = ".toList ++ more) := fun _ => rfl
    rw [List.append_assoc, List.append_assoc] at same
    obtain ⟨names, definitions⟩ := Identifier.read_unique (blank _) (blank _) same
    exact ⟨names, List.append_cancel_left definitions⟩
  · rintro ⟨names, definitions⟩
    rw [Identifier.bare_eq_iff.mp names, definitions]

end SwanModel.Printing
