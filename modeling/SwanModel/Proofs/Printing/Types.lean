import SwanModel.Proofs.Printing.Words

/-!
# Printed type expressions

Arrays are printed with their sizes behind the type of their elements, so a type is read together
with the sizes that follow it.
-/

namespace SwanModel.Printing

open Text

variable {rest rest' : List Char} {t u : TypeExpr} {sizes sizes' : List Atom}

def predefinedTexts : List (List Char) := PredefinedType.all.map fun p => p.text.toList

mutual

/-- Type expressions. An alias is not the name of a predefined type. -/
inductive TypeExpr where
  | predefined (p : PredefinedType)
  | named (path : PathName) (free : path.chars ∉ predefinedTexts)
  | generic (name : Identifier)
  | sized (signed : Bool) (size : Atom)
  | struct (fields : Fields)
  | array (type : TypeExpr) (size : Atom)

inductive Fields where
  | last (label : Identifier) (type : TypeExpr)
  | cons (label : Identifier) (type : TypeExpr) (more : Fields)

end

mutual

def TypeExpr.term : TypeExpr → Term
  | .predefined p => .node (.type .predefined) [.constant (.predefinedType p)]
  | .named path _ => .node (.type .named) [path.term]
  | .generic name => .node (.type .typeVariable) [name.term true]
  | .sized signed size => .node (.type .sized) [size.term, .truth signed]
  | .struct fields => .node (.type .struct) [.list fields.terms]
  | .array type size => .node (.type .array) [type.term, size.term]

def Fields.terms : Fields → List Term
  | .last label type => [.node (.type .field) [label.term false, type.term]]
  | .cons label type more => .node (.type .field) [label.term false, type.term] :: more.terms

end

def signWord (signed : Bool) : List Char := if signed then "signed".toList else "unsigned".toList

mutual

def TypeExpr.chars : TypeExpr → List Char
  | .predefined p => p.text.toList
  | .named path _ => path.chars
  | .generic name => '\'' :: name.chars
  | .sized signed size => signWord signed ++ (" <<".toList ++ (size.chars ++ ">>".toList))
  | .struct fields => '\x7b' :: (fields.chars ++ ['\x7d'])
  | .array type size => type.chars ++ '^' :: size.chars

def Fields.chars : Fields → List Char
  | .last label type => label.chars ++ ':' :: ' ' :: type.chars
  | .cons label type more => label.chars ++ ':' :: ' ' :: (type.chars ++ ',' :: ' ' :: more.chars)

end

mutual

def TypeExpr.bare : TypeExpr → TypeExpr
  | .predefined p => .predefined p
  | .named path free => .named path.bare (by rw [PathName.chars_bare]; exact free)
  | .generic name => .generic name.bare
  | .sized signed size => .sized signed size.bare
  | .struct fields => .struct fields.bare
  | .array type size => .array type.bare size.bare

def Fields.bare : Fields → Fields
  | .last label type => .last label.bare type.bare
  | .cons label type more => .cons label.bare type.bare more.bare

end

theorem lowered_name (p : PredefinedType) : p.name.toLower = p.text := by
  have letters : p.name.toLower = p.name.map Char.toLower := rfl
  rw [letters, ← String.toList_inj, String.toList_map]
  cases p <;> rfl

theorem field_prints (label : Identifier) {t : Term} {cs : List Char} (prints : Prints t cs) :
    Prints (.node (.type .field) [label.term false, t]) (label.chars ++ ':' :: ' ' :: cs) := by
  have first := (label.prints false).text
  rw [Prints, Term.print_node]
  simp [Form.text, Form.isSilent, Form.layout, TypeForm.layout, first, prints.text, ok_bind, pure,
    Except.pure, ← String.toList_inj]

theorem Fields.terms_ne_nil (fs : Fields) : fs.terms ≠ [] := by
  cases fs <;> simp [terms]

mutual

theorem TypeExpr.prints (t : TypeExpr) : Prints t.term t.chars := by
  cases t with
  | predefined p =>
    rw [Prints, TypeExpr.term, Term.print_node, TypeExpr.chars, String.ofList_toList, ← lowered_name]
    rfl
  | named path free =>
    rw [Prints, TypeExpr.term, Term.print_node]
    exact path.prints
  | generic name =>
    rw [Prints, TypeExpr.term, Term.print_node]
    exact name.prints true
  | sized signed size =>
    have inside := size.prints.text
    rw [Prints, TypeExpr.term, Term.print_node]
    cases signed <;> simp [Form.text, Form.isSilent, Form.layout, TypeForm.layout, inside, ok_bind,
      pure, Except.pure, Printed.isTruthy, Term.isTruthy, TypeExpr.chars, signWord, ← String.toList_inj]
  | struct fields =>
    have inside := fields.prints
    rw [Prints, TypeExpr.term, Term.print_node]
    simp [Form.text, Form.isSilent, Form.layout, TypeForm.layout, bracesLayout, inside, ok_bind,
      pure, Except.pure, TypeExpr.chars, ← String.toList_inj]
  | array type size =>
    have elements := type.prints.text
    have length := size.prints.text
    rw [Prints, TypeExpr.term, Term.print_node]
    simp [Form.text, Form.isSilent, Form.layout, TypeForm.layout, elements, length, ok_bind, pure,
      Except.pure, TypeExpr.chars, ← String.toList_inj]

theorem Fields.prints (fs : Fields) :
    (Term.list fs.terms).printed.join ", " = .ok (String.ofList fs.chars) := by
  cases fs with
  | last label type => exact join_one ", " (field_prints label type.prints)
  | cons label type more =>
    have others := more.prints
    have field := field_prints label type.prints
    rw [Fields.terms, Fields.chars, join_cons field more.terms_ne_nil others]
    simp

end

/-! ### Arrays

The sizes of an array stand behind the type of its elements. -/

namespace TypeExpr

def arrays (t : TypeExpr) (sizes : List Atom) : TypeExpr := sizes.foldl array t

def sizesChars : List Atom → List Char
  | [] => []
  | size :: more => '^' :: (size.chars ++ sizesChars more)

theorem sizesChars_append (sizes more : List Atom) :
    sizesChars (sizes ++ more) = sizesChars sizes ++ sizesChars more := by
  induction sizes with
  | nil => rfl
  | cons size sizes ih => simp [sizesChars, ih]

theorem arrays_append (t : TypeExpr) (sizes more : List Atom) :
    t.arrays (sizes ++ more) = (t.arrays sizes).arrays more :=
  List.foldl_append

theorem bare_arrays (t : TypeExpr) (sizes : List Atom) :
    (t.arrays sizes).bare = t.bare.arrays (sizes.map Atom.bare) := by
  induction sizes generalizing t with
  | nil => rfl
  | cons size sizes ih =>
    have step := ih (t.array size)
    rw [TypeExpr.bare] at step
    exact step

inductive Ends : List Char → Prop
  | nothing : Ends []
  | comma (rest : List Char) : Ends (',' :: rest)
  | brace (rest : List Char) : Ends ('\x7d' :: rest)
  | blank (rest : List Char) : Ends (' ' :: '\x7d' :: rest)

theorem Ends.stops (ends : Ends rest) (sizes : List Atom) :
    Stops Atom.isAtomChar (sizesChars sizes ++ rest) := by
  cases sizes with
  | cons size more => rfl
  | nil => cases ends <;> trivial

theorem sizes_unique (ends : Ends rest) (ends' : Ends rest')
    (same : sizesChars sizes ++ rest = sizesChars sizes' ++ rest') :
    sizes.map Atom.bare = sizes'.map Atom.bare ∧ rest = rest' := by
  have noCaret : ∀ {rest more : List Char}, Ends rest → rest ≠ '^' :: more := by
    rintro rest more ends rfl
    cases ends
  induction sizes generalizing sizes' with
  | nil =>
    cases sizes' with
    | nil => exact ⟨rfl, same⟩
    | cons size' sizes' => exact absurd same (noCaret ends)
  | cons size sizes ih =>
    cases sizes' with
    | nil => exact absurd same.symm (noCaret ends')
    | cons size' sizes' =>
      simp only [sizesChars, List.cons_append, List.append_assoc, List.cons.injEq, true_and] at same
      obtain ⟨atoms, others⟩ := Atom.read_unique (ends.stops sizes) (ends'.stops sizes') same
      obtain ⟨more, rests⟩ := ih others
      rw [List.map_cons, List.map_cons, atoms, more]
      exact ⟨rfl, rests⟩

def IsArray : TypeExpr → Prop
  | array _ _ => True
  | _ => False

/-- Every type is a type that is no array, with sizes behind it. -/
theorem eq_arrays (t : TypeExpr) :
    ∃ (base : TypeExpr) (sizes : List Atom), ¬base.IsArray ∧ t = base.arrays sizes ∧
      t.chars = base.chars ++ sizesChars sizes := by
  have plain : ∀ t : TypeExpr, ¬t.IsArray → ∃ (base : TypeExpr) (sizes : List Atom), ¬base.IsArray ∧
      t = base.arrays sizes ∧ t.chars = base.chars ++ sizesChars sizes :=
    fun t noArray => ⟨t, [], noArray, rfl, (List.append_nil _).symm⟩
  cases t with
  | predefined p => exact plain _ id
  | named path free => exact plain _ id
  | generic name => exact plain _ id
  | sized signed size => exact plain _ id
  | struct fields => exact plain _ id
  | array type size =>
    obtain ⟨base, sizes, noArray, isType, texts⟩ := eq_arrays type
    refine ⟨base, sizes ++ [size], noArray, ?_, ?_⟩
    · rw [arrays_append, ← isType]
      rfl
    · rw [TypeExpr.chars, texts, List.append_assoc, sizesChars_append, sizesChars, sizesChars,
        List.append_nil]

/-! ### Reading types

The first word of a type and what follows it tell how the type is built. -/

/-- The constructors of types other than arrays. -/
inductive Kind where
  | predefined (p : PredefinedType)
  | named
  | generic
  | sized (signed : Bool)
  | struct
deriving DecidableEq

/-- The kind of a type with this first word and this text behind it. -/
def kindOf (word behind : List Char) : Kind :=
  match PredefinedType.all.find? (fun p => p.text.toList == word) with
  | some p => .predefined p
  | none =>
    if behind.head? = some '\'' then .generic
    else if behind.head? = some '\x7b' then .struct
    else if behind.take 2 = [' ', '<'] then .sized (word == signWord true)
    else .named

def kind : TypeExpr → Kind
  | predefined p => .predefined p
  | named _ _ => .named
  | generic _ => .generic
  | sized signed _ => .sized signed
  | struct _ => .struct
  | array type _ => type.kind

def word : TypeExpr → List Char
  | predefined p => p.text.toList
  | named path _ => path.chars
  | generic _ => []
  | sized signed _ => signWord signed
  | struct _ => []
  | array type _ => type.word

def behind : TypeExpr → List Char
  | predefined _ => []
  | named _ _ => []
  | generic name => '\'' :: name.chars
  | sized _ size => " <<".toList ++ (size.chars ++ ">>".toList)
  | struct fields => '\x7b' :: (fields.chars ++ ['\x7d'])
  | array type size => type.behind ++ '^' :: size.chars

theorem chars_eq (t : TypeExpr) : t.chars = t.word ++ t.behind := by
  cases t with
  | predefined p => exact (List.append_nil _).symm
  | named path free => exact (List.append_nil _).symm
  | generic name => rfl
  | sized signed size => rfl
  | struct fields => rfl
  | array type size => rw [TypeExpr.chars, chars_eq type, word, behind, List.append_assoc]

theorem isAtomChar_word (t : TypeExpr) : ∀ c ∈ t.word, Atom.isAtomChar c = true := by
  cases t with
  | predefined p => cases p <;> exact List.all_eq_true.mp (by rfl)
  | named path free => exact fun c member => Atom.isAtomChar_of_mem (a := .path path) member
  | generic name => exact fun c member => absurd member List.not_mem_nil
  | sized signed size => cases signed <;> exact List.all_eq_true.mp (by rfl)
  | struct fields => exact fun c member => absurd member List.not_mem_nil
  | array type size => exact isAtomChar_word type

theorem stops_behind (noArray : ¬t.IsArray) (ends : Ends rest) (sizes : List Atom) :
    Stops Atom.isAtomChar (t.behind ++ (sizesChars sizes ++ rest)) := by
  cases t with
  | predefined p => exact ends.stops sizes
  | named path free => exact ends.stops sizes
  | generic name => rfl
  | sized signed size => rfl
  | struct fields => rfl
  | array type size => exact absurd trivial noArray

theorem predefined_of_text (p : PredefinedType) :
    PredefinedType.all.find? (fun q => q.text.toList == p.text.toList) = some p := by
  cases p <;> rfl

theorem kindOf_eq (noArray : ¬t.IsArray) (ends : Ends rest) (sizes : List Atom) :
    kindOf t.word (t.behind ++ (sizesChars sizes ++ rest)) = t.kind := by
  cases t with
  | predefined p => rw [kindOf, word, predefined_of_text, kind]
  | named path free =>
    have unknown : PredefinedType.all.find? (fun q => q.text.toList == path.chars) = none := by
      rw [List.find?_eq_none]
      intro q member same
      exact free (List.mem_map.mpr ⟨q, member, beq_iff_eq.mp same⟩)
    rw [kindOf, word, unknown]
    cases sizes with
    | cons size more => rfl
    | nil => cases ends <;> rfl
  | generic name => rfl
  | sized signed size => cases signed <;> rfl
  | struct fields => rfl
  | array type size => exact absurd trivial noArray

theorem first_word (noArray : ¬t.IsArray)
    (noArray' : ¬u.IsArray) (ends : Ends rest) (ends' : Ends rest')
    (same : t.chars ++ (sizesChars sizes ++ rest) = u.chars ++ (sizesChars sizes' ++ rest')) :
    t.kind = u.kind ∧ t.word = u.word ∧
      t.behind ++ (sizesChars sizes ++ rest) = u.behind ++ (sizesChars sizes' ++ rest') := by
  rw [chars_eq, chars_eq, List.append_assoc, List.append_assoc] at same
  obtain ⟨words, behinds⟩ :=
    cut_unique t.isAtomChar_word u.isAtomChar_word (stops_behind noArray ends sizes)
      (stops_behind noArray' ends' sizes') same
  refine ⟨?_, words, behinds⟩
  rw [← kindOf_eq noArray ends sizes, ← kindOf_eq noArray' ends' sizes', words, behinds]

/-- Types that are no arrays can be told from their texts if the fields of structures can. -/
theorem base_unique (noArray : ¬t.IsArray)
    (noArray' : ¬u.IsArray)
    (told : ∀ f g : Fields, t = .struct f → u = .struct g → ∀ rest rest',
      f.chars ++ '\x7d' :: rest = g.chars ++ '\x7d' :: rest' → f.bare = g.bare ∧ rest = rest')
    (ends : Ends rest) (ends' : Ends rest')
    (same : t.chars ++ (sizesChars sizes ++ rest) = u.chars ++ (sizesChars sizes' ++ rest')) :
    t.bare = u.bare ∧ sizesChars sizes ++ rest = sizesChars sizes' ++ rest' := by
  obtain ⟨kinds, words, behinds⟩ := first_word noArray noArray' ends ends' same
  cases t with
  | predefined p =>
    cases u with
    | predefined p' =>
      obtain rfl : p = p' := Kind.predefined.inj kinds
      exact ⟨rfl, behinds⟩
    | array type size => exact absurd trivial noArray'
    | _ => cases kinds
  | named path free =>
    cases u with
    | named path' free' =>
      have paths := PathName.bare_eq_iff.mpr words
      exact ⟨by simp [TypeExpr.bare, paths], behinds⟩
    | array type size => exact absurd trivial noArray'
    | _ => cases kinds
  | generic name =>
    cases u with
    | generic name' =>
      have names : name.chars ++ (sizesChars sizes ++ rest) =
          name'.chars ++ (sizesChars sizes' ++ rest') :=
        (List.cons.inj behinds).2
      have narrow : ∀ c, isNameChar c = true → Atom.isAtomChar c = true :=
        fun c inside => by simp [Atom.isAtomChar, inside]
      obtain ⟨bares, rests⟩ := Identifier.read_unique ((ends.stops sizes).mono narrow)
        ((ends'.stops sizes').mono narrow) names
      exact ⟨by rw [TypeExpr.bare, TypeExpr.bare, bares], rests⟩
    | array type size => exact absurd trivial noArray'
    | _ => cases kinds
  | sized signed size =>
    cases u with
    | sized signed' size' =>
      obtain rfl : signed = signed' := Kind.sized.inj kinds
      simp only [behind, List.append_assoc, List.append_cancel_left_eq] at behinds
      have stops : ∀ more, Stops Atom.isAtomChar (">>".toList ++ more) := fun _ => rfl
      obtain ⟨bares, closings⟩ := Atom.read_unique (stops _) (stops _) behinds
      exact ⟨by rw [TypeExpr.bare, TypeExpr.bare, bares], List.append_cancel_left closings⟩
    | array type size => exact absurd trivial noArray'
    | _ => cases kinds
  | struct fields =>
    cases u with
    | struct fields' =>
      simp only [behind, List.cons_append, List.append_assoc, List.nil_append, List.cons.injEq,
        true_and] at behinds
      obtain ⟨bares, rests⟩ := told fields fields' rfl rfl _ _ behinds
      exact ⟨by rw [TypeExpr.bare, TypeExpr.bare, bares], rests⟩
    | array type size => exact absurd trivial noArray'
    | _ => cases kinds
  | array type size => exact absurd trivial noArray

theorem read_of_base (noArray : ¬t.IsArray)
    (told : ∀ f g : Fields, t = .struct f → ∀ rest rest',
      f.chars ++ '\x7d' :: rest = g.chars ++ '\x7d' :: rest' → f.bare = g.bare ∧ rest = rest')
    (ends : Ends rest) (ends' : Ends rest')
    (same : t.chars ++ (sizesChars sizes ++ rest) = u.chars ++ (sizesChars sizes' ++ rest')) :
    (t.arrays sizes).bare = (u.arrays sizes').bare ∧ rest = rest' := by
  obtain ⟨base, more, noArray', rfl, texts⟩ := u.eq_arrays
  rw [texts, List.append_assoc, ← List.append_assoc (sizesChars more), ← sizesChars_append] at same
  obtain ⟨bares, others⟩ :=
    base_unique noArray noArray' (fun f g isStruct _ => told f g isStruct) ends ends' same
  obtain ⟨sizesSame, rests⟩ := sizes_unique ends ends' others
  rw [← arrays_append, bare_arrays, bare_arrays, bares, sizesSame]
  exact ⟨rfl, rests⟩

end TypeExpr

theorem label_unique {label label' : Identifier}
    (same : label.chars ++ ':' :: ' ' :: rest = label'.chars ++ ':' :: ' ' :: rest') :
    label.bare = label'.bare ∧ rest = rest' := by
  have colon : ∀ more, Stops isNameChar (':' :: more) := fun _ => rfl
  obtain ⟨labels, rests⟩ := Identifier.read_unique (colon _) (colon _) same
  exact ⟨labels, (List.cons.inj (List.cons.inj rests).2).2⟩

mutual

/-- A type and the sizes behind it can be told from their text. -/
theorem TypeExpr.read_unique (t : TypeExpr) {u : TypeExpr} (sizes sizes' : List Atom)
    {rest rest' : List Char} (ends : TypeExpr.Ends rest) (ends' : TypeExpr.Ends rest')
    (same : t.chars ++ (TypeExpr.sizesChars sizes ++ rest) =
      u.chars ++ (TypeExpr.sizesChars sizes' ++ rest')) :
    (t.arrays sizes).bare = (u.arrays sizes').bare ∧ rest = rest' := by
  cases t with
  | predefined | named | generic | sized =>
    exact TypeExpr.read_of_base id (fun f g isStruct => by cases isStruct) ends ends' same
  | struct fields =>
    refine TypeExpr.read_of_base id (fun f g isStruct rest rest' inside => ?_) ends ends' same
    obtain rfl := TypeExpr.struct.inj isStruct
    exact fields.read_unique inside
  | array type size =>
    refine type.read_unique (size :: sizes) sizes' ends ends' ?_
    rw [TypeExpr.chars, List.append_assoc] at same
    simpa [TypeExpr.sizesChars] using same

theorem Fields.read_unique (f : Fields) {g : Fields} {rest rest' : List Char}
    (same : f.chars ++ '\x7d' :: rest = g.chars ++ '\x7d' :: rest') :
    f.bare = g.bare ∧ rest = rest' := by
  cases f with
  | last label type =>
    cases g with
    | last label' type' =>
      simp only [Fields.chars, List.append_assoc, List.cons_append] at same
      obtain ⟨labels, types⟩ := label_unique same
      obtain ⟨bares, rests⟩ := type.read_unique [] [] (.brace _) (.brace _) types
      exact ⟨by rw [Fields.bare, Fields.bare, labels]; exact congrArg _ bares, (List.cons.inj rests).2⟩
    | cons label' type' more' =>
      simp only [Fields.chars, List.append_assoc, List.cons_append] at same
      obtain ⟨labels, types⟩ := label_unique same
      obtain ⟨-, rests⟩ := type.read_unique [] [] (.brace _) (.comma _) types
      cases rests
  | cons label type more =>
    cases g with
    | last label' type' =>
      simp only [Fields.chars, List.append_assoc, List.cons_append] at same
      obtain ⟨labels, types⟩ := label_unique same
      obtain ⟨-, rests⟩ := type.read_unique [] [] (.comma _) (.brace _) types
      cases rests
    | cons label' type' more' =>
      simp only [Fields.chars, List.append_assoc, List.cons_append] at same
      obtain ⟨labels, types⟩ := label_unique same
      obtain ⟨bares, others⟩ := type.read_unique [] [] (.comma _) (.comma _) types
      obtain ⟨fields, rests⟩ := more.read_unique (List.cons.inj (List.cons.inj others).2).2
      refine ⟨?_, rests⟩
      rw [Fields.bare, Fields.bare, labels, fields]
      exact congrArg (fun t => Fields.cons _ t _) bares

end

mutual

theorem TypeExpr.chars_bare (t : TypeExpr) : t.bare.chars = t.chars := by
  cases t with
  | predefined p => rfl
  | named path free => exact path.chars_bare
  | generic name => rfl
  | sized signed size => rw [TypeExpr.bare, TypeExpr.chars, TypeExpr.chars, Atom.chars_bare]
  | struct fields => rw [TypeExpr.bare, TypeExpr.chars, TypeExpr.chars, fields.chars_bare]
  | array type size =>
    rw [TypeExpr.bare, TypeExpr.chars, TypeExpr.chars, type.chars_bare, Atom.chars_bare]

theorem Fields.chars_bare (f : Fields) : f.bare.chars = f.chars := by
  cases f with
  | last label type =>
    rw [Fields.bare, Fields.chars, Fields.chars, type.chars_bare, Identifier.chars_bare]
  | cons label type more =>
    rw [Fields.bare, Fields.chars, Fields.chars, type.chars_bare, more.chars_bare, Identifier.chars_bare]

end

end SwanModel.Printing
