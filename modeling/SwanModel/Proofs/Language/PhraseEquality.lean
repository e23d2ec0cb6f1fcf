import SwanModel.Proofs.Language.PhraseConversion

/-!
# What the conversion of operators keeps

The form and the plain values of a construct tell the head (`Head.eq_of_term`), and the head tells
where the parts are (`Head.terms_eq`). So a phrase without what stands beside its heads can be read
off its construct.
-/

namespace SwanModel

open SwanModel.Convert

/-! ### Names and patterns -/

theorem Ident.term_inj {x y : Ident} : x.term = y.term ↔ x = y := by
  constructor
  · intro same
    obtain ⟨name, pragmas⟩ := x
    obtain ⟨name', pragmas'⟩ := y
    simp only [Ident.term, Term.node.injEq, List.cons.injEq, Term.text.injEq, Term.list.injEq, true_and,
      and_true] at same
    obtain ⟨rfl, texts⟩ := same
    rw [List.map_injective_iff.mpr (fun _ _ => Term.text.inj) texts]
  · rintro rfl
    rfl

theorem Ident.term_ne_absent (x : Ident) : x.term ≠ .absent := by simp [Ident.term]

theorem Ident.term_ne_expr (x : Ident) (form : ExprForm) (parts : List Term) :
    x.term ≠ .node (.expr form) parts := by
  simp [Ident.term]

theorem Ident.termOf?_inj {x y : Option Ident} : Ident.termOf? x = Ident.termOf? y ↔ x = y := by
  cases x <;> cases y <;> simp [Ident.termOf?, Ident.term_inj, Ident.term_ne_absent,
    (Ident.term_ne_absent _).symm]

theorem pathTerm_inj {x y : List Ident} : pathTerm x = pathTerm y ↔ x = y := by
  simp [pathTerm, List.map_inj_right (fun _ _ => Ident.term_inj.mp)]

theorem nameTerm_inj {x y : String} : nameTerm x = nameTerm y ↔ x = y := by simp [nameTerm]

theorem luidTerm_inj {x y : String} : luidTerm x = luidTerm y ↔ x = y := by simp [luidTerm]

theorem luidTerm_ne_absent (x : String) : luidTerm x ≠ .absent := by simp [luidTerm]

theorem truthText_inj {x y : Bool} :
    (if x then "true" else "false") = (if y then "true" else "false") ↔ x = y := by
  cases x <;> cases y <;> decide

theorem pragmas_inj {x y : List String} :
    x.map (fun text => Term.pragma (.text text)) = y.map (fun text => Term.pragma (.text text)) ↔
      x = y :=
  List.map_inj_right fun _ _ same => Term.text.inj (Term.pragma.inj same)

theorem PathOrText.term_inj {x y : PathOrText} : PathOrText.term x = PathOrText.term y ↔ x = y := by
  cases x <;> cases y <;> simp [PathOrText.term, pathTerm_inj] <;> simp [pathTerm]

theorem PathOrText.term_ne_absent (x : PathOrText) : PathOrText.term x ≠ .absent := by
  cases x <;> simp [PathOrText.term, pathTerm]

theorem Pattern.term_inj {x y : Pattern} : x.term = y.term ↔ x = y := by
  cases x <;> cases y <;> simp [Pattern.term, pathTerm_inj, Ident.termOf?_inj, and_comm]

theorem PatternOrText.term_inj {x y : PatternOrText} : PatternOrText.term x = PatternOrText.term y ↔
    x = y := by
  cases x with
  | read p =>
    cases y with
    | read q => simp [PatternOrText.term, Pattern.term_inj]
    | text s => cases p <;> simp [PatternOrText.term, Pattern.term]
  | text s =>
    cases y with
    | read q => cases q <;> simp [PatternOrText.term, Pattern.term]
    | text s => simp [PatternOrText.term]

theorem PatternOrText.term_ne_absent (x : PatternOrText) : PatternOrText.term x ≠ .absent := by
  rcases x with (_ | _) | _ <;> simp [PatternOrText.term, Pattern.term]

theorem clauseTerm_inj {x y : Ident} {t u : Term} : clauseTerm x t = clauseTerm y u ↔ x = y ∧ t = u := by
  simp [clauseTerm, Ident.term_inj]

/-! ### Heads -/

variable {k : PhraseKind} {terms terms' : List Term}

theorem partAt_ne {ks : List PhraseKind} {t : Term} (fits : Admitted (k :: ks) terms)
    (refused : k.admits t = false) : partAt terms 0 ≠ t := by
  obtain _ | ⟨admitted, _⟩ := fits
  rintro rfl
  exact Bool.false_ne_true (refused.symm.trans admitted)

theorem length_of_admitted {length length' : Nat} (fits : Admitted (List.replicate length k) terms)
    (fits' : Admitted (List.replicate length' k) terms) : length = length' := by
  have all : (List.replicate length k).length = terms.length := fits.length_eq
  have all' : (List.replicate length' k).length = terms.length := fits'.length_eq
  rw [List.length_replicate] at all all'
  rw [all, all']

theorem absent_notMem {ks : List PhraseKind} (fits : Admitted ks terms)
    (refused : ∀ k ∈ ks, k.admits .absent = false) : .absent ∉ terms := by
  induction fits with
  | nil => exact List.not_mem_nil
  | cons admitted _ ih =>
    rename_i k t _ _ _
    have given : .absent ≠ t := by
      rintro rfl
      exact Bool.false_ne_true ((refused k List.mem_cons_self).symm.trans admitted)
    exact List.not_mem_cons_of_ne_of_not_mem given (ih fun k inside =>
      refused k (List.mem_cons_of_mem _ inside))

def PhraseKind.isLoopPart : PhraseKind → Bool
  | left | element | dimension | body | lastDefault | arrayClause | result => true
  | _ => false

theorem left_refuses (id : Ident) : PhraseKind.left.admits id.term = false := rfl

theorem arrayClause_refuses (id : Ident) (t : Term) :
    PhraseKind.arrayClause.admits (clauseTerm id t) = false := rfl

namespace Head

/-- The form of an expression tells its head, together with its plain values. -/
theorem eq_of_expr {h h' : Head .expr} (same : h.term terms = h'.term terms') : h = h' := by
  -- The forms tell most heads apart; what is left are pairs with the same form.
  cases h <;> cases h' <;> injection same with form parts <;> cases form <;>
    simp_all [pathTerm_inj, nameTerm_inj, luidTerm_inj, luidTerm_ne_absent, PathOrText.term_inj,
      PathOrText.term_ne_absent, Ident.term_inj, truthText_inj, (luidTerm_ne_absent _).symm,
      (PathOrText.term_ne_absent _).symm]

theorem eq_of_list {h h' : Head (.list k)} (fits : Admitted h.parts terms)
    (fits' : Admitted h'.parts terms') (same : h.term terms = h'.term terms') : h = h' := by
  cases h with
  | list length =>
    cases h' with
    | list length' =>
      have members : terms = terms' := Term.list.inj same
      subst members
      rw [length_of_admitted fits fits']

theorem eq_of_group {h h' : Head .group} (fits : Admitted h.parts terms)
    (fits' : Admitted h'.parts terms') (same : h.term terms = h'.term terms') : h = h' := by
  cases h with
  | group length =>
    cases h' with
    | group length' =>
      injection same with _ parts
      injection parts with list
      have members : terms = terms' := Term.list.inj list
      subst members
      rw [length_of_admitted fits fits']

theorem parts_refuse_absent (h : Head k) (part : k.isLoopPart = true) :
    ∀ l ∈ h.parts, l.admits .absent = false := by
  cases k with
  | left | element | dimension | body | lastDefault | arrayClause | result =>
    cases h <;> simp [parts, PhraseKind.admits]
  | _ => cases part

/-- What is there in a part of a loop tells its head, since none of its own parts is absent. -/
theorem eq_of_loopPart {h h' : Head k} (part : k.isLoopPart = true) (fits : Admitted h.parts terms)
    (fits' : Admitted h'.parts terms') (same : h.term terms = h'.term terms') : h = h' := by
  have given := absent_notMem fits (h.parts_refuse_absent part)
  have given' := absent_notMem fits' (h'.parts_refuse_absent part)
  cases k with
  | left | element | dimension | body | lastDefault | arrayClause | result =>
    cases h <;> cases h' <;> obtain _ | ⟨there, _ | ⟨more, _ | _⟩⟩ := fits <;>
      obtain _ | ⟨there', _ | ⟨more', _ | _⟩⟩ := fits' <;>
      simp_all [term, partAt, Ident.term_inj, Ident.termOf?_inj, clauseTerm_inj]
    -- An identifier is no left side, and an item is no clause of an array.
    all_goals grind [left_refuses, arrayClause_refuses]
  | _ => cases part

/-- The construct of a phrase tells its head. -/
theorem eq_of_term {h h' : Head k} (fits : Admitted h.parts terms) (fits' : Admitted h'.parts terms')
    (same : h.term terms = h'.term terms') : h = h' := by
  cases k with
  | expr => exact eq_of_expr same
  | list k => exact eq_of_list fits fits' same
  | group => exact eq_of_group fits fits' same
  -- What is read is told from a kept text, or from what has no parts, by the first part.
  | exprOrText | typeOrText | indices =>
    cases h <;> cases h'
    · rfl
    · exact absurd same (partAt_ne fits rfl)
    · exact absurd same.symm (partAt_ne fits' rfl)
    · cases same
      rfl
  | modifier | optionalItem =>
    cases h <;> cases h'
    · rfl
    · exact absurd (congrArg (partAt · 0) (Term.node.inj same).2) (partAt_ne fits rfl)
    · exact absurd (congrArg (partAt · 0) (Term.node.inj same.symm).2) (partAt_ne fits' rfl)
    · cases same
      rfl
  | label =>
    cases h <;> cases h'
    · rfl
    · exact absurd (congrArg (partAt · 0) (Term.node.inj same).2) (partAt_ne fits rfl)
    · exact absurd (congrArg (partAt · 0) (Term.node.inj same.symm).2) (partAt_ne fits' rfl)
    · rw [Ident.term_inj.mp (List.head_eq_of_cons_eq (Term.node.inj same).2)]
  | left | element | dimension | body | lastDefault | arrayClause | result =>
    exact eq_of_loopPart rfl fits fits' same
  | index =>
    cases h with
    | index n =>
      cases h' with
      | index n' => rw [Int.ofNat.inj (Term.number.inj same)]
  | clock | groupRenaming | item | branch | type | field | operator | operatorExpr =>
    cases h <;> cases h' <;> injection same with form parts <;> cases form <;>
      simp_all [pathTerm_inj, nameTerm_inj, Ident.term_inj, Ident.termOf?_inj, Ident.term_ne_absent,
        (Ident.term_ne_absent _).symm, Ident.term_ne_expr, (Ident.term_ne_expr _ _ _).symm,
        PatternOrText.term_inj, PatternOrText.term_ne_absent, (PatternOrText.term_ne_absent _).symm,
          pragmas_inj]

theorem terms_eq {h : Head k} (fits : Admitted h.parts terms) (fits' : Admitted h.parts terms')
    (same : h.term terms = h.term terms') : terms = terms' := by
  cases h with
  | index | indicesText | clock | clockNot | clockMatch | byPosition | byName | byNewName | ref |
    last | bool | char
  | number | port | self | exprText | label | leftName | dimensionText | body | arrayItem |
    returnItem | returnText
  | predefined | named | typeVariable | typeText | nary | underscore =>
    cases fits
    cases fits'
    rfl
  | indices | readExpr | readType =>
    obtain ⟨x, rfl⟩ := List.length_eq_one_iff.mp fits.length_eq.symm
    obtain ⟨y, rfl⟩ := List.length_eq_one_iff.mp fits'.length_eq.symm
    exact congrArg (fun t => [t]) same
  | arrayItemWith | returnItemWith =>
    obtain ⟨x, rfl⟩ := List.length_eq_one_iff.mp fits.length_eq.symm
    obtain ⟨y, rfl⟩ := List.length_eq_one_iff.mp fits'.length_eq.symm
    simpa [partAt, clauseTerm_inj] using (Term.node.inj same).2
  | adapt | projectIndex | sizeWith =>
    obtain ⟨x, x', rfl⟩ := List.length_eq_two.mp fits.length_eq.symm
    obtain ⟨y, y', rfl⟩ := List.length_eq_two.mp fits'.length_eq.symm
    simpa [partAt] using (Term.node.inj same).2
  | activateEvery isLast =>
    obtain ⟨x, x', x'', rfl⟩ := List.length_eq_three.mp fits.length_eq.symm
    obtain ⟨y, y', y'', rfl⟩ := List.length_eq_three.mp fits'.length_eq.symm
    simpa [partAt] using (Term.node.inj same).2
  | list => exact Term.list.inj same
  | _ => simpa using (Term.node.inj same).2

end Head

/-! ### Phrases -/

theorem Phrases.eq_of_terms {ks : List PhraseKind} {a b : Phrases Bare ks}
    (same : a.terms = b.terms) : a = b := by
  induction a with
  | nil =>
    cases b
    rfl
  | cons head beside parts rest ihParts ihRest =>
    cases b with
    | cons head' beside' parts' rest' =>
      rw [terms, terms] at same
      injection same with first others
      have heads : head = head' := head.eq_of_term parts.admitted parts'.admitted first
      subst heads
      have inside : parts.terms = parts'.terms := head.terms_eq parts.admitted parts'.admitted first
      rw [ihParts inside, ihRest others]

theorem Phrase.term_inj {a b : Phrase Bare k} : a.term = b.term ↔ a = b := by
  constructor
  · intro same
    obtain ⟨head, beside, parts⟩ := a
    obtain ⟨head', beside', parts'⟩ := b
    have heads : head = head' := head.eq_of_term parts.admitted parts'.admitted same
    subst heads
    rw [Phrases.eq_of_terms (head.terms_eq parts.admitted parts'.admitted same)]
  · rintro rfl
    rfl

/-- Two phrases have the same construct exactly if they are the same without what stands beside the
heads. -/
theorem Phrase.term_eq_iff {Beside : (k : PhraseKind) → Head k → Type} {a b : Phrase Beside k} :
    a.term = b.term ↔ a.bare = b.bare := by
  rw [← a.term_bare, ← b.term_bare, Phrase.term_inj]

/-- Operators, and operator expressions, are converted, and to the same construct exactly if they
are the same but for places and for what is lost: arities of iterators, pragmas of operators without
a path, number signs of luids, leading zeros of indices, marks of renamings with a new name, markups
of texts, names of the arrays that loops return, and what the sections of loops lose. -/
theorem operators_converted_alike_iff (reader : Reader) (s : Reading) :
    (∀ a b : Phrase Whole .operator, ∃ t u,
      perform (convert .operator a.tree) reader s = (.ok t, s) ∧
        perform (convert .operator b.tree) reader s = (.ok u, s) ∧ (t = u ↔ a.bare = b.bare)) ∧
    ∀ a b : Phrase Whole .operatorExpr, ∃ t u,
      perform (convert .operatorExpr a.tree) reader s = (.ok t, s) ∧
        perform (convert .operatorExpr b.tree) reader s = (.ok u, s) ∧ (t = u ↔ a.bare = b.bare) := by
  constructor
  · intro a b
    exact ⟨a.term, b.term, a.convert_tree rfl reader s, b.convert_tree rfl reader s, Phrase.term_eq_iff⟩
  · intro a b
    exact ⟨a.term, b.term, a.convert_tree rfl reader s, b.convert_tree rfl reader s, Phrase.term_eq_iff⟩

def mapfold (arity : Int) (operator : String) : Phrase Whole .operatorExpr where
  head := .iterate .mapfold
  beside := ((), some arity)
  parts := .cons (.path [⟨operator, []⟩] []) ((), ()) (.cons (.list 0) ((), ()) .nil .nil) .nil

/-- Two iterators with different arities are converted to the same construct. -/
theorem arity_of_iterator_is_lost :
    (mapfold 1 "f").unplaced ≠ (mapfold 2 "f").unplaced ∧
      ∀ reader s, perform (convert .operatorExpr (mapfold 1 "f").tree) reader s =
        perform (convert .operatorExpr (mapfold 2 "f").tree) reader s := by
  constructor
  · intro same
    injection same with _ arities
    have numbers : (some 1 : Option Int) = some 2 := arities
    contradiction
  · intro reader s
    have alike : (mapfold 1 "f").term = (mapfold 2 "f").term := rfl
    rw [(mapfold 1 "f").convert_tree rfl reader s, (mapfold 2 "f").convert_tree rfl reader s, alike]

end SwanModel
