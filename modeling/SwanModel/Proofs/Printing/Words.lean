import SwanModel.Proofs.Language.Texts
import SwanModel.Proofs.Printing.Numerals

/-!
# Words of printed texts

A word is a run of characters of a class and ends where the class ends (`cut_unique`), so the text
of a word tells which word it is.
-/

namespace SwanModel.Printing

open Text

variable {rest cs rest' : List Char} {t : Term} {c : Char} {a : Atom}

/-! ### Cutting texts -/

/-- A text is at its end, or does not go on with a character of the class. -/
def Stops (p : Char → Bool) : List Char → Prop
  | [] => True
  | c :: _ => p c = false

theorem Stops.mono {p q : Char → Bool} (stops : Stops q rest)
    (wider : ∀ c, p c = true → q c = true) : Stops p rest := by
  cases rest with
  | nil => trivial
  | cons c rest =>
    have outside : q c = false := stops
    have : ¬p c = true := fun inside => by simp [wider c inside] at outside
    simpa [Stops] using this

/-- A run of characters of a class ends where the class ends. -/
theorem cut {p : Char → Bool} {word : List Char} (inside : ∀ c ∈ word, p c = true)
    (stops : Stops p rest) : (word ++ rest).takeWhile p = word ∧ (word ++ rest).dropWhile p = rest := by
  have ended : rest.takeWhile p = [] ∧ rest.dropWhile p = rest := by
    cases rest with
    | nil => exact ⟨rfl, rfl⟩
    | cons c rest =>
      have outside : p c = false := stops
      simp [outside]
  constructor
  · rw [List.takeWhile_append_of_pos inside, ended.1, List.append_nil]
  · rw [List.dropWhile_append_of_pos inside, ended.2]

theorem stops_dropWhile (p : Char → Bool) (cs : List Char) : Stops p (cs.dropWhile p) := by
  cases behind : cs.dropWhile p with
  | nil => trivial
  | cons c rest =>
    have stopped := List.head?_dropWhile_not p cs
    simpa [behind, Stops] using stopped

theorem cut_unique {p : Char → Bool} {word other : List Char} (inside : ∀ c ∈ word, p c = true)
    (inside' : ∀ c ∈ other, p c = true) (stops : Stops p rest) (stops' : Stops p rest')
    (same : word ++ rest = other ++ rest') : word = other ∧ rest = rest' := by
  have first := cut inside stops
  rw [same, (cut inside' stops').1, (cut inside' stops').2] at first
  exact ⟨first.1.symm, first.2.symm⟩

/-! ### Printing -/

def Prints (t : Term) (cs : List Char) : Prop := t.print = .ok (String.ofList cs)

theorem Prints.text (prints : Prints t cs) : t.printed.text = .ok (String.ofList cs) :=
  prints

theorem Prints.print_eq_iff {u : Term} {ds : List Char} (prints : Prints t cs) (prints' : Prints u ds) :
    t.print = u.print ↔ cs = ds := by
  rw [prints, prints', Except.ok.injEq, String.ofList_inj]

/-! The members of a list are printed one by one, with a separator between them. -/

theorem join_one (separator : String) (prints : Prints t cs) :
    (Term.list [t]).printed.join separator = .ok (String.ofList cs) := by
  rw [Printed.join, Printed.texts, items_printed, ok_bind, List.map_cons, List.map_nil,
    List.mapM_cons, prints.text]
  rfl

theorem join_cons {items : List Term} {ds : List Char} {separator : String} (first : Prints t cs)
    (filled : items ≠ []) (rest : (Term.list items).printed.join separator = .ok (String.ofList ds)) :
    (Term.list (t :: items)).printed.join separator =
      .ok (String.ofList (cs ++ (separator.toList ++ ds))) := by
  rw [Printed.join, Printed.texts, items_printed, ok_bind] at rest ⊢
  obtain ⟨found, texts, returned⟩ := ok_of_bind rest
  have joined : separator.intercalate found = String.ofList ds := Except.ok.inj returned
  rw [List.map_cons, List.mapM_cons, first.text, ok_bind, texts]
  cases items with
  | nil => exact absurd rfl filled
  | cons u more =>
    rw [List.map_cons, List.mapM_cons] at texts
    obtain ⟨a, -, others⟩ := ok_of_bind texts
    obtain ⟨as, -, both⟩ := ok_of_bind others
    obtain rfl : a :: as = found := Except.ok.inj both
    refine congrArg Except.ok ?_
    rw [String.intercalate_cons_cons, joined, ← String.toList_inj]
    simp

/-! ### Identifiers -/

/-- Word characters, and the line feed that may end an identifier. -/
def isNameChar (c : Char) : Bool := isAsciiWord c || c == '\n'

/-- A valid identifier without pragmas. Its comment is not printed. -/
structure Identifier where
  text : String
  comment : Term
  valid : Name.isIdentifier text = true

namespace Identifier

/-- The identifier as a construct; the name of a type variable has an apostrophe in front. -/
def term (isName : Bool) (i : Identifier) : Term :=
  .node (.name .identifier) [.text i.text, .list [], i.comment, .truth isName]

def chars (i : Identifier) : List Char := i.text.toList

def bare (i : Identifier) : Identifier := { i with comment := .absent }

variable {i j : Identifier}

theorem prints (isName : Bool) (i : Identifier) :
    Prints (i.term isName) ((if isName then ['\''] else []) ++ i.chars) := by
  rw [Prints, term, Term.print_node]
  cases isName <;> simp [Form.text, Form.isSilent, Form.layout, NameForm.layout, pragmasLayout,
    Term.printed, Printed.isTruthy, Printed.term, Printed.text, Term.isTruthy, Term.atomText, chars,
    ok_bind, pure, Except.pure]

theorem chars_bare (i : Identifier) : i.bare.chars = i.chars := rfl

theorem bare_eq_iff : i.bare = j.bare ↔ i.chars = j.chars := by
  constructor
  · intro same
    rw [← chars_bare i, same, chars_bare]
  · intro same
    have texts : i.text = j.text := String.toList_inj.mp same
    simp [bare, texts]

theorem spelled (i : Identifier) :
    ∃ c cs, i.chars = c :: cs ∧ c.isAlpha = true ∧ ∀ d ∈ c :: cs, isNameChar d = true := by
  have valid := i.valid
  unfold Name.isIdentifier at valid
  cases spelling : i.text.toList with
  | nil => simp [spelling, Name.dropIdentifier] at valid
  | cons c cs =>
    rw [spelling, Name.dropIdentifier] at valid
    split at valid
    case isFalse => simp at valid
    case isTrue letter =>
      have ended : Name.atEnd (cs.dropWhile isAsciiWord) = true := by simpa using valid
      refine ⟨c, cs, spelling, letter, fun d member => ?_⟩
      rcases List.mem_cons.mp member with rfl | member
      · simp [isNameChar, isAsciiWord, Char.isAlphanum, letter]
      · rw [← List.takeWhile_append_dropWhile (p := isAsciiWord) (l := cs), List.mem_append] at member
        rcases member with inWord | atEnd
        · have := List.all_eq_true.mp (List.all_takeWhile (p := isAsciiWord) (l := cs)) d inWord
          simp [isNameChar, this]
        · unfold Name.atEnd at ended
          split at ended
          case h_1 nothing => simp [nothing] at atEnd
          case h_2 feed =>
            rw [feed, List.mem_singleton] at atEnd
            rw [atEnd]
            rfl
          case h_3 => cases ended

theorem isNameChar_of_mem (member : c ∈ i.chars) : isNameChar c = true := by
  obtain ⟨first, rest, spelling, -, all⟩ := i.spelled
  rw [spelling] at member
  exact all c member

/-- An identifier ends where its characters end. -/
theorem read_unique (stops : Stops isNameChar rest) (stops' : Stops isNameChar rest')
    (same : i.chars ++ rest = j.chars ++ rest') : i.bare = j.bare ∧ rest = rest' := by
  obtain ⟨words, rests⟩ :=
    cut_unique (fun _ => isNameChar_of_mem) (fun _ => isNameChar_of_mem) stops stops' same
  exact ⟨bare_eq_iff.mpr words, rests⟩

end Identifier

/-! ### Paths -/

structure PathName where
  first : Identifier
  more : List Identifier

namespace PathName

def ids (p : PathName) : List Identifier := p.first :: p.more

def term (p : PathName) : Term := .node (.name .path) [.list (p.ids.map (Identifier.term false))]

def tail : List Identifier → List Char
  | [] => []
  | i :: more => ':' :: ':' :: (i.chars ++ tail more)

def chars (p : PathName) : List Char := p.first.chars ++ tail p.more

def bare (p : PathName) : PathName := ⟨p.first.bare, p.more.map Identifier.bare⟩

variable {p q : PathName}

theorem values_ids (is : List Identifier) :
    (is.map (Identifier.term false)).mapM Term.valueMember =
      .ok ((is.map Identifier.text).map Term.text) := by
  induction is with
  | nil => rfl
  | cons i is ih =>
    rw [List.map_cons, List.mapM_cons, ih]
    rfl

theorem fullName_chars (i : Identifier) (more : List Identifier) :
    "::".intercalate ((i :: more).map Identifier.text) = String.ofList (i.chars ++ tail more) := by
  induction more generalizing i with
  | nil => simp [tail, Identifier.chars]
  | cons j more ih =>
    rw [List.map_cons, List.map_cons, String.intercalate_cons_cons, ← List.map_cons, ih j, tail]
    apply String.toList_inj.mp
    simp [Identifier.chars]

theorem prints (p : PathName) : Prints p.term p.chars := by
  rw [Prints, term, Term.print_node]
  have front : Path.printedPragmas (Term.list (p.ids.map (Identifier.term false))).printed =
      .ok (Term.list []).printed := rfl
  have name : Path.fullName (.list (p.ids.map (Identifier.term false))) =
      .ok (.text (String.ofList p.chars)) := by
    rw [fullName_of_values (values_ids p.ids), ids, fullName_chars]
    rfl
  simp only [Form.text, Form.isSilent, Form.layout, List.map_cons, List.map_nil, NameForm.layout,
    pathLayout, Term.term_printed, Term.isList, if_true, front, name, ok_bind]
  simp [pragmasLayout, Printed.isTruthy, Term.isTruthy, ok_bind, pure, Except.pure]

theorem stops_tail (more : List Identifier) : Stops isNameChar (tail more) := by
  cases more with
  | nil => trivial
  | cons i more => rfl

theorem tail_unique {more more' : List Identifier} (same : tail more = tail more') :
    more.map Identifier.bare = more'.map Identifier.bare := by
  induction more generalizing more' with
  | nil =>
    cases more' with
    | nil => rfl
    | cons j more' => cases same
  | cons i more ih =>
    cases more' with
    | nil => cases same
    | cons j more' =>
      simp only [tail, List.cons.injEq, true_and] at same
      obtain ⟨heads, tails⟩ := Identifier.read_unique (stops_tail more) (stops_tail more') same
      rw [List.map_cons, List.map_cons, heads, ih tails]

theorem tail_bare (more : List Identifier) : tail (more.map Identifier.bare) = tail more := by
  induction more with
  | nil => rfl
  | cons i more ih => rw [List.map_cons, tail, tail, ih, Identifier.chars_bare]

theorem chars_bare (p : PathName) : p.bare.chars = p.chars := by
  rw [chars, chars, bare, Identifier.chars_bare, tail_bare]

theorem bare_eq_iff : p.bare = q.bare ↔ p.chars = q.chars := by
  constructor
  · intro same
    rw [← chars_bare p, same, chars_bare]
  · intro same
    obtain ⟨firsts, tails⟩ := Identifier.read_unique (stops_tail p.more) (stops_tail q.more) same
    rw [bare, bare, firsts, tail_unique tails]

theorem char_cases (member : c ∈ p.chars) : isNameChar c = true ∨ c = ':' := by
  have inTail : ∀ more : List Identifier, c ∈ tail more → isNameChar c = true ∨ c = ':' := by
    intro more
    induction more with
    | nil => intro member; cases member
    | cons i more ih =>
      intro member
      simp only [tail, List.mem_cons, List.mem_append] at member
      rcases member with rfl | rfl | inside | later
      · exact .inr rfl
      · exact .inr rfl
      · exact .inl (Identifier.isNameChar_of_mem inside)
      · exact ih later
  rcases List.mem_append.mp member with inside | later
  · exact .inl (Identifier.isNameChar_of_mem inside)
  · exact inTail p.more later

theorem head_isAlpha (p : PathName) : ∃ c cs, p.chars = c :: cs ∧ c.isAlpha = true := by
  obtain ⟨c, cs, spelling, letter, -⟩ := p.first.spelled
  exact ⟨c, cs ++ tail p.more, by rw [chars, spelling, List.cons_append], letter⟩

end PathName

/-! ### Numeric literals -/

structure NumericLiteral where
  text : String
  valid : Numeral.isLiteral text = true

namespace NumericLiteral

def term (n : NumericLiteral) : Term :=
  .node (.expr .literal) [.text n.text, .constant (.literalKind .numeric)]

def chars (n : NumericLiteral) : List Char := n.text.toList

theorem prints (n : NumericLiteral) : Prints n.term n.chars := by
  rw [Prints, term, Term.print_node]
  simp [Form.text, Form.isSilent, Form.layout, ExprForm.layout, Term.printed, Printed.text,
    Term.atomText, chars]

theorem chars_inj {n m : NumericLiteral} (same : n.chars = m.chars) : n = m := by
  cases n
  cases m
  have texts := String.toList_inj.mp same
  simpa using texts

end NumericLiteral

/-! ### Atoms -/

/-- The words that stand for values: paths and numeric literals. -/
inductive Atom where
  | path (p : PathName)
  | literal (n : NumericLiteral)

namespace Atom

def term : Atom → Term
  | path p => .node (.expr .path) [p.term]
  | literal n => n.term

def chars : Atom → List Char
  | path p => p.chars
  | literal n => n.chars

def bare : Atom → Atom
  | path p => path p.bare
  | literal n => literal n

def isAtomChar (c : Char) : Bool := isNameChar c || Numeral.isNumeralChar c || c == ':'

theorem prints (a : Atom) : Prints a.term a.chars := by
  cases a with
  | literal n => exact n.prints
  | path p =>
    rw [Prints, term, Term.print_node]
    exact p.prints

theorem isAtomChar_of_mem (member : c ∈ a.chars) : isAtomChar c = true := by
  cases a with
  | path p =>
    rcases PathName.char_cases member with name | rfl
    · simp [isAtomChar, name]
    · decide
  | literal n =>
    obtain ⟨first, rest, spelling, -, all⟩ := Numeral.isLiteral_spelled n.valid
    have inside : c ∈ first :: rest := by rw [← spelling]; exact member
    simp [isAtomChar, all c inside]

theorem chars_bare (a : Atom) : a.bare.chars = a.chars := by
  cases a with
  | path p => exact p.chars_bare
  | literal n => rfl

/-- A path starts with a letter and a literal does not, so the text of an atom tells which it is. -/
theorem bare_eq_iff {b : Atom} : a.bare = b.bare ↔ a.chars = b.chars := by
  constructor
  · intro same
    rw [← chars_bare a, same, chars_bare]
  · have apart : ∀ (p : PathName) (n : NumericLiteral), p.chars ≠ n.chars := by
      intro p n same
      obtain ⟨c, cs, path, letter⟩ := p.head_isAlpha
      obtain ⟨d, ds, number, noLetter, -⟩ := Numeral.isLiteral_spelled n.valid
      have heads : c :: cs = d :: ds := by rw [← path, same, ← number]; rfl
      rw [List.cons.injEq] at heads
      rw [← heads.1, letter] at noLetter
      cases noLetter
    intro same
    cases a with
    | path p =>
      cases b with
      | path q => rw [bare, bare, PathName.bare_eq_iff.mpr same]
      | literal n => exact absurd same (apart p n)
    | literal n =>
      cases b with
      | path q => exact absurd same.symm (apart q n)
      | literal m => rw [NumericLiteral.chars_inj same]

/-- An atom ends where the characters of atoms end. -/
theorem read_unique {b : Atom} (stops : Stops isAtomChar rest) (stops' : Stops isAtomChar rest')
    (same : a.chars ++ rest = b.chars ++ rest') : a.bare = b.bare ∧ rest = rest' := by
  obtain ⟨words, rests⟩ :=
    cut_unique (fun _ => isAtomChar_of_mem) (fun _ => isAtomChar_of_mem) stops stops' same
  exact ⟨bare_eq_iff.mpr words, rests⟩

end Atom

end SwanModel.Printing
