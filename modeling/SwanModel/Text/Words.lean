/-! # Words inside texts -/

namespace SwanModel.Text

def dropWord (word cs : List Char) : Option (List Char) :=
  if word.isPrefixOf cs then some (cs.drop word.length) else none

def holds (word : List Char) : List Char → Bool
  | [] => word.isEmpty
  | c :: cs => word.isPrefixOf (c :: cs) || holds word cs

/-- Splits a text at a word; `skip` characters of the word are still to be passed over. -/
def splitFrom (word : List Char) : Nat → List Char → List Char → List (List Char)
  | _, piece, [] => [piece.reverse]
  | skip + 1, piece, _ :: cs => splitFrom word skip piece cs
  | 0, piece, c :: cs =>
    if word.isPrefixOf (c :: cs) then piece.reverse :: splitFrom word (word.length - 1) [] cs
    else splitFrom word 0 (c :: piece) cs

/-- The pieces of a text between the occurrences of a word that is not empty. -/
def split (word cs : List Char) : List (List Char) := splitFrom word 0 [] cs

def replaceChar (old new : Char) (s : String) : String := s.map fun c => if c == old then new else c

theorem dropWord_eq_some_iff {word cs rest : List Char} :
    dropWord word cs = some rest ↔ cs = word ++ rest := by
  unfold dropWord
  constructor
  · intro h
    split at h
    · rename_i starts
      obtain ⟨tail, rfl⟩ := List.isPrefixOf_iff_prefix.mp starts
      simp_all
    · simp at h
  · rintro rfl
    simp

theorem holds_iff_infix {word cs : List Char} : holds word cs = true ↔ word <:+: cs := by
  induction cs with
  | nil => simp [holds]
  | cons c cs ih => rw [holds, Bool.or_eq_true, ih, List.isPrefixOf_iff_prefix, List.infix_cons_iff]

/-! A piece goes on up to the first character of the word that splits. -/

theorem splitFrom_of_absent {c : Char} {word cs : List Char} (absent : c ∉ cs) (piece rest : List Char) :
    splitFrom (c :: word) 0 piece (cs ++ rest) = splitFrom (c :: word) 0 (cs.reverse ++ piece) rest := by
  induction cs generalizing piece with
  | nil => rfl
  | cons d cs ih =>
    rw [List.mem_cons, not_or] at absent
    have other : (c :: word).isPrefixOf (d :: (cs ++ rest)) = false := by
      rw [List.isPrefixOf_cons_cons, beq_false_of_ne absent.1, Bool.false_and]
    simp [splitFrom, other, ih absent.2]

theorem splitFrom_skip (word front piece rest : List Char) :
    splitFrom word front.length piece (front ++ rest) = splitFrom word 0 piece rest := by
  induction front with
  | nil => rfl
  | cons c front ih => rw [List.cons_append, List.length_cons, splitFrom, ih]

/-- A text without the first character of a word is one piece. -/
theorem split_of_absent {c : Char} {word cs : List Char} (absent : c ∉ cs) :
    split (c :: word) cs = [cs] := by
  have whole : splitFrom (c :: word) 0 [] (cs ++ []) = splitFrom (c :: word) 0 (cs.reverse ++ []) [] :=
    splitFrom_of_absent absent [] []
  rw [List.append_nil] at whole
  rw [split, whole, splitFrom]
  simp

/-- A word ends the piece before it, if the piece does not have the first character of the word. -/
theorem split_append {c : Char} {word piece : List Char} (absent : c ∉ piece) (rest : List Char) :
    split (c :: word) (piece ++ (c :: word ++ rest)) = piece :: split (c :: word) rest := by
  have starts : (c :: word).isPrefixOf (c :: (word ++ rest)) = true := by simp
  rw [split, splitFrom_of_absent absent, List.cons_append, splitFrom, starts, if_pos rfl,
    List.length_cons, Nat.add_sub_cancel, splitFrom_skip]
  simp [split]

end SwanModel.Text
