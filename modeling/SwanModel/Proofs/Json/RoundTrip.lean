import Mathlib.Data.List.Forall2
import SwanModel.Proofs.Json.Scalars

/-!
# Reading back what is written

A value without reals is read back from its text, in every layout. When the keys are sorted the
objects that are read are the same as maps.
-/

namespace SwanModel.Json

open Numeral

variable {cs : List Char} {c : Char} {fuel : Nat}

/-! ### Data -/

mutual

/-- Whether a value has no real number and no integer with too many digits in it, and each key of an
object once. -/
def isData : Json → Bool
  | .real _ => false
  | .int n => decide ((Nat.toDigits 10 n.natAbs).length ≤ digitLimit)
  | .arr items => areData items
  | .obj fields => decide (fields.map Prod.fst).Nodup && fieldsAreData fields
  | _ => true

def areData : List Json → Bool
  | [] => true
  | v :: vs => v.isData && areData vs

def fieldsAreData : List (String × Json) → Bool
  | [] => true
  | (_, v) :: rest => v.isData && fieldsAreData rest

end

/-- Two values are the same but for the order of the keys in objects. -/
inductive Same : Json → Json → Prop
  | refl (v : Json) : Same v v
  | arr {xs ys : List Json} (items : List.Forall₂ Same xs ys) : Same (.arr xs) (.arr ys)
  | obj {xs ys : List (String × Json)}
    (fields : ∀ key, Option.Rel Same (lookup xs key) (lookup ys key)) : Same (.obj xs) (.obj ys)

structure Style.IsLayout (style : Style) : Prop where
  indent : ∀ blank ∈ style.indent, ∀ c ∈ blank.toList, c = ' '
  items : style.itemSeparator = none
  keys : style.keySeparator = ": "
  numbers : style.allowNan = true

/-! ### White space -/

def Blank (cs : List Char) : Prop := ∀ c ∈ cs, c = ' ' ∨ c = '\n'

theorem Blank.isSpace (blank : Blank cs) : ∀ c ∈ cs, Json.isSpace c = true := by
  intro c member
  rcases blank c member with rfl | rfl <;> rfl

theorem skip_cons (solid : Json.isSpace c = false) (rest : List Char) :
    Json.skip (c :: rest) = c :: rest := by
  simp [Json.skip, solid]

theorem Blank.skip (blank : Blank cs) (solid : Json.isSpace c = false) (rest : List Char) :
    Json.skip (cs ++ c :: rest) = c :: rest := by
  rw [Json.skip, List.dropWhile_append_of_pos blank.isSpace]
  exact skip_cons solid rest

theorem Blank.ends (blank : Blank cs) (ends : ∀ rest, Ends (c :: rest)) (rest : List Char) :
    Ends (cs ++ c :: rest) := by
  cases cs with
  | nil => exact ends rest
  | cons d cs =>
    intro e member
    cases member
    rcases blank d List.mem_cons_self with rfl | rfl <;> decide

theorem ends_cons (other : c.isDigit = false ∧ c ≠ '.' ∧ c ≠ 'e' ∧ c ≠ 'E') (rest : List Char) :
    Ends (c :: rest) := by
  intro d member
  cases member
  exact other

namespace Style

variable {style : Style}

theorem IsLayout.newline (layout : style.IsLayout) (depth : Nat) :
    Blank (style.newline depth).toList := by
  unfold Style.newline
  split
  · intro c member
    cases member
  · rename_i blank indented
    intro c member
    rw [String.toList_append, List.mem_append] at member
    rcases member with line | inside
    · exact .inr (List.mem_singleton.mp line)
    · rw [String.toList_join, List.mem_flatMap] at inside
      obtain ⟨_, copy, inside⟩ := inside
      rw [(List.mem_replicate.mp copy).2] at inside
      exact .inl (layout.indent blank indented c inside)

theorem IsLayout.comma (layout : style.IsLayout) (depth : Nat) :
    ∃ blank, (style.comma ++ style.newline depth).toList = ',' :: blank ∧ Blank blank := by
  have newline := layout.newline depth
  rw [Style.comma, layout.items, Option.getD_none]
  split
  · exact ⟨(style.newline depth).toList, by simp, newline⟩
  · refine ⟨' ' :: (style.newline depth).toList, by simp, fun c member => ?_⟩
    rcases List.mem_cons.mp member with rfl | member
    · exact .inl rfl
    · exact newline c member

end Style

/-! ### Reading -/

/-- A text is read as a value, whatever comes behind it, if that cannot go on a number. -/
structure Reads (text : List Char) (v : Json) : Prop where
  starts : ∃ c cs, text = c :: cs ∧ isSpace c = false ∧ c ≠ ']'
  reads : ∀ fuel rest, 2 * text.length ≤ fuel → Ends rest → value fuel (text ++ rest) = .ok (v, rest)
  noReturn : '\r' ∉ text

section Lists

variable {α : Type} (text : α → List Char) (result : α → Json) (blank : List Char)

def behind (xs : List α) : List Char := xs.flatMap fun x => ',' :: (blank ++ text x)

variable {text result blank} {last : List Char} (isBlank : Blank blank) (isLast : Blank last)

theorem length_behind (x : α) (xs : List α) : (behind text blank (x :: xs)).length =
    blank.length + (text x).length + (behind text blank xs).length + 1 := by
  simp only [behind, List.flatMap_cons, List.length_append, List.length_cons]
  omega

theorem Blank.ends_behind {close : Char} (isLast : Blank last) (ends : ∀ rest, Ends (close :: rest))
    (xs : List α) (rest : List Char) : Ends (behind text blank xs ++ (last ++ close :: rest)) := by
  cases xs with
  | nil => exact isLast.ends ends rest
  | cons x xs => exact ends_cons (by decide) _

include isBlank isLast

theorem items_read {x : α} {xs : List α} (each : ∀ y ∈ x :: xs, Reads (text y) (result y))
    (enough : 2 * ((text x).length + (behind text blank xs).length + 1) ≤ fuel) (done : List Json)
    (rest : List Char) :
    items fuel done (text x ++ (behind text blank xs ++ (last ++ ']' :: rest))) =
      .ok (done.reverse ++ (x :: xs).map result, rest) := by
  have close : ∀ rest, Ends (']' :: rest) := ends_cons (by decide)
  induction xs generalizing x fuel done with
  | nil =>
    obtain ⟨fuel, rfl⟩ : ∃ n, fuel = n + 1 := ⟨fuel - 1, by omega⟩
    rw [items, (each x List.mem_cons_self).reads fuel _ (by omega) (isLast.ends_behind close [] rest)]
    simp only [behind, List.flatMap_nil, List.nil_append,
      isLast.skip (show isSpace ']' = false from rfl)]
    simp
  | cons y ys ih =>
    rw [length_behind] at enough
    obtain ⟨fuel, rfl⟩ : ∃ n, fuel = n + 1 := ⟨fuel - 1, by omega⟩
    obtain ⟨c, cs, starts, solid, -⟩ := (each y (by simp)).starts
    have others := ih (fun z member =>
      each z (List.mem_cons_of_mem x member)) (show _ ≤ fuel by omega) (result x :: done)
    rw [items,
      (each x List.mem_cons_self).reads fuel _ (by omega) (isLast.ends_behind close (y :: ys) rest)]
    simp only [starts, List.cons_append] at others
    simp only [behind, List.flatMap_cons, starts, List.cons_append, List.append_assoc,
      skip_cons (show isSpace ',' = false from rfl), isBlank.skip solid]
    rw [← behind, others]
    simp

end Lists

theorem put_of_not_mem {fields : List (String × Json)} {key : String}
    (absent : key ∉ fields.map Prod.fst) (v : Json) : put fields key v = fields ++ [(key, v)] := by
  induction fields with
  | nil => rfl
  | cons field rest ih =>
    rw [List.map_cons, List.mem_cons, not_or] at absent
    have other : (field.1 == key) = false := beq_eq_false_iff_ne.mpr fun same => absent.1 same.symm
    simp [put, other, ih absent.2]

theorem put_of_distinct {fields : List (String × Json)} {key : String} {keys : List String}
    (distinct : (fields.map Prod.fst ++ key :: keys).Nodup) (v : Json) :
    put fields key v = fields ++ [(key, v)] :=
  put_of_not_mem (fun inside => (List.nodup_append.mp distinct).2.2 _ inside _ List.mem_cons_self rfl) v

section Members

variable {α : Type} (ascii : Bool) (key : α → String) (text : α → List Char) (result : α → Json)
  {blank last : List Char}

def memberText (x : α) : List Char := (writeString ascii (key x)).toList ++ ':' :: ' ' :: text x

theorem members_step {x : α} (reads : Reads (text x) (result x)) (enough : 2 * (text x).length ≤ fuel)
    (done : List (String × Json)) {rest : List Char} (ends : Ends rest) :
    members (fuel + 1) done (memberText ascii key text x ++ rest) = match skip rest with
      | '\x7d' :: rest => .ok (put done (key x) (result x), rest)
      | ',' :: rest => members fuel (put done (key x) (result x)) (skip rest)
      | _ => .error .notJson := by
  obtain ⟨body, quoted, read⟩ := stringBody_writeString ascii (key x) (':' :: ' ' :: (text x ++ rest))
  obtain ⟨c, cs, starts, solid, -⟩ := reads.starts
  have blank : skip (' ' :: (text x ++ rest)) = text x ++ rest := by
    rw [starts]
    exact (show Blank [' '] by simp [Blank]).skip solid _
  rw [memberText, quoted, List.append_assoc, List.cons_append, members]
  have colon : skip (':' :: ' ' :: (text x ++ rest)) = ':' :: ' ' :: (text x ++ rest) := skip_cons rfl _
  simp only [List.cons_append, read, colon, blank]
  rewrite [reads.reads fuel rest enough ends]
  rfl

theorem length_le_memberText (x : α) : (text x).length ≤ (memberText ascii key text x).length := by
  simp [memberText]
  omega

theorem memberText_starts (x : α) : ∃ cs, memberText ascii key text x = '"' :: cs := by
  obtain ⟨body, quoted, -⟩ := stringBody_writeString ascii (key x) []
  rw [memberText, quoted]
  exact ⟨_, rfl⟩

variable {ascii key text result} (isBlank : Blank blank) (isLast : Blank last)
include isBlank isLast

theorem members_read {x : α} {xs : List α} (each : ∀ y ∈ x :: xs, Reads (text y) (result y))
    (enough : 2 * ((memberText ascii key text x).length +
      (behind (memberText ascii key text) blank xs).length + 1) ≤ fuel)
    {done : List (String × Json)} (distinct : (done.map Prod.fst ++ (x :: xs).map key).Nodup)
    (rest : List Char) :
    members fuel done
        (memberText ascii key text x ++
          (behind (memberText ascii key text) blank xs ++ (last ++ '\x7d' :: rest))) =
      .ok (done ++ (x :: xs).map fun y => (key y, result y), rest) := by
  have close : ∀ rest, Ends ('\x7d' :: rest) := ends_cons (by decide)
  induction xs generalizing x fuel done with
  | nil =>
    have short := length_le_memberText ascii key text x
    obtain ⟨fuel, rfl⟩ : ∃ n, fuel = n + 1 := ⟨fuel - 1, by omega⟩
    rw [members_step ascii key text result (each x List.mem_cons_self) (by omega) done
      (isLast.ends_behind close [] rest), put_of_distinct distinct]
    simp only [behind, List.flatMap_nil, List.nil_append,
      isLast.skip (show isSpace '\x7d' = false from rfl)]
    simp
  | cons y ys ih =>
    have short := length_le_memberText ascii key text x
    rw [length_behind] at enough
    obtain ⟨fuel, rfl⟩ : ∃ n, fuel = n + 1 := ⟨fuel - 1, by omega⟩
    obtain ⟨cs, starts⟩ := memberText_starts ascii key text y
    have others := ih (fun z member => each z (List.mem_cons_of_mem x member)) (show _ ≤ fuel by omega)
      (show ((done ++ [(key x, result x)]).map Prod.fst ++
        (y :: ys).map key).Nodup by simpa using distinct)
    rw [members_step ascii key text result (each x List.mem_cons_self) (by omega) done
      (isLast.ends_behind close (y :: ys) rest), put_of_distinct distinct]
    simp only [starts, List.cons_append] at others
    simp only [behind, List.flatMap_cons, starts, List.cons_append, List.append_assoc,
      skip_cons (show isSpace ',' = false from rfl), isBlank.skip (show isSpace '"' = false from rfl)]
    rw [← behind, others]
    simp

end Members

/-! ### Texts -/

section Enclosed

variable {α : Type} {style : Style} (layout : style.IsLayout)

theorem toList_intercalate_cons (separator : String) (f : α → String) (x : α) (xs : List α) :
    (separator.intercalate ((x :: xs).map f)).toList =
      (f x).toList ++ xs.flatMap fun y => separator.toList ++ (f y).toList := by
  rw [String.toList_intercalate]
  induction xs generalizing x with
  | nil => simp
  | cons y ys ih =>
    have others := ih y
    simp only [List.map_cons, List.intercalate_cons_cons, List.flatMap_cons] at others ⊢
    rw [others]
    simp

include layout

theorem toList_enclose (depth : Nat) (opening closing : String) (f : α → String) (x : α) (xs : List α) :
    ∃ first blank last, Blank first ∧ Blank blank ∧ Blank last ∧
      (style.enclose depth opening closing ((x :: xs).map f)).toList = opening.toList ++
        (first ++ ((f x).toList ++
          (behind (fun y => (f y).toList) blank xs ++ (last ++ closing.toList)))) := by
  obtain ⟨blank, comma, isBlank⟩ := layout.comma (depth + 1)
  refine ⟨_, blank, _, layout.newline (depth + 1), isBlank, layout.newline depth, ?_⟩
  simp only [Style.enclose, List.map_cons]
  rw [← List.map_cons (f := f)]
  simp only [String.toList_append, toList_intercalate_cons, comma, behind, List.append_assoc,
    List.cons_append]

end Enclosed

/-! ### Values -/

theorem Reads.of_scalar {text : List Char} {v : Json} (starts : text = c :: cs)
    (other : isSpace c = false ∧ c ≠ ']' ∧ c ≠ '"' ∧ c ≠ '[' ∧ c ≠ '\x7b')
    (read : ∀ rest, Ends rest → scalar (text ++ rest) = .ok (v, rest)) (noReturn : '\r' ∉ text) :
    Reads text v where
  starts := ⟨c, cs, starts, other.1, other.2.1⟩
  reads fuel rest enough ends := by
    obtain ⟨fuel, rfl⟩ : ∃ n, fuel = n + 1 := ⟨fuel - 1, by simp [starts] at enough; omega⟩
    rw [← read rest ends, starts, List.cons_append, value]
    · exact fun _ same => other.2.2.1 (List.cons.inj same).1
    · exact fun _ same => other.2.2.2.1 (List.cons.inj same).1
    · exact fun _ same => other.2.2.2.2 (List.cons.inj same).1
  noReturn := noReturn

theorem reads_null : Reads "null".toList .null :=
  .of_scalar rfl (by decide) (fun _ _ => rfl) (by decide)

theorem reads_bool (b : Bool) : Reads (if b then "true" else "false").toList (.bool b) := by
  cases b
  · exact .of_scalar rfl (by decide) (fun _ _ => rfl) (by decide)
  · exact .of_scalar rfl (by decide) (fun _ _ => rfl) (by decide)

theorem reads_int {n : Int} (short : (Nat.toDigits 10 n.natAbs).length ≤ digitLimit) :
    Reads (textOfInt n).toList (.int n) := by
  have digits : ∀ m, ∀ c ∈ Nat.toDigits 10 m, c.isDigit = true :=
    fun m c => Nat.isDigit_of_mem_toDigits (by decide) (by decide)
  have noReturn : ∀ m, '\r' ∉ Nat.toDigits 10 m := fun m inside => by cases digits m _ inside
  cases n with
  | ofNat m =>
    obtain ⟨c, cs, row, digit⟩ := toDigits_cons m
    refine .of_scalar (by simp [textOfInt, row]; exact ⟨rfl, rfl⟩) ?_ (fun rest ends =>
      scalar_textOfInt short ends) ?_
    · have other : ∀ d : Char, d.isDigit = false → c ≠ d := fun d => ne_of_isDigit digit
      exact ⟨by simp [isSpace, other], other _ rfl, other _ rfl, other _ rfl, other _ rfl⟩
    · simpa [textOfInt] using noReturn m
  | negSucc m =>
    refine .of_scalar (by simp [textOfInt]; exact ⟨rfl, rfl⟩) (by decide) (fun rest ends =>
      scalar_textOfInt short ends) ?_
    simpa [textOfInt] using noReturn (m + 1)

theorem reads_string (ascii : Bool) (s : String) : Reads (writeString ascii s).toList (.str s) where
  starts := ⟨'"', _, by simp [writeString]; rfl, rfl, by decide⟩
  reads fuel rest enough ends := by
    obtain ⟨body, quoted, read⟩ := stringBody_writeString ascii s rest
    obtain ⟨fuel, rfl⟩ : ∃ n, fuel = n + 1 := ⟨fuel - 1, by simp [quoted] at enough; omega⟩
    rw [quoted, List.cons_append, value, read]
    rfl
  noReturn := by
    simp [writeString, (stringChar_written ascii _).noReturn]

section Compound

variable {α : Type}

theorem Blank.noReturn (blank : Blank cs) : '\r' ∉ cs := by
  intro inside
  rcases blank _ inside with same | same <;> cases same

theorem behind_noReturn {text : α → List Char} {blank : List Char} (isBlank : Blank blank) {xs : List α}
    (each : ∀ x ∈ xs, '\r' ∉ text x) : '\r' ∉ behind text blank xs := by
  intro inside
  obtain ⟨x, member, inside⟩ := List.mem_flatMap.mp inside
  rcases List.mem_cons.mp inside with same | inside
  · cases same
  · rcases List.mem_append.mp inside with inside | inside
    · exact isBlank.noReturn inside
    · exact each x member inside

theorem Reads.enclosed {opening closing : Char} {first blank last : List Char}
    {text : α → List Char} {x : α} {xs : List α} {v : Json} (isFirst : Blank first)
    (isBlank : Blank blank) (isLast : Blank last)
    (other : isSpace opening = false ∧ opening ≠ ']' ∧ '\r' ≠ opening ∧ '\r' ≠ closing)
    (noReturn : ∀ y ∈ x :: xs, '\r' ∉ text y)
    (read : ∀ fuel rest, 2 * ((text x).length + (behind text blank xs).length + 1) ≤ fuel →
      value (fuel + 1)
        (opening :: (first ++ (text x ++ (behind text blank xs ++ (last ++ closing :: rest))))) =
          .ok (v, rest)) :
    Reads (opening :: (first ++ (text x ++ (behind text blank xs ++ (last ++ [closing]))))) v where
  starts := ⟨opening, _, rfl, other.1, other.2.1⟩
  reads fuel rest enough _ := by
    simp only [List.length_cons, List.length_append, List.length_nil] at enough
    obtain ⟨fuel, rfl⟩ : ∃ n, fuel = n + 1 := ⟨fuel - 1, by omega⟩
    have read := read fuel rest (by omega)
    simpa using read
  noReturn := by
    have others := behind_noReturn isBlank fun y member => noReturn y (List.mem_cons_of_mem x member)
    simp only [List.mem_cons, List.mem_append, List.not_mem_nil, not_or, or_false]
    exact ⟨other.2.2.1, isFirst.noReturn, noReturn x List.mem_cons_self, others, isLast.noReturn,
      other.2.2.2⟩

variable {style : Style} (layout : style.IsLayout) (depth : Nat)
include layout

theorem reads_array {xs : List α} {f : α → String} {result : α → Json}
    (each : ∀ x ∈ xs, Reads (f x).toList (result x)) :
    Reads (style.enclose depth "[" "]" (xs.map f)).toList (.arr (xs.map result)) := by
  cases xs with
  | nil =>
    refine ⟨⟨'[', [']'], by simp [Style.enclose], by decide⟩, fun fuel rest enough _ => ?_,
      by simp [Style.enclose]⟩
    obtain ⟨fuel, rfl⟩ : ∃ n, fuel = n + 1 := ⟨fuel - 1, by simp [Style.enclose] at enough; omega⟩
    simp [Style.enclose, value, skip, isSpace]
  | cons x xs =>
    obtain ⟨first, blank, last, isFirst, isBlank, isLast, text⟩ :=
      toList_enclose layout depth "[" "]" f x xs
    rw [text, show "[".toList = ['['] from rfl, show "]".toList = [']'] from rfl, List.singleton_append]
    refine .enclosed isFirst isBlank isLast (by decide) (fun y member =>
      (each y member).noReturn) fun fuel rest enough => ?_
    obtain ⟨c, cs, starts, solid, noBracket⟩ := (each x List.mem_cons_self).starts
    have read := items_read isBlank isLast each enough [] rest
    rw [starts, List.cons_append] at read ⊢
    rw [value, isFirst.skip solid]
    simp [read, noBracket, Except.map]

theorem reads_object {xs : List α} {key : α → String} {f : α → String} {result : α → Json}
    (distinct : (xs.map key).Nodup) (each : ∀ x ∈ xs, Reads (f x).toList (result x)) :
    Reads (style.enclose depth "\x7b" "\x7d"
      (xs.map fun x => writeString style.ascii (key x) ++ style.keySeparator ++ f x)).toList
      (.obj (xs.map fun x => (key x, result x))) := by
  cases xs with
  | nil =>
    refine ⟨⟨'\x7b', ['\x7d'], by simp [Style.enclose], by decide⟩, fun fuel rest enough _ => ?_,
      by simp [Style.enclose]⟩
    obtain ⟨fuel, rfl⟩ : ∃ n, fuel = n + 1 := ⟨fuel - 1, by simp [Style.enclose] at enough; omega⟩
    simp [Style.enclose, value, skip, isSpace]
  | cons x xs =>
    obtain ⟨first, blank, last, isFirst, isBlank, isLast, text⟩ :=
      toList_enclose layout depth "\x7b" "\x7d" (fun x =>
        writeString style.ascii (key x) ++ style.keySeparator ++ f x) x xs
    have member : (fun x => (writeString style.ascii (key x) ++ style.keySeparator ++ f x).toList) =
        memberText style.ascii key fun x => (f x).toList := by
      funext x
      simp [memberText, layout.keys]
    rw [text, show "\x7b".toList = ['\x7b'] from rfl, show "\x7d".toList = ['\x7d'] from rfl,
      List.singleton_append, member, congrFun member x]
    refine .enclosed isFirst isBlank isLast (by decide) (fun y present => ?_) fun fuel rest enough => ?_
    · have noReturn := (reads_string style.ascii (key y)).noReturn
      simp [memberText, noReturn, (each y present).noReturn]
    · obtain ⟨cs, starts⟩ := memberText_starts style.ascii key (fun x => (f x).toList) x
      have read := members_read isBlank isLast each enough
        (show (([] : List (String × Json)).map Prod.fst ++ (x :: xs).map key).Nodup from distinct) rest
      rw [starts, List.cons_append] at read ⊢
      rw [value, isFirst.skip rfl]
      simp [read, Except.map]

end Compound

/-! ### The round trip -/

mutual

/-- A value with the keys of its objects in the order of a style. -/
def ordered (style : Style) : Json → Json
  | .arr items => .arr (orderedItems style items)
  | .obj fields => .obj (style.order (orderedFields style fields))
  | v => v

def orderedItems (style : Style) : List Json → List Json
  | [] => []
  | v :: vs => v.ordered style :: orderedItems style vs

def orderedFields (style : Style) : List (String × Json) → List (String × Json)
  | [] => []
  | (key, v) :: rest => (key, v.ordered style) :: orderedFields style rest

end

variable {style : Style} {fields : List (String × Json)} {items : List Json} {v : Json} {depth : Nat}

theorem writeItems_eq_map (style : Style) (depth : Nat) (items : List Json) :
    writeItems style depth items = items.map (writeAt style depth) := by
  induction items with
  | nil => simp [writeItems]
  | cons v vs ih => simp [writeItems, ih]

theorem orderedItems_eq_map (style : Style) (items : List Json) :
    orderedItems style items = items.map (ordered style) := by
  induction items with
  | nil => simp [orderedItems]
  | cons v vs ih => simp [orderedItems, ih]

theorem writeFields_eq_map (style : Style) (depth : Nat) (fields : List (String × Json)) :
    writeFields style depth fields = fields.map fun field => (field.1, writeAt style depth field.2) := by
  induction fields with
  | nil => simp [writeFields]
  | cons field rest ih => simp [writeFields, ih]

theorem orderedFields_eq_map (style : Style) (fields : List (String × Json)) :
    orderedFields style fields = fields.map fun field => (field.1, field.2.ordered style) := by
  induction fields with
  | nil => simp [orderedFields]
  | cons field rest ih => simp [orderedFields, ih]

/-- The order of keys does not depend on what stands under them. -/
theorem Style.order_map {α β : Type} (style : Style) (f : α → β) (fields : List (String × α)) :
    style.order (fields.map fun field => (field.1, f field.2)) =
      (style.order fields).map fun field => (field.1, f field.2) := by
  unfold Style.order
  split
  · refine (List.map_mergeSort fun a _ b _ => ?_).symm
    rfl
  · rfl

theorem Style.order_perm {α : Type} (style : Style) (fields : List (String × α)) :
    (style.order fields).Perm fields := by
  unfold Style.order
  split
  · exact List.mergeSort_perm fields _
  · exact .refl fields

mutual

/-- A value is read back from its text at any depth. -/
theorem reads_writeAt (layout : style.IsLayout) (v : Json) (data : v.isData = true) (depth : Nat) :
    Reads (writeAt style depth v).toList (v.ordered style) := by
  cases v with
  | null => simpa [writeAt, ordered] using reads_null
  | bool b => simpa [writeAt, ordered] using reads_bool b
  | int n =>
    simp only [isData, decide_eq_true_eq] at data
    simpa [writeAt, ordered] using reads_int data
  | real x => cases data
  | str s => simpa [writeAt, ordered] using reads_string style.ascii s
  | arr items =>
    simp only [isData] at data
    rw [writeAt, ordered, writeItems_eq_map, orderedItems_eq_map]
    exact reads_array layout depth fun item member =>
      reads_items layout items data item member (depth + 1)
  | obj fields =>
    simp only [isData, Bool.and_eq_true, decide_eq_true_eq] at data
    have perm := style.order_perm fields
    rw [writeAt, ordered, writeFields_eq_map, orderedFields_eq_map, Style.order_map,
      Style.order_map, List.map_map]
    refine reads_object layout depth ?_ fun field member => ?_
    · exact (perm.map Prod.fst).nodup_iff.mpr data.1
    · exact reads_fields layout fields data.2 field (perm.mem_iff.mp member) (depth + 1)

theorem reads_items (layout : style.IsLayout) (items : List Json) (data : areData items = true) :
    ∀ item ∈ items, ∀ depth, Reads (writeAt style depth item).toList (item.ordered style) := by
  cases items with
  | nil =>
    intro item member
    cases member
  | cons v vs =>
    simp only [areData, Bool.and_eq_true] at data
    intro item member depth
    rcases List.mem_cons.mp member with same | member
    · rw [same]
      exact reads_writeAt layout v data.1 depth
    · exact reads_items layout vs data.2 item member depth

theorem reads_fields (layout : style.IsLayout) (fields : List (String × Json))
    (data : fieldsAreData fields = true) :
    ∀ field ∈ fields, ∀ depth, Reads (writeAt style depth field.2).toList (field.2.ordered style) := by
  cases fields with
  | nil =>
    intro field member
    cases member
  | cons first rest =>
    obtain ⟨key, v⟩ := first
    simp only [fieldsAreData, Bool.and_eq_true] at data
    intro field member depth
    rcases List.mem_cons.mp member with same | member
    · rw [same]
      exact reads_writeAt layout v data.1 depth
    · exact reads_fields layout rest data.2 field member depth

end

theorem read_of_reads {text : String} (reads : Reads text.toList v) : read text = .ok v := by
  obtain ⟨c, cs, starts, solid, -⟩ := reads.starts
  have whole := reads.reads (2 * text.toList.length + 2) [] (by omega) .nil
  rw [List.append_nil] at whole
  have skipped : skip text.toList = text.toList := by
    rw [starts]
    exact skip_cons solid cs
  simp only [read, skipped, whole]
  rfl

/-! ### Objects as maps -/

theorem lookup_eq_some_iff (distinct : (fields.map Prod.fst).Nodup) {key : String} :
    lookup fields key = some v ↔ (key, v) ∈ fields := by
  induction fields with
  | nil => simp [lookup]
  | cons field rest ih =>
    obtain ⟨k, w⟩ := field
    rw [List.map_cons, List.nodup_cons] at distinct
    simp only [lookup, List.lookup_cons, List.mem_cons] at ih ⊢
    by_cases same : key = k
    · subst same
      have absent : (key, v) ∉ rest := fun inside => distinct.1 (List.mem_map.mpr ⟨_, inside, rfl⟩)
      simp [absent, eq_comm]
    · have other : (key == k) = false := beq_eq_false_iff_ne.mpr same
      simp [other, same, ih distinct.2]

/-- The order of keys that differ does not matter for what stands under them. -/
theorem lookup_perm {others : List (String × Json)} (perm : fields.Perm others)
    (distinct : (fields.map Prod.fst).Nodup) (key : String) : lookup fields key = lookup others key := by
  have distinct' := (perm.map Prod.fst).nodup_iff.mp distinct
  refine Option.ext fun v => ?_
  rw [lookup_eq_some_iff distinct, lookup_eq_some_iff distinct', perm.mem_iff]

theorem lookup_map (f : Json → Json) (fields : List (String × Json)) (key : String) :
    lookup (fields.map fun field => (field.1, f field.2)) key = (lookup fields key).map f := by
  induction fields with
  | nil => rfl
  | cons field rest ih =>
    obtain ⟨k, v⟩ := field
    simp only [lookup, List.map_cons, List.lookup_cons] at ih ⊢
    split
    · rfl
    · exact ih

mutual

theorem same_ordered (style : Style) (v : Json) (data : v.isData = true) : Same v (v.ordered style) := by
  cases v with
  | arr items =>
    rw [ordered, orderedItems_eq_map]
    exact .arr (same_items style items data)
  | obj fields =>
    simp only [isData, Bool.and_eq_true, decide_eq_true_eq] at data
    rw [ordered, orderedFields_eq_map, Style.order_map]
    refine .obj fun key => ?_
    rw [lookup_map, ← lookup_perm (style.order_perm fields).symm data.1]
    cases found : lookup fields key with
    | none => exact .none
    | some v =>
      exact .some (same_fields style fields data.2 _ ((lookup_eq_some_iff data.1).mp found))
  | _ => exact .refl _

theorem same_items (style : Style) (items : List Json) (data : areData items = true) :
    List.Forall₂ Same items (items.map (ordered style)) := by
  cases items with
  | nil => exact .nil
  | cons v vs =>
    simp only [areData, Bool.and_eq_true] at data
    exact .cons (same_ordered style v data.1) (same_items style vs data.2)

theorem same_fields (style : Style) (fields : List (String × Json))
    (data : fieldsAreData fields = true) : ∀ field ∈ fields, Same field.2 (field.2.ordered style) := by
  cases fields with
  | nil =>
    intro field member
    cases member
  | cons first rest =>
    obtain ⟨key, v⟩ := first
    simp only [fieldsAreData, Bool.and_eq_true] at data
    intro field member
    rcases List.mem_cons.mp member with same | member
    · rw [same]
      exact same_ordered style v data.1
    · exact same_fields style rest data.2 field member

end

/-- What is written of data in a layout is one text, without a carriage return, that is read as the
same data. -/
theorem write_data (layout : style.IsLayout) (data : v.isData = true) :
    ∃ text w, write style v = .ok text ∧ '\r' ∉ text.toList ∧ read text = .ok w ∧ Same v w := by
  have reads := reads_writeAt layout v data 0
  refine ⟨_, _, ?_, reads.noReturn, read_of_reads reads, same_ordered style v data⟩
  rw [write, layout.numbers]
  rfl

end SwanModel.Json
