import SwanModel.Layout.Print

/-!
# Brackets in texts

`Matched` is the grammar of the texts whose brackets match. Pieces that hold one bracket of a pair
each are read with the closing brackets that are due.
-/

namespace SwanModel.Brackets

def closing? : Char → Option Char
  | '(' => some ')'
  | '[' => some ']'
  | '\x7b' => some '\x7d'
  | _ => none

def isBracket (c : Char) : Bool := ['(', ')', '[', ']', '\x7b', '\x7d'].contains c

/-- Texts in which every bracket has its partner, with a text of this kind between the two. -/
inductive Matched : List Char → Prop
  | nil : Matched []
  | other {c : Char} {cs : List Char} (plain : isBracket c = false) (behind : Matched cs) :
    Matched (c :: cs)
  | pair {opening closer : Char} {inner cs : List Char} (closes : closing? opening = some closer)
      (inside : Matched inner) (behind : Matched cs) : Matched (opening :: (inner ++ closer :: cs))

/-- Reads a character while closing brackets are due, the innermost first. -/
def step (due : List Char) (c : Char) : Option (List Char) :=
  if isBracket c then
    match closing? c with
    | some closer => some (closer :: due)
    | none => if due.head? = some c then some due.tail else none
  else some due

/-- Reading the text leaves the brackets due that were due before. -/
abbrev Nested (s : String) : Prop := ∀ due, s.toList.foldlM step due = some due

def Plain (s : String) : Prop := ∀ c ∈ s.toList, isBracket c = false

instance (s : String) : Decidable (Plain s) :=
  decidable_of_iff (s.toList.all (!isBracket ·) = true) (by simp [Plain])

/-- The brackets that are due come one after the other, with matched texts around them. -/
def Closes : List Char → List Char → Prop
  | [], cs => Matched cs
  | closer :: due, cs => ∃ inner rest, cs = inner ++ closer :: rest ∧ Matched inner ∧ Closes due rest

variable {due cs : List Char} {c closer : Char} {s : String}

theorem Closes.other (plain : isBracket c = false) (closes : Closes due cs) : Closes due (c :: cs) := by
  cases due with
  | nil => exact .other plain closes
  | cons closer due =>
    obtain ⟨inner, rest, rfl, inside, behind⟩ := closes
    exact ⟨c :: inner, rest, rfl, .other plain inside, behind⟩

theorem Closes.pair (opens : closing? c = some closer) (closes : Closes (closer :: due) cs) :
    Closes due (c :: cs) := by
  obtain ⟨inner, rest, rfl, inside, behind⟩ := closes
  cases due with
  | nil => exact .pair opens inside behind
  | cons next due =>
    obtain ⟨middle, rest, rfl, between, behind⟩ := behind
    exact ⟨c :: (inner ++ closer :: middle), rest, by simp, .pair opens inside between, behind⟩

theorem closes_of_foldlM (read : cs.foldlM step due = some []) : Closes due cs := by
  induction cs generalizing due with
  | nil =>
    obtain rfl : due = [] := by simpa using read
    exact .nil
  | cons c cs ih =>
    obtain ⟨next, stepped, read⟩ : ∃ next, step due c = some next ∧ cs.foldlM step next = some [] := by
      simpa [Option.bind_eq_some_iff] using read
    unfold step at stepped
    split at stepped
    next =>
      split at stepped
      next closer opens =>
        cases stepped
        exact (ih read).pair opens
      next =>
        obtain ⟨top, rfl⟩ := by simpa using stepped
        cases due with
        | nil => cases top
        | cons closer due =>
          cases top
          exact ⟨[], cs, rfl, .nil, ih read⟩
    next plain =>
      cases stepped
      exact (ih read).other (by simpa using plain)

theorem Nested.matched (nested : Nested s) : Matched s.toList := closes_of_foldlM (nested [])

/-! ### Texts without brackets -/

theorem step_of_plain (plain : isBracket c = false) (due : List Char) : step due c = some due := by
  simp [step, plain]

theorem Plain.nested (plain : Plain s) : Nested s := by
  intro due
  unfold Plain at plain
  generalize s.toList = cs at plain
  induction cs with
  | nil => rfl
  | cons c cs ih =>
    rw [List.foldlM_cons, step_of_plain (plain c (by simp))]
    exact ih fun d inside => plain d (by simp [inside])

theorem plain_ofList (cs : List Char) : Plain (String.ofList cs) ↔ ∀ c ∈ cs, isBracket c = false := by
  simp [Plain]

theorem plain_append (s t : String) : Plain (s ++ t) ↔ Plain s ∧ Plain t := by
  simp [Plain, or_imp, forall_and]

theorem not_isBracket {test : Char → Bool}
    (fail : ['(', ')', '[', ']', '\x7b', '\x7d'].all (!test ·) = true) (passed : test c = true) :
    isBracket c = false := by
  rw [isBracket, List.contains_eq_mem, decide_eq_false_iff_not]
  intro bracket
  simpa [passed] using List.all_eq_true.mp fail c bracket

theorem isBracket_toDigits {n : Nat} (inside : c ∈ Nat.toDigits 10 n) : isBracket c = false :=
  not_isBracket (by decide) (Nat.isDigit_of_mem_toDigits (by decide) (by decide) inside)

theorem plain_textOfInt (n : Int) : Plain (Numeral.textOfInt n) := by
  cases n with
  | ofNat n => exact (plain_ofList _).mpr fun c => isBracket_toDigits
  | negSucc n =>
    refine (plain_ofList _).mpr fun c inside => ?_
    rcases List.mem_cons.mp inside with rfl | inside
    · decide
    · exact isBracket_toDigits inside

theorem isBracket_layout {digits : List Char} (plain : ∀ c ∈ digits, isBracket c = false) (point : Int) :
    ∀ c ∈ Numeral.Binary64.layout digits point, isBracket c = false := by
  have zeros (n : Nat) : ∀ c ∈ List.replicate n '0', isBracket c = false := by
    intro c inside
    obtain rfl := List.eq_of_mem_replicate inside
    rfl
  have magnitude (n : Nat) : ∀ c ∈ Nat.toDigits 10 n, isBracket c = false := fun c => isBracket_toDigits
  unfold Numeral.Binary64.layout
  split
  · dsimp only
    simp only [List.forall_mem_append, List.forall_mem_cons]
    refine ⟨?_, rfl, ?_, ?_⟩
    · split
      · simp [isBracket]
      · exact plain
      · rw [List.forall_mem_cons] at plain
        exact List.forall_mem_cons.mpr ⟨plain.1, List.forall_mem_cons.mpr ⟨rfl, plain.2⟩⟩
    · split <;> simp [isBracket]
    · split
      · exact List.forall_mem_cons.mpr ⟨rfl, magnitude _⟩
      · exact magnitude _
  split
  · simp only [List.forall_mem_append, List.forall_mem_cons]
    exact ⟨⟨rfl, rfl, zeros _⟩, plain⟩
  · simp only [List.forall_mem_append, List.forall_mem_cons]
    refine ⟨⟨fun c inside => plain c (List.mem_of_mem_take inside), zeros _⟩, rfl, ?_⟩
    split
    · simp [isBracket]
    · exact fun c inside => plain c (List.mem_of_mem_drop inside)

theorem plain_real (x : Numeral.Binary64) : Plain x.text := by
  unfold Numeral.Binary64.text
  split
  · decide
  refine (plain_ofList _).mpr ?_
  have body : ∀ cs : List Char, (∀ c ∈ cs, isBracket c = false) →
      ∀ c ∈ if x.isNegative then '-' :: cs else cs, isBracket c = false := by
    intro cs plain
    split
    · exact List.forall_mem_cons.mpr ⟨rfl, plain⟩
    · exact plain
  refine body _ ?_
  split
  · simp [isBracket]
  split
  · simp [isBracket]
  refine isBracket_layout (fun c inside => ?_) _
  have digit := List.mem_reverse.mp ((List.dropWhile_sublist _).mem (List.mem_reverse.mp inside))
  exact isBracket_toDigits digit

theorem isBracket_toLower (plain : isBracket c = false) : isBracket c.toLower = false := by
  unfold Char.toLower
  split
  next upper =>
    refine not_isBracket (show List.all _ (!Char.isLower ·) = true by decide) ?_
    obtain ⟨low, high⟩ : 65 ≤ c.val.toNat ∧ c.val.toNat ≤ 90 := by
      simpa [UInt32.le_iff_toNat_le] using upper
    have small : 97 ≤ c.val + 32 ∧ c.val + 32 ≤ 122 := by
      simp only [UInt32.le_iff_toNat_le, UInt32.toNat_add, UInt32.reduceToNat]
      omega
    exact Bool.and_eq_true_iff.mpr ⟨decide_eq_true small.1, decide_eq_true small.2⟩
  next => exact plain

theorem Plain.toLower (plain : Plain s) : Plain s.toLower := by
  intro c inside
  change c ∈ (s.map Char.toLower).toList at inside
  obtain ⟨d, member, rfl⟩ : ∃ d ∈ s.toList, d.toLower = c := by simpa using inside
  exact isBracket_toLower (plain d member)

theorem isBracket_hex {width n : Nat} (inside : c ∈ Text.hex width n) : isBracket c = false := by
  induction width generalizing n with
  | zero => cases inside
  | succ width ih =>
    rcases List.mem_append.mp inside with front | last
    · exact ih front
    · obtain rfl := List.mem_singleton.mp last
      have digits : ∀ n < 16, isBracket (Nat.digitChar n) = false := by decide
      exact digits _ (Nat.mod_lt _ (by decide))

theorem isBracket_quotedChar {d : Char} (plain : isBracket d = false) (quote : Char) :
    ∀ c ∈ Text.quotedChar quote d, isBracket c = false := by
  have escape {e : Char} {cs : List Char} (known : isBracket e = false)
      (rest : ∀ c ∈ cs, isBracket c = false) : ∀ c ∈ '\\' :: e :: cs, isBracket c = false :=
    List.forall_mem_cons.mpr ⟨rfl, List.forall_mem_cons.mpr ⟨known, rest⟩⟩
  unfold Text.quotedChar
  repeat' split
  · exact escape plain (by simp)
  · exact escape rfl (by simp)
  · exact escape rfl (by simp)
  · exact escape rfl (by simp)
  · simpa using plain
  all_goals exact escape rfl fun c => isBracket_hex

theorem Plain.quoted (plain : Plain s) : Plain (Text.quoted s) := by
  have quote : isBracket (Text.quoteFor s.toList) = false := by
    unfold Text.quoteFor
    split <;> rfl
  refine (plain_ofList _).mpr
    (List.forall_mem_append.mpr ⟨List.forall_mem_cons.mpr ⟨quote, ?_⟩, by simpa using quote⟩)
  intro c inside
  obtain ⟨d, member, written⟩ := List.mem_flatMap.mp inside
  exact isBracket_quotedChar (plain d member) _ c written

theorem Plain.dropHash (plain : Plain s) : Plain (String.ofList (Name.dropHash s.toList)) := by
  rw [plain_ofList]
  unfold Plain at plain
  generalize s.toList = cs at plain
  fun_cases Name.dropHash cs with
  | case1 cs => exact fun c inside => plain c (by simp [inside])
  | case2 => exact plain

theorem plain_name (c : Constant) : Plain c.name := by
  cases c with
  | _ c => cases c <;> decide +kernel

theorem plain_fullName (c : Constant) : Plain c.fullName := by
  have family : Plain c.family := by
    unfold Constant.family
    split <;> decide +kernel
  exact (plain_append _ _).mpr ⟨(plain_append _ _).mpr ⟨family, by decide⟩, plain_name c⟩

/-! ### Texts put together -/

theorem foldlM_intercalate {separator : List Char} {rows : List (List Char)}
    (between : ∀ due, separator.foldlM step due = some due)
    (each : ∀ row ∈ rows, ∀ due, row.foldlM step due = some due) (due : List Char) :
    (separator.intercalate rows).foldlM step due = some due := by
  induction rows with
  | nil => rfl
  | cons row rest ih =>
    have first := each row (by simp) due
    have others := ih fun other inside => each other (by simp [inside])
    cases rest with
    | nil => simpa using first
    | cons next rest => simpa [first, between due] using others

theorem Nested.intercalate {separator : String} {texts : List String} (between : Nested separator)
    (each : ∀ t ∈ texts, Nested t) : Nested (separator.intercalate texts) := by
  intro due
  rw [String.toList_intercalate]
  exact foldlM_intercalate between (List.forall_mem_map.mpr each) due

theorem Nested.enclose {markup : String} (mark : Nested markup) (nested : Nested s) :
    Nested (Name.enclose markup s) := by
  intro due
  simp [Name.enclose, step, isBracket, closing?, mark _, nested _]

end SwanModel.Brackets
