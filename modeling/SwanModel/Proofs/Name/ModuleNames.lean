import SwanModel.Proofs.Convert.Declared
import SwanModel.Proofs.Name.Spelling

/-!
# The names of modules

A module is named by the name of its file, with hyphens, or by a path, with colons. Both are read as
the same identifiers.
-/

namespace SwanModel.Name

open Text Printing SwanModel.Convert

variable {names : List String} {front feed lead : List Char}

/-! ### Blanks around identifiers -/

theorem isBlank_of_ascii {c : Char} (small : c.toNat < 128) :
    isBlank c = decide ((9 ≤ c.toNat ∧ c.toNat ≤ 13) ∨ (28 ≤ c.toNat ∧ c.toNat ≤ 32)) := by
  have table : ∀ n < 128, ((blankClass.bounds.takeWhile (· ≤ n)).length % 2 == 1) =
      decide ((9 ≤ n ∧ n ≤ 13) ∨ (28 ≤ n ∧ n ≤ 32)) := by decide
  exact table c.toNat small

theorem isBlank_of_isAsciiBlank {c : Char} (blank : isAsciiBlank c = true) : isBlank c = true := by
  simp only [isAsciiBlank, Bool.or_eq_true, beq_iff_eq, Bool.and_eq_true, decide_eq_true_eq] at blank
  rcases blank with rfl | control
  · decide
  · rw [isBlank_of_ascii (by omega), decide_eq_true_eq]
    exact .inl control

theorem isBlank_of_isAsciiWord {c : Char} (word : isAsciiWord c = true) : isBlank c = false := by
  have range := Numeral.isAsciiWord_range word
  rw [isBlank_of_ascii (by omega), decide_eq_false_iff_not]
  omega

theorem stops_of_none {p : Char → Bool} {cs : List Char} (none : ∀ c ∈ cs, p c = false)
    (filled : cs ≠ []) (rest : List Char) : Stops p (cs ++ rest) := by
  cases cs with
  | nil => contradiction
  | cons c cs => exact none c (by simp)

theorem strip_word {word : List Char} (isWord : IsWord word) (leading : ∀ c ∈ lead, isBlank c = true)
    (trailing : ∀ c ∈ feed, isBlank c = true) : strip (lead ++ (word ++ feed)) = word := by
  have inside : ∀ c ∈ word, isBlank c = false :=
    fun c member => isBlank_of_isAsciiWord (isWord.all c member)
  have filled : word ≠ [] := by
    obtain ⟨c, rest, rfl, -⟩ := isWord.starts
    simp
  have behind : Stops isBlank (word.reverse ++ []) :=
    stops_of_none (by simpa using inside) (by simpa using filled) []
  rw [List.append_nil] at behind
  rw [strip, stripOf, (cut leading (stops_of_none inside filled feed)).2, List.reverse_append,
    (cut (by simpa using trailing) behind).2, List.reverse_reverse]

/-! ### Splitting -/

theorem not_mem_word {word : List Char} {c : Char} (isWord : IsWord word)
    (other : isAsciiWord c = false) : c ∉ word := by
  intro member
  rw [isWord.all c member] at other
  cases other

theorem split_hyphens (spells : Spells Hyphen names front) (plain : '-' ∉ feed) :
    ∃ init last, names = init ++ [last] ∧
      split ['-'] (front ++ feed) = init.map String.toList ++ [last.toList ++ feed] := by
  induction spells with
  | @last name word =>
    have absent : '-' ∉ name.toList ++ feed := by simp [not_mem_word word (c := '-') rfl, plain]
    exact ⟨[], name, rfl, split_of_absent absent⟩
  | @next name names gap rest word separator _ ih =>
    obtain ⟨init, last, rfl, pieces⟩ := ih
    obtain rfl : gap = ['-'] := separator
    refine ⟨name :: init, last, rfl, ?_⟩
    have step : split ['-'] (name.toList ++ (['-'] ++ (rest ++ feed))) =
        name.toList :: split ['-'] (rest ++ feed) :=
      split_append (not_mem_word word rfl) _
    simpa [pieces] using step

theorem split_colons (spells : Spells Colons names front) (trailing : ∀ c ∈ feed, isAsciiBlank c = true)
    (leading : ∀ c ∈ lead, isAsciiBlank c = true) :
    (split [':', ':'] (lead ++ (front ++ feed))).map strip = names.map String.toList := by
  have noColon {cs : List Char} (blanks : ∀ c ∈ cs, isAsciiBlank c = true) : ':' ∉ cs := by
    intro member
    cases blanks ':' member
  have blank {cs : List Char} (blanks : ∀ c ∈ cs, isAsciiBlank c = true) : ∀ c ∈ cs, isBlank c = true :=
    fun c member => isBlank_of_isAsciiBlank (blanks c member)
  induction spells generalizing lead with
  | @last name word =>
    have absent : ':' ∉ lead ++ (name.toList ++ feed) := by
      simp [noColon leading, noColon trailing, not_mem_word word (c := ':') rfl]
    rw [split_of_absent absent, List.map_singleton, strip_word word (blank leading) (blank trailing)]
    rfl
  | @next name names gap rest word separator _ ih =>
    obtain ⟨before, behind, blanks, blanks', rfl⟩ := separator
    have absent : ':' ∉ lead ++ (name.toList ++ before) := by
      simp [noColon leading, noColon blanks, not_mem_word word (c := ':') rfl]
    have same : lead ++ (name.toList ++ (before ++ [':', ':'] ++ behind ++ rest) ++ feed) =
        lead ++ (name.toList ++ before) ++ ([':', ':'] ++ (behind ++ (rest ++ feed))) := by simp
    rw [same, split_append absent, List.map_cons, strip_word word (blank leading) (blank blanks),
      ih blanks', List.map_cons]

/-! ### Reading names -/

theorem not_isFilePath_of_colon {s : String} (colon : ':' ∈ s.toList) : isFilePath s = false := by
  rw [Bool.eq_false_iff]
  intro accepted
  have noColon {names : List String} {front : List Char} (spells : Spells Hyphen names front) :
      ':' ∉ front := by
    induction spells with
    | last word => exact not_mem_word word rfl
    | next word separator _ ih =>
      obtain rfl := separator
      simp [not_mem_word word (c := ':') rfl, ih]
  obtain ⟨names, front, spells, text | text⟩ := (isSeparated_iff drops_hyphen).mp accepted
  · exact noColon spells (text ▸ colon)
  · rw [text] at colon
    simp [noColon spells] at colon

theorem readPath_of_hyphens {s : String} (spells : Spells Hyphen names s.toList) :
    readPath s = .names names := by
  have accepted : isFilePath s = true :=
    (isSeparated_iff drops_hyphen).mpr ⟨names, s.toList, spells, .inl rfl⟩
  obtain ⟨init, last, rfl, pieces⟩ := split_hyphens spells List.not_mem_nil
  rw [List.append_nil, List.append_nil] at pieces
  rw [readPath, if_pos accepted, pieces]
  simp

theorem readPath_of_colons {s : String} (spells : Spells Colons names s.toList) :
    readPath s = .names names := by
  generalize same : s.toList = text at spells
  -- One identifier is the name of a file as well; two or more have colons between them.
  cases spells with
  | @last name word =>
    obtain rfl := String.toList_inj.mp same
    exact readPath_of_hyphens (.last word)
  | @next name names gap rest word separator others =>
    have colon : ':' ∈ s.toList := by
      obtain ⟨before, behind, -, -, rfl⟩ := separator
      simp [same]
    have spells : Spells Colons (name :: names) s.toList := same ▸ .next word separator others
    have accepted : isPath s = true := (isSeparated_iff drops_colons).mpr ⟨_, _, spells, .inl rfl⟩
    have pieces := split_colons spells (List.forall_mem_nil _) (List.forall_mem_nil _)
    rw [List.append_nil, List.nil_append] at pieces
    rw [readPath, not_isFilePath_of_colon colon, if_neg Bool.false_ne_true,
      if_pos accepted, ← List.map_map, pieces]
    simp

theorem Spells.words {separates : List Char → Prop} (spells : Spells separates names front) :
    ∀ name ∈ names, IsWord name.toList := by
  induction spells with
  | last word => simpa using word
  | next word _ _ ih => exact List.forall_mem_cons.mpr ⟨word, ih⟩

/-- What a recogniser accepts is read as valid identifiers, a line feed at the end included. -/
theorem readPath_of_accepted {s : String} (accepted : isFilePath s = true ∨ isPath s = true) :
    ∃ names, readPath s = .names names ∧ ∀ name ∈ names, isIdentifier name = true := by
  by_cases isFile : isFilePath s = true
  · obtain ⟨names, front, spells, ends⟩ := (isSeparated_iff drops_hyphen).mp isFile
    obtain ⟨feed, ended, text⟩ := ends_iff.mp ends
    have plain : '-' ∉ feed := by rcases atEnd_iff.mp ended with rfl | rfl <;> simp
    obtain ⟨init, last, rfl, pieces⟩ := split_hyphens spells plain
    refine ⟨init ++ [String.ofList (last.toList ++ feed)], ?_, ?_⟩
    · rw [readPath, if_pos isFile, text, pieces]
      simp
    · intro name member
      rw [isIdentifier_iff]
      rcases List.mem_append.mp member with early | isLast
      · exact ⟨_, spells.words name (by simp [early]), .inl rfl⟩
      · rw [List.mem_singleton.mp isLast, String.toList_ofList]
        exact ⟨_, spells.words last (by simp), ends_iff.mpr ⟨feed, ended, rfl⟩⟩
  · have isPath := accepted.resolve_left isFile
    obtain ⟨names, front, spells, ends⟩ := (isSeparated_iff drops_colons).mp isPath
    obtain ⟨feed, ended, text⟩ := ends_iff.mp ends
    have blank : ∀ c ∈ feed, isAsciiBlank c = true := by
      rcases atEnd_iff.mp ended with rfl | rfl
      · exact List.forall_mem_nil _
      · exact List.forall_mem_singleton.mpr rfl
    have pieces := split_colons spells blank (List.forall_mem_nil _)
    refine ⟨names, ?_, fun name member =>
      (isIdentifier_iff name).mpr ⟨_, spells.words name member, .inl rfl⟩⟩
    rw [readPath, if_neg isFile, if_pos isPath, text, ← List.map_map]
    rw [List.nil_append] at pieces
    simp [pieces]

theorem spells_intercalate (filled : names ≠ []) (words : ∀ name ∈ names, IsWord name.toList) :
    Spells Hyphen names ("-".intercalate names).toList := by
  induction names with
  | nil => contradiction
  | cons name names ih =>
    rw [List.forall_mem_cons] at words
    cases names with
    | nil => simpa using Spells.last words.1
    | cons other names =>
      rw [String.intercalate_cons_cons]
      have joined : Spells Hyphen (name :: other :: names) (name.toList ++ (['-'] ++ _)) :=
        .next words.1 rfl (ih (by simp) words.2)
      simpa using joined

/-! ### The paths of modules -/

def PathText.term : PathText → Term
  | .names names => .node (.name .path) [.list (names.map fun name => .identifier name [])]
  | .verbatim text => .node (.name .path) [.text text]

theorem modulePath_eq (text : String) : modulePath text = pure (readPath text).term := by
  unfold modulePath
  cases readPath text with
  | names names =>
    have each : (fun name => plainIdentifier (.text name)) = fun name :
        String => pure (.identifier name []) := rfl
    dsimp only
    rw [each, List.mapM_pure]
    rfl
  | verbatim text => rfl

theorem shown_fullName {ids name : Term} (named : Path.fullName ids = .ok name) :
    (Term.node (.name .path) [ids]).shown "full_name" = .ok name := by
  change ((Path.fullName ids).map Found.made >>= fun found => found.term [ids]) = .ok name
  rw [named]
  rfl

def AreIdentifiers (names : List String) (ids : List Term) : Prop :=
  List.Forall₂ (fun name id =>
    Term.Shows (.name .identifier) [("value", .text name), ("is_valid", .truth true)] id) names ids

theorem areIdentifiers (valid : ∀ name ∈ names, isIdentifier name = true) :
    AreIdentifiers names (names.map fun name => .identifier name []) := by
  induction names with
  | nil => exact .nil
  | cons name names ih =>
    rw [List.forall_mem_cons] at valid
    exact .cons ⟨rfl, rfl, congrArg (Except.ok ∘ Term.truth) valid.1⟩ (ih valid.2)

theorem isIdentifier_of_word {name : String} (word : IsWord name.toList) : isIdentifier name = true :=
  (isIdentifier_iff name).mpr ⟨_, word, .inl rfl⟩

/-- The names of a file and of a path are read as the same identifiers; what a recogniser accepts is
read as valid identifiers, and a text that none accepts is kept. -/
theorem module_names_are_read (reader : Reader) (state : Reading) :
    (∀ (names : List String) (text : String), names ≠ [] → (∀ name ∈ names, IsWord name.toList) →
      text = "-".intercalate names ∨ Spells Colons names text.toList →
        ∃ t ids, perform (modulePath text) reader state = (.ok t, state) ∧
          t.Shows (.name .path) [("is_protected", .truth false), ("ids", .list ids),
            ("full_name", .text ("::".intercalate names))] ∧ AreIdentifiers names ids) ∧
    (∀ text : String, isFilePath text = false → isPath text = false →
      ∃ t, perform (modulePath text) reader state = (.ok t, state) ∧
        t.Shows (.name .path) [("is_protected", .truth true), ("full_name", .text text)]) ∧
    ∀ text : String, isFilePath text = true ∨ isPath text = true →
      ∃ t names ids, perform (modulePath text) reader state = (.ok t, state) ∧
        t.Shows (.name .path) [("is_protected", .truth false), ("ids", .list ids)] ∧
          AreIdentifiers names ids := by
  refine ⟨fun names text filled words spelled => ?_, fun text noFile noPath => ?_,
    fun text accepted => ?_⟩
  · have read : readPath text = .names names := by
      rcases spelled with rfl | spells
      · exact readPath_of_hyphens (spells_intercalate filled words)
      · exact readPath_of_colons spells
    rw [modulePath_eq, read]
    have valid : ∀ name ∈ names, isIdentifier name = true :=
      fun name member => isIdentifier_of_word (words name member)
    exact ⟨_, _, rfl, ⟨rfl, rfl, rfl, shown_fullName (fullName_identifiers names)⟩, areIdentifiers valid⟩
  · have read : readPath text = .verbatim text := by simp [readPath, noFile, noPath]
    rw [modulePath_eq, read]
    exact ⟨_, rfl, rfl, rfl, rfl⟩
  · obtain ⟨names, read, valid⟩ := readPath_of_accepted accepted
    rw [modulePath_eq, read]
    exact ⟨_, names, _, rfl, ⟨rfl, rfl, rfl⟩, areIdentifiers valid⟩

/-- A path with blanks around its colons and the name of a file, a text that is neither, and one
with a line feed. -/
theorem sample_names_are_read :
    (∃ t ids, perform (modulePath "P1-m_2-Id") Reader.none {} = (.ok t, {}) ∧
      t.Shows (.name .path) [("is_protected", .truth false), ("ids", .list ids),
        ("full_name", .text "P1::m_2::Id")] ∧ AreIdentifiers ["P1", "m_2", "Id"] ids) ∧
    (∃ t ids, perform (modulePath "P1 ::\tm_2\n\r::Id") Reader.none {} = (.ok t, {}) ∧
      t.Shows (.name .path) [("is_protected", .truth false), ("ids", .list ids),
        ("full_name", .text "P1::m_2::Id")] ∧ AreIdentifiers ["P1", "m_2", "Id"] ids) ∧
    (∃ t, perform (modulePath "P1 -m_2") Reader.none {} = (.ok t, {}) ∧
      t.Shows (.name .path) [("is_protected", .truth true), ("full_name", .text "P1 -m_2")]) ∧
    ∃ t names ids, perform (modulePath "P1-m_2\n") Reader.none {} = (.ok t, {}) ∧
      t.Shows (.name .path) [("is_protected", .truth false), ("ids", .list ids)] ∧
        AreIdentifiers names ids := by
  obtain ⟨spelled, kept, accepted⟩ := module_names_are_read Reader.none {}
  have words : ∀ name ∈ ["P1", "m_2", "Id"], IsWord name.toList := by decide
  have first : Colons [' ', ':', ':', '\t'] :=
    ⟨[' '], ['\t'], List.all_eq_true.mp rfl, List.all_eq_true.mp rfl, rfl⟩
  have second : Colons ['\n', '\r', ':', ':'] :=
    ⟨['\n', '\r'], [], List.all_eq_true.mp rfl, List.forall_mem_nil _, rfl⟩
  have spells : Spells Colons ["P1", "m_2", "Id"] "P1 ::\tm_2\n\r::Id".toList :=
    .next (words _ (by simp)) first (.next (words _ (by simp)) second (.last (words _ (by simp))))
  exact ⟨spelled _ _ (by simp) words (.inl rfl), spelled _ _ (by simp) words (.inr spells),
    kept _ (by decide +kernel) (by decide +kernel), accepted _ (.inl (by decide +kernel))⟩

end SwanModel.Name
