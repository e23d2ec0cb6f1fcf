import SwanModel.Proofs.Language.KeptText

/-!
# Constructs that are kept as text

A construct that is converted tells whether it is kept as text, and shows it; not so a definition of
a diagram and a transposition.
-/

namespace SwanModel

open SwanModel.Convert

section Kept

variable {known : Rule → ParseTree → Bool} {self : Convert} {reader : Reader} {s s' : Reading}
  {tree : ParseTree} {t : Term}

/-! ### Objects of diagrams -/

theorem make_definition {content luid locals : Term}
    (h : perform (make (.diagram .definition) [content, luid, locals]) reader s = (.ok t, s')) :
    ∃ inner, t = .node (.diagram .definition) [content, luid, inner] := by
  obtain ⟨_, filled, rfl⟩ := make_ok h
  cases filled
  exact ⟨_, rfl⟩

theorem make_block {content instanceId luid locals : Term}
    (h : perform (make (.diagram .block) [content, instanceId, luid, locals]) reader s = (.ok t, s')) :
    ∃ inner, t = .node (.diagram .block) [content, instanceId, luid, inner] := by
  obtain ⟨_, filled, rfl⟩ := make_ok h
  cases filled
  exact ⟨_, rfl⟩

theorem operator_isVerbatim (fits : Fits .operator t) : t.isProtected = .ok t.isVerbatim := by
  cases fits with
  | construct listed _ _ =>
    obtain ⟨form, -, rfl⟩ := List.mem_map.mp listed
    cases form <;> rfl

theorem blockParts_verbatim {levels : Nat} {block luid : Term}
    (operators : ∀ {tree t s s'}, known .operator tree = true →
      perform (convertUpTo levels .operator tree) reader s = (.ok t, s') → Shows .operator tree t ∧
      Fits .operator t)
    (accepted : Grammar.instanceBlock.accepts known tree = true)
    (h : perform (blockParts (convertUpTo levels) tree) reader s = (.ok (block, luid), s')) :
    block.isVerbatim = tree.callsKept := by
  obtain ⟨_, _, _, rfl, foundId, -, foundMarks, -, foundCalled, isCalled, ⟨⟩⟩ :=
    TreeShape.accepts_record accepted
  unfold blockParts at h
  obtain ⟨_, _, -, h⟩ := bind_ok h
  obtain ⟨_, _, -, h⟩ := bind_ok h
  obtain ⟨called, _, blocked, h⟩ := bind_ok h
  have same : called = block := by
    obtain ⟨_, _, -, h⟩ := bind_ok h
    obtain ⟨_, _, -, h⟩ := bind_ok h
    split at h
    · obtain ⟨_, _, -, h⟩ := bind_ok h
      obtain ⟨_, _, -, h⟩ := bind_ok h
      cases h
      rfl
    · cases h
      rfl
  subst same
  simp only [operatorBlock, field_node foundCalled, pure_bind] at blocked
  rcases TreeShape.accepts_oneOf isCalled with accepted | accepted | ⟨⟨⟩⟩
  · obtain ⟨_, _, rfl, isOperator, ⟨⟩⟩ := TreeShape.accepts_case accepted
    simp only [↓tag_bind, item_node, pure_bind] at blocked
    obtain ⟨shows, fits⟩ := operators isOperator blocked
    have told : Except.ok called.isVerbatim = Except.ok _ :=
      (operator_isVerbatim fits).symm.trans shows.tells
    simp only [ParseTree.callsKept, foundCalled]
    exact Except.ok.inj told
  · obtain ⟨tag, _, _, rfl, different, isExpr, ⟨⟩⟩ := TreeShape.accepts_other accepted
    have other : tag ≠ "CallOperator" := by simpa using different
    simp only [↓tag_bind, item_node, pure_bind] at blocked
    obtain ⟨_, _, -, blocked⟩ := bind_ok blocked
    have read : called.IsRead := by
      cases levels with
      | zero => cases blocked
      | succ levels => exact operatorExpr_isRead blocked
    rw [read.not_verbatim]
    simp only [ParseTree.callsKept, foundCalled]
    split
    · rename_i same
      cases same
      contradiction
    · rfl

theorem tells_object {name : String} {first : ParseTree} {rest : List ParseTree}
    {fields : List (String × ParseTree)}
    (found : Rule.object.choice tree = some (.node (some name) (first :: rest) fields)) :
    tree.tellsKept .object =
      if name = "BRawDef" then false else if name =
        "BBlock" then first.callsKept else Rule.object.keeps name := by
  simp only [ParseTree.tellsKept, found]
  split
  · rename_i same
    cases same
    rfl
  · rename_i same
    cases same
    rfl
  · rename_i notDefinition notBlock
    have definition : name ≠ "BRawDef" := by
      rintro rfl
      exact notDefinition _ _ rfl rfl
    have block : name ≠ "BBlock" := by
      rintro rfl
      exact notBlock _ _ _ rfl rfl
    rw [if_neg definition, if_neg block, kept_of_choice found]
    cases Rule.object.keeps name <;> rfl

theorem definition_tells {content : Term} {rest : List Term}
    (fits : Fits .object (.node (.diagram .definition) (content :: rest))) : content.isText = false := by
  cases fits with
  | construct _ known fits =>
    cases known
    cases fits with
    | cons head _ =>
      rcases head.or with left | verbatim
      · cases left with
        | construct _ _ _ => rfl
      · cases verbatim with
        | construct _ _ _ => rfl

theorem object_shows {levels : Nat}
    (operators : ∀ {tree t s s'}, known .operator tree = true →
      perform (convertUpTo levels .operator tree) reader s = (.ok t, s') → Shows .operator tree t ∧
      Fits .operator t)
    (accepted : HasOne known tree Rule.object.shapes) (fits : Fits .object t)
    (h : perform (object (convertUpTo levels) tree) reader s = (.ok t, s')) :
    Shows .object tree t := by
  obtain ⟨tag, others, fields, rfl, foundLuid, -, foundLocals, -, found, isDescription, ⟨⟩⟩ :=
    TreeShape.accepts_record accepted.only
  simp only [object, field_node foundLuid, field_node foundLocals, field_node found, pure_bind] at h
  obtain ⟨luid, _, -, h⟩ := bind_ok h
  obtain ⟨locals, _, -, h⟩ := bind_ok h
  rcases TreeShape.accepts_oneOf isDescription with
      accepted | accepted | accepted | accepted | accepted | accepted | accepted | accepted | ⟨⟨⟩⟩ <;>
    obtain ⟨_, _, rfl, isFirst, items⟩ := TreeShape.accepts_case accepted <;>
    have told : (ParseTree.node tag others fields).tellsKept .object = _ := tells_object found <;>
    have kept : (ParseTree.node tag others fields).kept? .object = _ := kept_of_choice found
  · obtain ⟨⟩ := items
    simp only [described, ↓tag_bind, item_node, pure_bind] at h
    obtain ⟨_, _, -, h⟩ := bind_ok h
    obtain ⟨_, -, rfl⟩ := make_ok h
    exact .of_read kept (told.trans (kept ▸ rfl)) rfl
  · obtain ⟨-, ⟨⟩⟩ := items
    simp only [described, ↓tag_bind, itemAt_first, pure_bind] at h
    obtain ⟨content, _, -, h⟩ := bind_ok h
    obtain ⟨inner, rfl⟩ := make_definition h
    exact .of_read kept (told.trans (kept ▸ rfl)) (congrArg Except.ok (definition_tells fits))
  · obtain ⟨⟩ := items
    obtain ⟨raw, own, rfl, -⟩ := ParseTree.isProtected_cases isFirst
    simp only [described, ↓tag_bind, item_node, pure_bind, protectedItem, protectedText_text,
      markup_text] at h
    obtain ⟨content, _, named, h⟩ := bind_ok h
    obtain rfl := make_ok_plain rfl named
    obtain ⟨inner, rfl⟩ := make_definition h
    exact .of_inside raw own kept (congrArg Except.ok told.symm)
      (objectLayout_displays "def " (Term.print_node _ _) rfl fits.print)
  · obtain ⟨⟩ := items
    obtain ⟨raw, own, rfl, -⟩ := ParseTree.isProtected_cases isFirst
    simp only [described, ↓tag_bind, item_node, pure_bind, protectedItem, protectedText_text,
      markup_text] at h
    obtain ⟨content, _, named, h⟩ := bind_ok h
    obtain rfl := make_ok_plain rfl named
    obtain ⟨inner, rfl⟩ := make_block h
    exact .of_inside raw own kept (congrArg Except.ok told.symm)
      (objectLayout_displays "block " (Term.print_node _ _) rfl fits.print)
  · obtain ⟨-, ⟨⟩⟩ := items
    simp only [described, ↓tag_bind, itemAt_first, pure_bind] at h
    obtain ⟨⟨block, instanceId⟩, _, blocked, h⟩ := bind_ok h
    obtain ⟨inner, rfl⟩ := make_block h
    have verbatim := blockParts_verbatim operators isFirst blocked
    constructor
    · exact congrArg Except.ok (verbatim.trans told.symm)
    · rintro text same
      cases kept.symm.trans same
  · obtain ⟨-, ⟨⟩⟩ := items
    simp only [described, ↓tag_bind, itemAt_first, itemAt_second, pure_bind] at h
    obtain ⟨_, _, -, h⟩ := bind_ok h
    obtain ⟨_, _, -, h⟩ := bind_ok h
    obtain ⟨_, -, rfl⟩ := make_ok h
    exact .of_read kept (told.trans (kept ▸ rfl)) rfl
  · obtain ⟨-, ⟨⟩⟩ := items
    simp only [described, ↓tag_bind, itemAt_first, pure_bind] at h
    obtain ⟨_, _, -, h⟩ := bind_ok h
    obtain ⟨_, -, rfl⟩ := make_ok h
    exact .of_read kept (told.trans (kept ▸ rfl)) rfl
  · obtain ⟨⟩ := items
    simp only [described, ↓tag_bind, item_node, pure_bind] at h
    obtain ⟨_, _, -, h⟩ := bind_ok h
    obtain ⟨_, -, rfl⟩ := make_ok h
    exact .of_read kept (told.trans (kept ▸ rfl)) rfl

/-! ### Parts of loops -/

theorem dimension_shows (accepted : Rule.describes .full known .dimension tree = true)
    (h : perform (dimension self tree) reader s = (.ok t, s')) : Shows .dimension tree t := by
  rcases hasOne_of_any accepted with found | found | found | found | ⟨⟨⟩⟩
  · obtain ⟨_, _, rfl, -, -, ⟨⟩⟩ := TreeShape.accepts_case found
    simp only [dimension, ↓tag_bind, itemAt_first, pure_bind] at h
    obtain ⟨_, _, -, h⟩ := bind_ok h
    rw [make_ok_plain rfl h]
    exact .of_read rfl rfl rfl
  · obtain ⟨_, _, rfl, -, -, -, -, ⟨⟩⟩ := TreeShape.accepts_case found
    simp only [dimension, ↓tag_bind, itemAt_first, itemAt_second, itemAt_third, pure_bind] at h
    obtain ⟨_, _, -, h⟩ := bind_ok h
    obtain ⟨_, _, -, h⟩ := bind_ok h
    obtain ⟨_, _, -, h⟩ := bind_ok h
    rw [make_ok_plain rfl h]
    exact .of_read rfl rfl rfl
  · obtain ⟨_, _, rfl, isText, -, ⟨⟩⟩ := TreeShape.accepts_case found
    obtain ⟨raw, own, rfl, -⟩ := ParseTree.isProtected_cases isText
    simp only [dimension, ↓tag_bind, itemAt_first, pure_bind, protectedText_text] at h
    rw [make_ok_plain rfl h]
    exact .of_text raw own rfl rfl rfl rfl
  · rw [LoopGrammar.accepts_onlyFull] at found
    obtain ⟨_, _, rfl, -, ⟨⟩⟩ := TreeShape.accepts_case found
    cases h

theorem forwardReturn_shows (accepted : Rule.describes .full known .forwardReturn tree = true)
    (h : perform (forwardReturn self tree) reader s = (.ok t, s')) : Shows .forwardReturn tree t := by
  rcases hasOne_of_any accepted with found | found | found | ⟨⟨⟩⟩
  · obtain ⟨_, _, rfl, -, -, ⟨⟩⟩ := TreeShape.accepts_case found
    simp only [forwardReturn, ↓tag_bind, itemAt_first, pure_bind] at h
    obtain ⟨_, _, -, h⟩ := bind_ok h
    rw [make_ok_plain rfl h]
    exact .of_read rfl rfl rfl
  · obtain ⟨_, _, rfl, -, -, -, ⟨⟩⟩ := TreeShape.accepts_case found
    simp only [forwardReturn, ↓tag_bind, itemAt_first, itemAt_second, pure_bind] at h
    obtain ⟨_, _, -, h⟩ := bind_ok h
    split at h
    · obtain ⟨_, _, -, h⟩ := bind_ok h
      obtain ⟨_, _, -, h⟩ := bind_ok h
      obtain ⟨_, -, rfl⟩ := make_ok h
      exact .of_read rfl rfl rfl
    · cases h
  · obtain ⟨_, _, rfl, isText, ⟨⟩⟩ := TreeShape.accepts_case found
    obtain ⟨raw, own, rfl, -⟩ := ParseTree.isProtected_cases isText
    simp only [forwardReturn, ↓tag_bind, item_node, pure_bind, protectedText_text] at h
    rw [make_ok_plain rfl h]
    exact .of_text raw own rfl rfl rfl rfl

end Kept

/-! ### All constructs -/

def Rule.isGuarded : Rule → Bool
  | .pathOrText | .pattern | .exprOrText | .typeOrText | .flow | .constraint | .modifier |
    .operator | .object
  | .scopeSection | .declaration => true
  | _ => false

section Whole

variable {rule : Rule} {tree : ParseTree} {n m : Nat}

theorem hasOne_of_described (described : tree.describedBy rule = true) :
    ∃ known, HasOne known tree rule.shapes := by
  unfold ParseTree.describedBy at described
  cases height : tree.height with
  | zero =>
    rw [height] at described
    cases described
  | succ height' =>
    rw [height] at described
    exact ⟨_, hasOne_of_any described⟩

theorem operatorUpTo_shows {t : Term} {reader : Reader} {s s' : Reading}
    (described : ParseTree.describedUpTo n .operator tree = true) (enough : n ≤ m)
    (h : perform (convertUpTo m .operator tree) reader s = (.ok t, s')) :
    Shows .operator tree t ∧ Fits .operator t := by
  obtain ⟨_, converted, fits⟩ := convertUpTo_gives described enough reader s
  cases converted.symm.trans h
  refine ⟨?_, fits⟩
  cases n with
  | zero => cases described
  | succ n =>
    cases m with
    | zero => cases enough
    | succ m => exact operator_shows (hasOne_of_any described) (Fits.ne_absent fits rfl) h

theorem convertUpTo_shows (guarded : rule.isGuarded = true)
    (described : ParseTree.describedUpTo n rule tree = true) (enough : n ≤ m) :
    Gives (convertUpTo m rule tree) (Shows rule tree) := by
  intro reader s
  obtain ⟨t, converted, yields⟩ := convertUpTo_gives described enough reader s
  refine ⟨t, converted, ?_⟩
  cases n with
  | zero => cases described
  | succ n =>
    cases m with
    | zero => cases enough
    | succ m =>
      have accepted := hasOne_of_any described
      have present : t ≠ .absent := by
        rw [Ne, yields.absent_iff]
        rintro ⟨rfl, -⟩
        cases guarded
      cases rule with
      | pathOrText => exact pathOrText_shows accepted converted
      | pattern => exact pattern_shows accepted present converted
      | exprOrText => exact exprOrText_shows accepted present converted
      | typeOrText => exact typeOrText_shows accepted present converted
      | flow => exact flow_shows accepted converted
      | constraint => exact constraint_shows accepted (Fits.print yields) converted
      | modifier => exact modifier_shows accepted (Fits.print yields) converted
      | operator => exact operator_shows accepted present converted
      | object =>
        exact object_shows (fun known =>
          operatorUpTo_shows known (Nat.le_of_succ_le_succ enough)) accepted yields converted
      | scopeSection => exact scopeSection_shows accepted present converted
      | declaration => exact declaration_shows accepted converted
      | _ => cases guarded

theorem convertUpTo_loopPart_shows {plain : Rule → ParseTree → Bool} {t : Term} {reader : Reader}
    {s s' : Reading} (part : rule = .dimension ∨ rule = .forwardReturn)
    (described : ParseTree.loopUpTo plain .full n rule tree = true)
    (h : perform (convertUpTo m rule tree) reader s = (.ok t, s')) : Shows rule tree t := by
  cases n with
  | zero => cases described
  | succ n =>
    cases m with
    | zero => cases h
    | succ m =>
      rcases part with rfl | rfl
      · exact dimension_shows described h
      · exact forwardReturn_shows described h

/-- Which constructs tell that they are kept as text, and where their text is displayed: those of
the grammar, transposed indices, sections, and the parts of loops. -/
theorem kept_texts_are_shown (reader : Reader) (s : Reading) :
    (∀ rule tree, rule.isGuarded = true → tree.describedBy rule = true →
      ∃ t, perform (convert rule tree) reader s = (.ok t, s) ∧ Shows rule tree t) ∧
    (∀ tree text, tree.describedBy .operator = true → tree.keptIndices? = some text →
      ∃ t raw own, perform (convert .operator tree) reader s = (.ok t, s) ∧
        text = .protectedText (.text raw) (.text own) ∧ t.isProtected = .ok false ∧
        t.Displays (Name.enclose Name.defaultMarkup raw)) ∧
    (∀ text fields, text.isProtected [] = true →
      perform (convert .scopeSection (.node (some "SRaw") [text] fields)) reader s =
        (.error .wrongKind, s)) ∧
    ∀ plain rule tree levels, PlainParts plain → rule = .dimension ∨ rule = .forwardReturn →
      ParseTree.loopUpTo plain .full levels rule tree = true →
      if ParseTree.loopUpTo plain .convertible levels rule tree then
        ∃ t, perform (convert rule tree) reader s = (.ok t, s) ∧ Shows rule tree t
      else
        ∃ e, perform (convert rule tree) reader s = (.error e, s) ∧ e.isSlip = true := by
  have opened (rule : Rule) (tree : ParseTree) : perform (convert rule tree) reader s =
      perform (convertUpTo (levelsFor reader tree) rule tree) reader s := by
    rw [convert, perform_bind_ok (perform_read reader s)]
  refine ⟨fun rule tree guarded described => ?_, fun tree text described kept => ?_,
    fun text fields isText => ?_, fun plain rule tree levels plainParts part described => ?_⟩
  · rw [opened]
    exact convertUpTo_shows guarded described (height_le_levelsFor reader tree) reader s
  · obtain ⟨t, converted, fits⟩ := convert_gives described reader s
    obtain ⟨known, accepted⟩ := hasOne_of_described described
    have step := converted
    rw [opened] at step
    obtain ⟨raw, own, same, tells, displays⟩ :=
      operator_displays_indices accepted kept (Fits.print fits) step
    exact ⟨t, raw, own, converted, same, tells, displays⟩
  · obtain ⟨raw, own, rfl, -⟩ := ParseTree.isProtected_cases isText
    rw [opened]
    rfl
  · have enough : 2 * tree.height + (if rule = .forward then 1 else 2) ≤ levelsFor reader tree := by
      unfold levelsFor
      split <;> omega
    rw [opened]
    rcases loopUpTo_ends plainParts described enough reader s with
      ⟨converts, t, converted, -⟩ | ⟨refused, failed⟩
    · rw [if_pos converts]
      exact ⟨t, converted, convertUpTo_loopPart_shows part described converted⟩
    · rw [if_neg (Bool.eq_false_iff.mp refused)]
      exact failed

end Whole

def objectTree (description : ParseTree) : ParseTree :=
  .node none [] [("ObjLuid", .absent), ("ObjLocals", .list []), ("ObjDescription", description)]

def keptCallTree (text own : String) : ParseTree :=
  .node (some "BBlock")
    [.node none []
      [("OIBInstId", .absent), ("OIBPragmas", .list []),
        ("OIBCalled", .node (some "CallOperator")
          [.node none []
            [("CallSize", .list []), ("CallPragmas", .list []),
              ("CallOp", .node (some "ORawPrefix") [.protectedText (.text text) (.text own)] [])]] [])],
      .absent] []

theorem block_tells_of_kept_call :
    (objectTree (keptCallTree "f <" "syntax")).describedBy .object = true ∧
      (objectTree (keptCallTree "f <" "syntax")).kept? .object = none ∧
      ∃ t, perform (convert .object (objectTree (keptCallTree "f <" "syntax"))) Reader.none {} =
        (.ok t, {}) ∧ t.isProtected = .ok true := by
  have described : (objectTree (keptCallTree "f <" "syntax")).describedBy .object = true := by
    decide +kernel
  obtain ⟨t, converted, shows⟩ := (kept_texts_are_shown Reader.none {}).1 .object _ rfl described
  exact ⟨described, rfl, t, converted, shows.tells⟩

/-- A definition whose text is kept does not tell it. -/
theorem kept_definition_is_silent :
    (objectTree (.node (some "BRawDef") [.protectedText (.text "x y") (.text "syntax")]
      [])).describedBy .object = true ∧
        (objectTree (.node (some "BRawDef") [.protectedText (.text "x y") (.text "syntax")]
          [])).kept? .object = some (.protectedText (.text "x y") (.text "syntax")) ∧
      ∃ t, perform (convert .object (objectTree (.node (some "BRawDef")
          [.protectedText (.text "x y") (.text "syntax")] []))) Reader.none {} = (.ok t, {}) ∧
        t.isProtected = .ok false :=
  ⟨by decide +kernel, rfl, _, rfl, rfl⟩

end SwanModel
