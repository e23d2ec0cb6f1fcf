import SwanModel.Proofs.Language.Names

/-! # Types, patterns and expressions convert -/

namespace SwanModel

open SwanModel.Convert TreeShape

theorem literal_gives {value : Term} (kind : LiteralKind)
    (isValue : Fits (.either .text .number) value) :
    Gives (make (.expr .literal) [value, .constant (.literalKind kind)])
      (Fits (.construct [.expr .literal])) :=
  make_gives (by simp) rfl rfl (.cons isValue (.cons (.constant (.literalKind kind)) .nil))

theorem clockOf_gives {id pattern : Term} {isNot : Bool} (isId : Fits .identifier id)
    (isPattern : Fits (.maybe .pattern) pattern) (single : isNot = false ∨ pattern = .absent) :
    Gives (make (.part .clock) [id, .truth isNot, pattern]) (Fits (.part .clock)) := by
  have built : (Form.part .clock).build [id, .truth isNot, pattern] =
      .ok (.node (.part .clock) [id, .truth isNot, pattern]) := by
    rcases single with rfl | rfl
    · rfl
    · cases isNot <;> rfl
  rw [make, built]
  exact .pure (.construct (by simp) rfl (.cons isId (.cons (.flag isNot) (.cons isPattern .nil))))

variable {known : Rule → ParseTree → Bool} {tree : ParseTree} {self : Convert}
  (parts : Converts self known)
include parts

/-! ### Types -/

theorem structField_gives
    (accepted :
      (TreeShape.tuple [.construct .identifier, .construct .type]).accepts known tree = true) :
    Gives (structField self tree) (Fits (.construct [.type .field])) := by
  obtain ⟨_, _, _, rfl, isId, isType, ⟨⟩⟩ := accepts_tuple accepted
  simp only [structField, itemAt_first, itemAt_second, pure_bind]
  exact (parts.now isId).bind fun _ id => (parts.later isType).bind fun _ type =>
    make_gives (by simp) rfl rfl (.cons id (.cons type .nil))

theorem type_gives (accepted : HasOne known tree Rule.type.shapes) :
    Gives (Convert.type self tree) (Fits .type) := by
  rcases accepted with accepted | accepted | accepted | accepted | accepted | accepted | accepted |
    ⟨⟨⟩⟩ <;>
    obtain ⟨_, _, rfl, items⟩ := accepts_case accepted
  · obtain ⟨isType, ⟨⟩⟩ := items
    simp only [Convert.type, ↓tag_bind, item_node, pure_bind]
    exact (parts.now isType).bind fun _ type => make_gives (by simp) rfl rfl (.cons type .nil)
  · obtain ⟨isSize, ⟨⟩⟩ := items
    simp only [Convert.type, ↓tag_bind, item_node, pure_bind]
    exact (parts.later isSize).bind fun _ size =>
      make_gives (by simp) rfl rfl (.cons size (.cons (.flag true) .nil))
  · obtain ⟨isSize, ⟨⟩⟩ := items
    simp only [Convert.type, ↓tag_bind, item_node, pure_bind]
    exact (parts.later isSize).bind fun _ size =>
      make_gives (by simp) rfl rfl (.cons size (.cons (.flag false) .nil))
  · obtain ⟨isPath, ⟨⟩⟩ := items
    simp only [Convert.type, ↓tag_bind, item_node, pure_bind]
    exact (parts.now isPath).bind fun _ path => make_gives (by simp) rfl rfl (.cons path .nil)
  · obtain ⟨isName, ⟨⟩⟩ := items
    simp only [Convert.type, ↓tag_bind, item_node, pure_bind]
    exact (nameIdentifier_gives isName).bind fun _ name => make_gives (by simp) rfl rfl (.cons name .nil)
  · obtain ⟨areFields, ⟨⟩⟩ := items
    simp only [Convert.type, ↓tag_bind, item_node, pure_bind]
    exact (each_gives areFields fun _ => structField_gives parts).bind fun _ fields =>
      make_gives (by simp) rfl rfl (.cons fields .nil)
  · obtain ⟨isType, isSize, ⟨⟩⟩ := items
    simp only [Convert.type, ↓tag_bind, itemAt_first, itemAt_second, pure_bind]
    exact (parts.later isType).bind fun _ type => (parts.later isSize).bind fun _ size =>
      make_gives (by simp) rfl rfl (.cons type (.cons size .nil))

theorem typeOrText_gives (accepted : HasOne known tree Rule.typeOrText.shapes) :
    Gives (typeOrText self tree) (Fits .type) := by
  rcases accepted with accepted | accepted | ⟨⟨⟩⟩
  · obtain ⟨_, _, rfl, isText, ⟨⟩⟩ := accepts_case accepted
    simp only [typeOrText, ↓tag_bind, item_node, pure_bind]
    exact (protectedText_gives isText).bind fun _ text => make_gives (by simp) rfl rfl (.cons text .nil)
  · obtain ⟨tag, _, _, rfl, different, isType, _, ⟨⟩⟩ := accepts_other accepted
    simp only [typeOrText, ↓tag_bind, itemAt_first, pure_bind]
    split
    · contradiction
    · exact parts.later isType

theorem namedGroupType_gives
    (accepted : (TreeShape.tuple [.construct .identifier, .construct .groupType]).accepts known
      tree = true) :
    Gives (namedGroupType self tree) (Fits (.construct [.type .groupNamed])) := by
  obtain ⟨_, _, _, rfl, isId, isType, ⟨⟩⟩ := accepts_tuple accepted
  simp only [namedGroupType, itemAt_first, itemAt_second, pure_bind]
  exact (parts.now isId).bind fun _ id => (parts.later isType).bind fun _ type =>
    make_gives (by simp) rfl rfl (.cons id (.cons type .nil))

theorem groupType_gives (accepted : HasOne known tree Rule.groupType.shapes) :
    Gives (groupType self tree) (Fits .groupType) := by
  rcases accepted with accepted | accepted | ⟨⟨⟩⟩
  · obtain ⟨_, _, rfl, isType, ⟨⟩⟩ := accepts_case accepted
    simp only [groupType, ↓tag_bind, item_node, pure_bind]
    exact (parts.later isType).bind fun _ type => make_gives (by simp) rfl rfl (.cons type .nil)
  · obtain ⟨tag, _, _, rfl, different, arePositional, areNamed, ⟨⟩⟩ := accepts_other accepted
    simp only [groupType, ↓tag_bind, itemAt_first, itemAt_second, pure_bind]
    split
    · contradiction
    · exact (each_gives arePositional fun _ => parts.later).bind fun _ positional =>
        (each_gives areNamed fun _ => namedGroupType_gives parts).bind fun _ named =>
          make_gives (by simp) rfl rfl (.cons positional (.cons named .nil))

theorem variantCase_gives
    (accepted : (TreeShape.tuple [.construct .identifier, Grammar.maybe .type]).accepts known tree =
      true) :
    Gives (variantCase self tree) (Fits (.construct [.type .variantCase])) := by
  obtain ⟨_, _, _, rfl, isId, isType, ⟨⟩⟩ := accepts_tuple accepted
  simp only [variantCase, itemAt_first, itemAt_second, pure_bind]
  exact (parts.now isId).bind fun _ id => (optional_gives isType fun _ => parts.later).bind fun _ type =>
    make_gives (by simp) rfl rfl (.cons id (.cons type .nil))

/-! ### Patterns and clocks -/

theorem readPattern_gives (accepted : Grammar.patterns.accepts known tree = true) :
    Gives (readPattern tree) (Fits .pattern) := by
  rcases accepts_oneOf accepted with
      accepted | accepted | accepted | accepted | accepted | accepted | accepted | accepted | ⟨⟨⟩⟩ <;>
    obtain ⟨_, _, rfl, items⟩ := accepts_case accepted
  · obtain ⟨isPath, ⟨⟩⟩ := items
    simp only [readPattern, ↓tag_bind, item_node, pure_bind]
    exact (parts.now isPath).bind fun _ path => make_gives (by simp) rfl rfl (.cons path .nil)
  · obtain ⟨isPath, ⟨⟩⟩ := items
    simp only [readPattern, ↓tag_bind, item_node, pure_bind]
    exact (parts.now isPath).bind fun _ path =>
      make_gives (by simp) rfl rfl (.cons path (.cons (.left .absent) (.cons (.flag true) .nil)))
  · obtain ⟨isPath, isCaptured, ⟨⟩⟩ := items
    simp only [readPattern, ↓tag_bind, itemAt_first, itemAt_second, pure_bind]
    refine (parts.now isPath).bind fun _ path => ?_
    rcases accepts_option isCaptured with rfl | ⟨value, rfl, truthy, isId⟩
    · simp only [ParseTree.value, ParseTree.isTruthy, Convert.ofExcept, pure_bind,
        Bool.false_eq_true, if_false]
      exact make_gives (by simp) rfl rfl (.cons path (.cons (.left .absent) (.cons (.flag false) .nil)))
    · simp only [ParseTree.value, Convert.ofExcept, pure_bind, truthy, if_true]
      exact (parts.now isId).bind fun _ id =>
        make_gives (by simp) rfl rfl (.cons path (.cons (.right id) (.cons (.flag false) .nil)))
  · obtain ⟨isText, ⟨⟩⟩ := items
    simp only [readPattern, ↓tag_bind, item_node, pure_bind]
    exact make_gives (by simp) rfl rfl (.cons (ofTree_text isText) .nil)
  · obtain ⟨isMinus, isText, ⟨⟩⟩ := items
    simp only [readPattern, ↓tag_bind, itemAt_first, itemAt_second, pure_bind]
    exact make_gives (by simp) rfl rfl (.cons (ofTree_text isText) (.cons (.flag _) .nil))
  · obtain ⟨isValue, ⟨⟩⟩ := items
    simp only [readPattern, ↓tag_bind, item_node, pure_bind]
    exact make_gives (by simp) rfl rfl (.cons (.flag _) .nil)
  · cases items
    simp only [readPattern, ↓tag_bind]
    exact make_gives (by simp) rfl rfl .nil
  · cases items
    simp only [readPattern, ↓tag_bind]
    exact make_gives (by simp) rfl rfl .nil

theorem pattern_gives (accepted : HasOne known tree Rule.pattern.shapes) :
    Gives (pattern tree) (Fits .pattern) := by
  rcases accepted with accepted | accepted | ⟨⟨⟩⟩
  · obtain ⟨_, _, rfl, isText, ⟨⟩⟩ := accepts_case accepted
    simp only [pattern, ↓tag_bind, item_node, pure_bind]
    exact (protectedText_gives isText).bind fun _ text => make_gives (by simp) rfl rfl (.cons text .nil)
  · obtain ⟨tag, _, _, rfl, different, isPattern, _, ⟨⟩⟩ := accepts_other accepted
    simp only [pattern, ↓tag_bind, itemAt_first, pure_bind]
    split
    · contradiction
    · exact readPattern_gives parts isPattern

theorem clock_gives (accepted : HasOne known tree Rule.clock.shapes) :
    Gives (clock tree) (Fits (.part .clock)) := by
  rcases accepted with accepted | accepted | accepted | ⟨⟨⟩⟩ <;> obtain ⟨_, _, rfl, items⟩ :=
    accepts_case accepted
  · obtain ⟨isId, ⟨⟩⟩ := items
    simp only [clock, ↓tag_bind, item_node, pure_bind]
    exact (parts.now isId).bind fun _ id => clockOf_gives id (.left .absent) (.inl rfl)
  · obtain ⟨isId, ⟨⟩⟩ := items
    simp only [clock, ↓tag_bind, item_node, pure_bind]
    exact (parts.now isId).bind fun _ id => clockOf_gives id (.left .absent) (.inr rfl)
  · obtain ⟨isId, isPattern, ⟨⟩⟩ := items
    simp only [clock, ↓tag_bind, itemAt_first, itemAt_second, pure_bind]
    exact (parts.now isPattern).bind fun _ pattern => (parts.now isId).bind fun _ id =>
      clockOf_gives id (.right pattern) (.inl rfl)

/-! ### Parts of expressions -/

theorem exprOrText_gives (accepted : HasOne known tree Rule.exprOrText.shapes) :
    Gives (exprOrText self tree) (Fits .expr) := by
  rcases accepted with accepted | accepted | ⟨⟨⟩⟩
  · obtain ⟨_, _, rfl, isExpr, _, ⟨⟩⟩ := accepts_case accepted
    simp only [exprOrText, ↓tag_bind, itemAt_first, pure_bind]
    exact parts.later isExpr
  · obtain ⟨tag, _, _, rfl, different, isText, ⟨⟩⟩ := accepts_other accepted
    simp only [exprOrText, ↓tag_bind, item_node, pure_bind]
    split
    · contradiction
    · exact (protectedText_gives isText).bind fun _ text =>
        make_gives (by simp) rfl rfl (.cons text .nil)

theorem labelOrIndex_gives (accepted : HasOne known tree Rule.labelOrIndex.shapes) :
    Gives (labelOrIndex self tree) (Fits (.part .labelOrIndex)) := by
  rcases accepted with accepted | accepted | ⟨⟨⟩⟩
  · obtain ⟨_, _, rfl, isIndex, ⟨⟩⟩ := accepts_case accepted
    simp only [labelOrIndex, ↓tag_bind, item_node, pure_bind]
    exact (parts.now isIndex).bind fun _ index => make_gives (by simp) rfl rfl (.cons (.left index) .nil)
  · obtain ⟨tag, _, _, rfl, different, isLabel, ⟨⟩⟩ := accepts_other accepted
    simp only [labelOrIndex, ↓tag_bind, item_node, pure_bind]
    split
    · contradiction
    · exact (parts.now isLabel).bind fun _ label =>
        make_gives (by simp) rfl rfl (.cons (.right label) .nil)

theorem groupItem_gives (accepted : HasOne known tree Rule.groupItem.shapes) :
    Gives (groupItem self tree) (Fits (.part .groupItem)) := by
  rcases accepted with accepted | accepted | ⟨⟨⟩⟩
  · obtain ⟨_, _, rfl, isExpr, ⟨⟩⟩ := accepts_case accepted
    simp only [groupItem, ↓tag_bind, item_node, pure_bind]
    exact (parts.now isExpr).bind fun _ expr =>
      make_gives (by simp) rfl rfl (.cons expr (.cons (.left .absent) .nil))
  · obtain ⟨_, _, rfl, isLabel, isExpr, ⟨⟩⟩ := accepts_case accepted
    simp only [groupItem, ↓tag_bind, itemAt_first, itemAt_second, pure_bind]
    exact (parts.now isExpr).bind fun _ expr => (parts.now isLabel).bind fun _ label =>
      make_gives (by simp) rfl rfl (.cons expr (.cons (.right label) .nil))

theorem group_gives (accepted : HasOne known tree Rule.group.shapes) :
    Gives (group self tree) (Fits (.part .group)) := by
  exact (each_gives accepted.only fun _ => parts.now).bind fun _ items =>
    make_gives (by simp) rfl rfl (.cons items .nil)

theorem modifier_gives (accepted : HasOne known tree Rule.modifier.shapes) :
    Gives (modifier self tree) (Fits (.part .modifier)) := by
  rcases accepted with accepted | accepted | ⟨⟨⟩⟩
  · obtain ⟨_, _, rfl, isText, isValue, ⟨⟩⟩ := accepts_case accepted
    simp only [modifier, ↓tag_bind, itemAt_first, itemAt_second, pure_bind]
    exact (parts.now isValue).bind fun _ value => (protectedText_gives isText).bind fun _ text =>
      make_gives (by simp) rfl rfl (.cons (.left text) (.cons value .nil))
  · obtain ⟨tag, _, _, rfl, different, areTargets, isValue, ⟨⟩⟩ := accepts_other accepted
    simp only [modifier, ↓tag_bind, itemAt_first, itemAt_second, pure_bind]
    refine (parts.now isValue).bind fun _ value => ?_
    split
    · contradiction
    · exact (each_gives areTargets fun _ => parts.now).bind fun _ targets =>
        make_gives (by simp) rfl rfl (.cons (.right targets) (.cons value .nil))

theorem caseBranch_gives
    (accepted : (TreeShape.tuple [.construct .pattern, .construct .exprOrText]).accepts known tree =
      true) :
    Gives (caseBranch self tree) (Fits (.part .caseBranch)) := by
  obtain ⟨_, _, _, rfl, isPattern, isExpr, ⟨⟩⟩ := accepts_tuple accepted
  simp only [caseBranch, itemAt_first, itemAt_second, pure_bind]
  exact (parts.now isPattern).bind fun _ pattern => (parts.now isExpr).bind fun _ expr =>
    make_gives (by simp) rfl rfl (.cons pattern (.cons expr .nil))

theorem groupRenaming_gives (accepted : HasOne known tree Rule.groupRenaming.shapes) :
    Gives (groupRenaming tree) (Fits (.part .groupRenaming)) := by
  rcases accepted with accepted | accepted | ⟨⟨⟩⟩
  · obtain ⟨_, _, rfl, isNumeral, isShortcut, isNew, ⟨⟩⟩ := accepts_case accepted
    simp only [groupRenaming, ↓tag_bind, itemAt_first, itemAt_second, itemAt_third, pure_bind]
    refine (literal_gives .numeric (ofTree_numeral isNumeral)).bind fun _ index => ?_
    exact (optional_gives isNew fun _ => parts.now).bind fun _ renamed =>
      make_gives (by simp) rfl rfl
        (.cons (.left index) (.cons renamed (.cons (ofTree_flag isShortcut) .nil)))
  · obtain ⟨_, _, rfl, isOld, isShortcut, isNew, ⟨⟩⟩ := accepts_case accepted
    simp only [groupRenaming, ↓tag_bind, itemAt_first, itemAt_second, itemAt_third, pure_bind]
    refine (parts.now isOld).bind fun index isIndex => ?_
    refine (optional_gives isNew fun _ => parts.now).bind fun renamed isRenamed => ?_
    obtain ⟨old, oldValue⟩ := valueMember_identifier isIndex
    split
    · rename_i there
      rcases isRenamed.or with isAbsent | isRenamed
      · simp [isAbsent.eq_absent, Term.isTruthy] at there
      · obtain ⟨new, newValue⟩ := valueMember_identifier isRenamed
        simp only [oldValue, newValue, Convert.ofExcept, pure_bind]
        exact make_gives (by simp) rfl rfl
          (.cons (.right isIndex) (.cons (.right isRenamed) (.cons (.flag _) .nil)))
    · exact make_gives (by simp) rfl rfl
        (.cons (.right isIndex) (.cons isRenamed (.cons (ofTree_flag isShortcut) .nil)))

theorem adaptation_gives (accepted : HasOne known tree Rule.adaptation.shapes) :
    Gives (adaptation tree) (Fits (.part .adaptation)) := by
  obtain ⟨_, _, _, rfl, found, areRenamings, ⟨⟩⟩ := accepts_record accepted.only
  simp only [adaptation, field_node found, pure_bind]
  exact (each_gives areRenamings fun _ => parts.now).bind fun _ renamings =>
    make_gives (by simp) rfl rfl (.cons renamings .nil)

theorem port_gives (accepted : HasOne known tree Rule.port.shapes) :
    Gives (port tree) (Fits (.construct [.expr .port])) := by
  rcases accepted with accepted | accepted | ⟨⟨⟩⟩
  · obtain ⟨_, _, rfl, isLuid, ⟨⟩⟩ := accepts_case accepted
    simp only [port, ↓tag_bind, item_node, pure_bind]
    exact (parts.now isLuid).bind fun _ luid => make_gives (by simp) rfl rfl (.cons (.right luid) .nil)
  · obtain ⟨_, _, rfl, ⟨⟩⟩ := accepts_case accepted
    simp only [port, ↓tag_bind]
    exact make_gives (by simp) rfl rfl (.cons (.left .absent) .nil)

/-! ### Expressions -/

theorem simpleExprs_give (accepted : HasOne known tree Grammar.simpleExprs) :
    Gives (expr self tree) (Fits .expr) := by
  rcases accepted with
      accepted | accepted | accepted | accepted | accepted | accepted | accepted | accepted |
        accepted | ⟨⟨⟩⟩ <;>
    obtain ⟨_, _, rfl, isItem, ⟨⟩⟩ := accepts_case accepted <;>
    simp only [expr, ↓tag_bind, item_node, pure_bind]
  · exact (parts.now isItem).bind fun _ path => make_gives (by simp) rfl rfl (.cons path .nil)
  · exact (nameIdentifier_gives isItem).bind fun _ name => make_gives (by simp) rfl rfl (.cons name .nil)
  · exact (literal_gives .bool (.left (.text _))).weaken fun _ fits => fits.widen (by decide)
  · exact (literal_gives .char (.left (ofTree_text isItem))).weaken fun _ fits => fits.widen (by decide)
  · exact (literal_gives .numeric (.left (ofTree_text isItem))).weaken fun _ fits =>
      fits.widen (by decide)
  · exact (parts.now isItem).weaken fun _ fits => fits.widen (by decide)
  · exact (parts.now isItem).bind fun _ group => make_gives (by simp) rfl rfl (.cons group .nil)
  · exact (parts.now isItem).bind fun _ group => make_gives (by simp) rfl rfl (.cons group .nil)
  · exact (each_gives isItem fun _ => parts.now).bind fun _ groups =>
      make_gives (by simp) rfl rfl (.cons groups .nil)

theorem operation_gives
    (isCall : (TreeShape.record [("OIInstance", Grammar.maybe .luid),
      ("OIOperator", .construct .operator)]).accepts known tree = true)
    {fields : List (String × ParseTree)} {items : ParseTree} (isGroup : known .group items = true) :
    Gives (operation self (.node (some "EOpCall") [tree, items] fields)) (Fits .expr) := by
  obtain ⟨_, _, _, rfl, foundLuid, isLuid, foundOperator, isOperator, ⟨⟩⟩ := accepts_record isCall
  simp only [operation, itemAt_first, itemAt_second, field_node foundLuid, field_node foundOperator,
    pure_bind]
  exact (parts.now isGroup).bind fun _ params =>
    (optional_gives isLuid fun _ => parts.now).bind fun _ luid =>
    (parts.later isOperator).bind fun _ operator =>
      make_gives (by simp) rfl rfl (.cons operator (.cons params (.cons luid .nil)))

theorem operations_give (accepted : HasOne known tree Grammar.operations) :
    Gives (expr self tree) (Fits .expr) := by
  rcases accepted with
      accepted | accepted | accepted | accepted | accepted | accepted | accepted | accepted | ⟨⟨⟩⟩ <;>
    obtain ⟨_, _, rfl, isFirst, isSecond, items⟩ := accepts_case accepted
  · cases items
    simp only [expr, ↓tag_bind, itemAt_first, itemAt_second, pure_bind]
    exact (parts.now isFirst).bind fun _ op => (parts.now isSecond).bind fun _ value =>
      make_gives (by simp) rfl rfl (.cons op (.cons value .nil))
  · obtain ⟨isThird, ⟨⟩⟩ := items
    simp only [expr, ↓tag_bind, itemAt_first, itemAt_second, itemAt_third, pure_bind]
    exact (parts.now isFirst).bind fun _ op => (parts.now isSecond).bind fun _ left =>
      (parts.now isThird).bind fun _ right =>
        make_gives (by simp) rfl rfl (.cons op (.cons left (.cons right .nil)))
  · cases items
    simp only [expr, ↓tag_bind, itemAt_first, itemAt_second, pure_bind]
    exact (parts.now isFirst).bind fun _ value => (parts.now isSecond).bind fun _ clock =>
      make_gives (by simp) rfl rfl (.cons value (.cons clock .nil))
  · cases items
    simp only [expr, ↓tag_bind, itemAt_first, itemAt_second, pure_bind]
    exact (parts.now isFirst).bind fun _ value => (parts.now isSecond).bind fun _ path =>
      make_gives (by simp) rfl rfl (.cons value (.cons path .nil))
  · cases items
    simp only [expr, ↓tag_bind, itemAt_first, itemAt_second, pure_bind]
    exact (parts.now isFirst).bind fun _ value => (parts.now isSecond).bind fun _ type =>
      make_gives (by simp) rfl rfl (.cons value (.cons type .nil))
  · cases items
    simp only [expr, ↓tag_bind, itemAt_first, itemAt_second, pure_bind]
    exact (parts.now isFirst).bind fun _ value => (parts.now isSecond).bind fun _ adaptation =>
      make_gives (by simp) rfl rfl (.cons value (.cons adaptation .nil))
  · cases items
    simp only [expr, ↓tag_bind]
    exact operation_gives parts isFirst isSecond
  · obtain ⟨isThird, ⟨⟩⟩ := items
    simp only [expr, ↓tag_bind, itemAt_first, itemAt_second, itemAt_third, pure_bind]
    exact (parts.now isFirst).bind fun _ size => (parts.now isSecond).bind fun _ params =>
      (parts.now isThird).bind fun _ start =>
        make_gives (by simp) rfl rfl (.cons size (.cons params (.cons start .nil)))

theorem projection_gives {fields : List (String × ParseTree)} {value target : ParseTree}
    (isValue : known .exprOrText value = true) (isTarget : known .labelOrIndex target = true) :
    Gives (projection self (.node (some "EStaticProj") [value, target] fields)) (Fits .expr) := by
  simp only [projection, itemAt_first, itemAt_second, pure_bind]
  refine (parts.now isValue).bind fun _ value => (parts.now isTarget).bind fun _ target => ?_
  obtain ⟨_, rfl, label, ⟨⟩⟩ := Fits.eq_node target rfl
  dsimp only
  split
  · exact make_gives (by simp) rfl rfl (.cons value (.cons target .nil))
  · exact make_gives (by simp) rfl rfl (.cons value (.cons target .nil))

theorem composites_give (accepted : HasOne known tree Grammar.composites) :
    Gives (expr self tree) (Fits .expr) := by
  rcases accepted with
      accepted | accepted | accepted | accepted | accepted | accepted | accepted | accepted | ⟨⟨⟩⟩ <;>
    obtain ⟨_, _, rfl, isFirst, isSecond, items⟩ := accepts_case accepted
  · cases items
    simp only [expr, ↓tag_bind]
    exact projection_gives parts isFirst isSecond
  · cases items
    simp only [expr, ↓tag_bind, itemAt_first, itemAt_second, pure_bind]
    exact (parts.now isFirst).bind fun _ name => (parts.now isSecond).bind fun _ value =>
      make_gives (by simp) rfl rfl (.cons name (.cons value .nil))
  · obtain ⟨isThird, ⟨⟩⟩ := items
    simp only [expr, threeParts, ↓tag_bind, itemAt_first, itemAt_second, itemAt_third, pure_bind]
    exact (parts.now isFirst).bind fun _ value => (parts.now isSecond).bind fun _ start =>
      (parts.now isThird).bind fun _ stop =>
        make_gives (by simp) rfl rfl (.cons value (.cons start (.cons stop .nil)))
  · obtain ⟨isThird, ⟨⟩⟩ := items
    simp only [expr, ↓tag_bind, itemAt_first, itemAt_second, itemAt_third, pure_bind]
    exact (parts.now isFirst).bind fun _ value =>
      (each_gives isSecond fun _ => parts.now).bind fun _ indices =>
      (parts.now isThird).bind fun _ fallback =>
        make_gives (by simp) rfl rfl (.cons value (.cons indices (.cons fallback .nil)))
  · cases items
    simp only [expr, twoParts, ↓tag_bind, itemAt_first, itemAt_second, pure_bind]
    exact (parts.now isFirst).bind fun _ value => (parts.now isSecond).bind fun _ size =>
      make_gives (by simp) rfl rfl (.cons value (.cons size .nil))
  · cases items
    simp only [expr, ↓tag_bind, itemAt_first, itemAt_second, pure_bind]
    exact (parts.now isFirst).bind fun _ items =>
      (optional_gives isSecond fun _ => parts.now).bind fun _ type =>
      make_gives (by simp) rfl rfl (.cons items (.cons type .nil))
  · cases items
    simp only [expr, ↓tag_bind, itemAt_first, itemAt_second, pure_bind]
    exact (parts.now isFirst).bind fun _ name => (parts.now isSecond).bind fun _ items =>
      make_gives (by simp) rfl rfl (.cons name (.cons items .nil))
  · cases items
    simp only [expr, ↓tag_bind, itemAt_first, itemAt_second, pure_bind]
    exact (parts.now isFirst).bind fun _ value =>
      (each_gives isSecond fun _ => parts.now).bind fun _ modifiers =>
      make_gives (by simp) rfl rfl (.cons value (.cons modifiers .nil))

theorem choices_give (accepted : HasOne known tree Grammar.choices) :
    Gives (expr self tree) (Fits .expr) := by
  rcases accepted with accepted | accepted | ⟨⟨⟩⟩
  · obtain ⟨_, _, rfl, isCondition, isYes, isNo, ⟨⟩⟩ := accepts_case accepted
    simp only [expr, threeParts, ↓tag_bind, itemAt_first, itemAt_second, itemAt_third, pure_bind]
    exact (parts.now isCondition).bind fun _ condition => (parts.now isYes).bind fun _ yes =>
      (parts.now isNo).bind fun _ no =>
        make_gives (by simp) rfl rfl (.cons condition (.cons yes (.cons no .nil)))
  · obtain ⟨_, _, rfl, isValue, areBranches, ⟨⟩⟩ := accepts_case accepted
    simp only [expr, caseBranches, ↓tag_bind, itemAt_first, itemAt_second, pure_bind]
    exact (parts.now isValue).bind fun _ value =>
      (each_gives areBranches fun _ => caseBranch_gives parts).bind fun _ branches =>
      make_gives (by simp) rfl rfl (.cons value (.cons branches .nil))

theorem expr_gives (accepted : HasOne known tree Rule.expr.shapes) :
    Gives (expr self tree) (Fits .expr) := by
  rcases HasOne.of_append accepted with accepted | accepted
  · rcases HasOne.of_append accepted with accepted | accepted
    · rcases HasOne.of_append accepted with accepted | accepted
      · exact simpleExprs_give parts accepted
      · exact operations_give parts accepted
    · exact composites_give parts accepted
  · exact choices_give parts accepted

end SwanModel
