import SwanModel.Proofs.Language.Expressions
import SwanModel.Proofs.Numeral.Digits

/-!
# Operators convert

The indices of a transposition are rows of decimal digits.
-/

namespace SwanModel

open SwanModel.Convert TreeShape

/-! ### Indices -/

theorem transposeIndex_gives {tree : ParseTree} (isIndex : tree.isIndex = true) :
    Gives (transposeIndex tree) (Fits .number) := by
  unfold ParseTree.isIndex at isIndex
  split at isIndex
  · rename_i s
    simp only [Bool.and_eq_true, Bool.not_eq_true', decide_eq_true_eq] at isIndex
    obtain ⟨⟨filled, digits⟩, short⟩ := isIndex
    simp only [transposeIndex, intOfText_digits filled digits, Nat.not_lt.mpr short, if_false,
      Convert.ofExcept, pure_bind]
    exact .pure (.number _)
  · cases isIndex

/-! ### Operators -/

variable {known : Rule → ParseTree → Bool} {tree : ParseTree} {sizes marks : Term}

theorem transposeIndices_give (accepted : Grammar.indices.accepts known tree = true) :
    Gives (transposeIndices tree) (Fits (.either .text (.list .number))) := by
  rcases accepts_oneOf accepted with accepted | accepted | ⟨⟨⟩⟩
  · obtain ⟨_, _, rfl, areIndices, _, ⟨⟩⟩ := accepts_case accepted
    simp only [transposeIndices, ↓tag_bind, itemAt_first, pure_bind]
    exact (each_gives areIndices fun _ => transposeIndex_gives).weaken fun _ indices => .right indices
  · obtain ⟨tag, _, _, rfl, different, isText, ⟨⟩⟩ := accepts_other accepted
    simp only [transposeIndices, ↓tag_bind, item_node, pure_bind]
    split
    · contradiction
    · exact (protectedText_gives isText).weaken fun _ text => .left text

theorem primitive_gives (areSizes : Fits (.list .expr) sizes)
    (accepted : Grammar.primitive.accepts known tree = true) :
    Gives (primitive sizes tree) (Fits .operator) := by
  have direct (kind : Primitive) :
      Gives (make (.operator .primitive) [.constant (.primitive kind), sizes]) (Fits .operator) :=
    make_gives (by simp) rfl rfl (.cons (.constant (.primitive kind)) (.cons areSizes .nil))
  rcases accepts_oneOf accepted with accepted | accepted | ⟨⟨⟩⟩
  · cases tree with
    | node tag items fields =>
      cases tag with
      | none => cases accepted
      | some tag =>
        have listed : tag = "Flatten" ∨ tag = "Pack" ∨ tag = "Reverse" := by
          simpa [accepts, Grammar.tagged, ParseTree.isTagged] using accepted
        rcases listed with rfl | rfl | rfl <;> simp only [primitive, ↓tag_bind] <;> exact direct _
    | _ => cases accepted
  · obtain ⟨tag, _, _, rfl, different, areIndices, ⟨⟩⟩ := accepts_other accepted
    have others : tag ≠ "Flatten" ∧ tag ≠ "Pack" ∧ tag ≠ "Reverse" := by simpa using different
    simp only [primitive, ↓tag_bind, item_node, pure_bind]
    split
    · exact absurd rfl others.1
    · exact absurd rfl others.2.1
    · exact absurd rfl others.2.2
    · exact (transposeIndices_give areIndices).bind fun _ indices =>
        make_gives (by simp) rfl rfl (.cons indices (.cons areSizes .nil))

theorem protectedOperator_gives (self : Convert) (isText : tree.isProtected ["text", "op_expr"] = true) :
    Gives (protectedOperator self sizes tree) (Fits .operator) := by
  refine (markup_gives isText).bind fun _ ⟨mark, same, kept⟩ => ?_
  subst same
  refine (protectedText_gives isText).bind fun _ text => ?_
  have others : mark ≠ "text" ∧ mark ≠ "op_expr" := by simpa using kept
  split
  · rename_i same
    exact absurd (Term.text.inj same) others.1
  · rename_i same
    exact absurd (Term.text.inj same) others.2
  · exact make_gives (by simp) rfl rfl (.cons text (.cons (.text mark) .nil))

theorem pragmas_give (accepted : (TreeShape.list Grammar.text).accepts known tree = true) :
    Gives (pragmas tree) (Fits (.list .pragma)) := by
  refine each_gives accepted fun tree isText => .pure ?_
  obtain ⟨s, same⟩ := (ofTree_text isText).eq_text
  rw [same]
  exact .pragma s

variable {self : Convert} (parts : Converts self known)
include parts

theorem locatedOperatorExpr_gives (accepted : HasOne known tree Rule.locatedOperatorExpr.shapes) :
    Gives (locatedOperatorExpr self tree) (Fits .operatorExpr) := by
  obtain ⟨_, _, _, rfl, found, isExpr, ⟨⟩⟩ := accepts_record accepted.only
  simp only [locatedOperatorExpr, field_node found, pure_bind]
  exact parts.later isExpr

theorem operatorCall_gives (areSizes : Fits (.list .expr) sizes) (areMarks : Fits (.list .pragma) marks)
    (accepted : Grammar.operatorCall.accepts known tree = true) :
    Gives (operatorCall self sizes marks tree) (Fits .operator) := by
  rcases accepts_oneOf accepted with accepted | accepted | accepted | accepted | accepted | ⟨⟨⟩⟩
  · obtain ⟨_, _, rfl, isPath, ⟨⟩⟩ := accepts_case accepted
    simp only [operatorCall, ↓tag_bind, item_node, pure_bind]
    exact (parts.now isPath).bind fun _ path =>
      make_gives (by simp) rfl rfl (.cons path (.cons areSizes (.cons areMarks .nil)))
  · obtain ⟨_, _, rfl, isPrimitive, ⟨⟩⟩ := accepts_case accepted
    simp only [operatorCall, ↓tag_bind, item_node, pure_bind]
    exact primitive_gives areSizes isPrimitive
  · obtain ⟨_, _, rfl, isText, ⟨⟩⟩ := accepts_case accepted
    simp only [operatorCall, ↓tag_bind, item_node, pure_bind]
    exact protectedOperator_gives self isText
  · obtain ⟨_, _, rfl, isText, ⟨⟩⟩ := accepts_case accepted
    simp only [operatorCall, ↓tag_bind, item_node, pure_bind]
    exact protectedOperator_gives self isText
  · obtain ⟨tag, _, _, rfl, different, isExpr, ⟨⟩⟩ := accepts_other accepted
    have others : tag ≠ "OPathId" ∧ tag ≠ "OPrefixPrimitive" ∧ tag ≠ "ORawPrefix" ∧
        tag ≠ "ORawOpExpr" := by
      simpa using different
    simp only [operatorCall, ↓tag_bind, item_node, pure_bind]
    split
    · exact absurd rfl others.1
    · exact absurd rfl others.2.1
    · exact absurd rfl others.2.2.1
    · exact absurd rfl others.2.2.2
    · exact (parts.now isExpr).bind fun _ expr =>
        make_gives (by simp) rfl rfl (.cons expr (.cons areSizes .nil))

theorem operator_gives (accepted : HasOne known tree Rule.operator.shapes) :
    Gives (operator self tree) (Fits .operator) := by
  obtain ⟨_, _, _, rfl, foundSizes, areSizes, foundMarks, areMarks, foundCall, isCall, ⟨⟩⟩ :=
    accepts_record accepted.only
  simp only [operator, field_node foundSizes, field_node foundMarks, field_node foundCall, pure_bind]
  exact (each_gives areSizes fun _ => parts.now).bind fun _ sizes =>
    (pragmas_give areMarks).bind fun _ marks =>
    operatorCall_gives parts sizes marks isCall

theorem optionalItem_gives (accepted : HasOne known tree Rule.optionalItem.shapes) :
    Gives (optionalItem self tree) (Fits (.construct [.operator .optionalItem])) := by
  rcases accepted with accepted | accepted | ⟨⟨⟩⟩
  · obtain ⟨_, _, rfl, isItem, ⟨⟩⟩ := accepts_case accepted
    simp only [optionalItem, ↓tag_bind, item_node, pure_bind]
    exact (parts.now isItem).bind fun _ item => make_gives (by simp) rfl rfl (.cons (.right item) .nil)
  · obtain ⟨tag, items, fields, rfl, different⟩ := tagged_other accepted
    simp only [optionalItem, ↓tag_bind]
    split
    · contradiction
    · exact make_gives (by simp) rfl rfl (.cons (.left .absent) .nil)

theorem operatorExpr_gives (accepted : HasOne known tree Rule.operatorExpr.shapes) :
    Gives (operatorExpr self tree) (Fits .operatorExpr) := by
  rcases accepted with
      accepted | accepted | accepted | accepted | accepted | accepted | accepted | accepted | ⟨⟨⟩⟩ <;>
    obtain ⟨_, _, rfl, isFirst, items⟩ := accepts_case accepted
  · obtain ⟨isOperator, ⟨⟩⟩ := items
    obtain ⟨tag, _, _, kind, rfl, found, _⟩ := lookup_of_tagged isFirst
    simp only [operatorExpr, iterator, ↓tag_bind, itemAt_first, itemAt_second, pure_bind, found]
    exact (parts.later isOperator).bind fun _ op =>
      make_gives (by simp) rfl rfl (.cons (.constant (.iteratorKind kind)) (.cons op .nil))
  · obtain ⟨isClock, ⟨⟩⟩ := items
    simp only [operatorExpr, ↓tag_bind, itemAt_first, itemAt_second, pure_bind]
    exact (parts.later isFirst).bind fun _ op => (parts.now isClock).bind fun _ clock =>
      make_gives (by simp) rfl rfl (.cons op (.cons clock .nil))
  · obtain ⟨isCondition, isLast, isExpr, ⟨⟩⟩ := items
    simp only [operatorExpr, ↓tag_bind, itemAt_first, itemAt_second, itemAt_third, itemAt_fourth,
      pure_bind]
    exact (parts.later isFirst).bind fun _ op => (parts.now isCondition).bind fun _ condition =>
      (parts.now isExpr).bind fun _ expr =>
        make_gives (by simp) rfl rfl
          (.cons op (.cons condition (.cons (ofTree_flag isLast) (.cons expr .nil))))
  · obtain ⟨isCondition, ⟨⟩⟩ := items
    simp only [operatorExpr, ↓tag_bind, itemAt_first, itemAt_second, pure_bind]
    exact (parts.later isFirst).bind fun _ op => (parts.now isCondition).bind fun _ condition =>
      make_gives (by simp) rfl rfl (.cons op (.cons condition .nil))
  · obtain ⟨areInputs, areOutputs, isBody, ⟨⟩⟩ := items
    simp only [operatorExpr, ↓tag_bind, itemAt_first, itemAt_second, itemAt_third, itemAt_fourth,
      pure_bind]
    exact (each_gives areInputs fun _ => parts.later).bind fun _ inputs =>
      (each_gives areOutputs fun _ => parts.later).bind fun _ outputs =>
        (parts.later isBody).bind fun _ body =>
        make_gives (by simp) rfl rfl
          (.cons (ofTree_flag isFirst) (.cons inputs (.cons outputs (.cons body.maybe_scope .nil))))
  · obtain ⟨areParams, areSections, isExpr, ⟨⟩⟩ := items
    simp only [operatorExpr, ↓tag_bind, itemAt_first, itemAt_second, itemAt_third, itemAt_fourth,
      pure_bind]
    exact (each_gives areParams fun _ => parts.now).bind fun _ params =>
      (each_gives areSections fun _ => parts.later).bind fun _ sections =>
        (parts.now isExpr).bind fun _ expr =>
        make_gives (by simp) rfl rfl
          (.cons (ofTree_flag isFirst) (.cons params (.cons sections (.cons expr .nil))))
  · obtain ⟨areItems, ⟨⟩⟩ := items
    simp only [operatorExpr, ↓tag_bind, itemAt_first, itemAt_second, pure_bind]
    exact (parts.later isFirst).bind fun _ op =>
      (each_gives areItems fun _ => parts.now).bind fun _ items =>
      make_gives (by simp) rfl rfl (.cons op (.cons items .nil))
  · cases items
    obtain ⟨tag, _, _, op, rfl, found, _⟩ := lookup_of_tagged isFirst
    simp only [operatorExpr, ↓tag_bind, item_node, pure_bind, found]
    exact make_gives (by simp) rfl rfl (.cons (.constant (.naryOp op)) .nil)

theorem operatorBlock_gives (accepted : Grammar.instanceBlock.accepts known tree = true) :
    Gives (operatorBlock self tree) (Fits (.either .operator .operatorExpr)) := by
  obtain ⟨_, _, _, rfl, _, _, _, _, found, isCalled, ⟨⟩⟩ := accepts_record accepted
  simp only [operatorBlock, field_node found, pure_bind]
  rcases accepts_oneOf isCalled with accepted | accepted | ⟨⟨⟩⟩
  · obtain ⟨_, _, rfl, isOperator, ⟨⟩⟩ := accepts_case accepted
    simp only [↓tag_bind, item_node, pure_bind]
    exact (parts.later isOperator).weaken fun _ operator => .left operator
  · obtain ⟨tag, _, _, rfl, different, isExpr, ⟨⟩⟩ := accepts_other accepted
    simp only [↓tag_bind, item_node, pure_bind]
    split
    · contradiction
    · exact (parts.now isExpr).weaken fun _ expr => .right expr

theorem blockParts_give (accepted : Grammar.instanceBlock.accepts known tree = true) :
    Gives (blockParts self tree) fun (block, luid) =>
      Fits (.either .operator .operatorExpr) block ∧ Fits (.maybe .luid) luid := by
  have called := operatorBlock_gives parts accepted
  obtain ⟨_, _, _, rfl, foundLuid, isLuid, foundMarks, areMarks, found, isCalled, ⟨⟩⟩ :=
    accepts_record accepted
  simp only [blockParts, field_node foundLuid, field_node foundMarks, field_node found, pure_bind]
  obtain ⟨tag, _, _, rfl⟩ : ∃ tag items fields, _ = ParseTree.node (some tag) items fields := by
    rcases accepts_oneOf isCalled with accepted | accepted | ⟨⟨⟩⟩
    · obtain ⟨_, _, same, _⟩ := accepts_case accepted
      exact ⟨_, _, _, same⟩
    · obtain ⟨_, _, _, same, _⟩ := accepts_other accepted
      exact ⟨_, _, _, same⟩
  refine (optional_gives isLuid fun _ => parts.now).bind fun _ luid => called.bind fun _ block => ?_
  simp only [↓tag_bind]
  split
  · exact (pragmas_give areMarks).bind fun _ _ => .pure ⟨block, luid⟩
  · exact .pure ⟨block, luid⟩

end SwanModel
