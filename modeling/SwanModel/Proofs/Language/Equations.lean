import SwanModel.Proofs.Language.Operators

/-! # Equations, state machines and activations convert -/

namespace SwanModel

open SwanModel.Convert TreeShape

variable {known : Rule → ParseTree → Bool} {tree : ParseTree}

theorem ofTree_priority (isPriority : tree.isPriority = true) : Fits .priority (Term.ofTree tree) := by
  cases tree with
  | absent => exact .left .absent
  | text s => exact .right (.left (.text s))
  | number n => exact .right (.right (.number n))
  | _ => cases isPriority

theorem missing_eq (isMissing : tree.isMissing = true) : tree = .absent := by
  cases tree with
  | absent => rfl
  | _ => cases isMissing

theorem option_gives (isName : tree.isTextOption = true) :
    Gives (Convert.option tree) (Fits (.maybe .text)) := by
  unfold ParseTree.isTextOption at isName
  split at isName
  · exact .pure (.left .absent)
  · exact .pure (.right (.text _))
  · cases isName

variable {self : Convert} (parts : Converts self known)
include parts

theorem leftItem_gives (accepted : HasOne known tree Rule.leftItem.shapes) :
    Gives (leftItem tree) (Fits (.equationPart .leftItem)) := by
  rcases accepted with accepted | accepted | ⟨⟨⟩⟩
  · obtain ⟨_, _, rfl, isId, ⟨⟩⟩ := accepts_case accepted
    simp only [leftItem, ↓tag_bind, item_node, pure_bind]
    exact (parts.now isId).bind fun _ id => make_gives (by simp) rfl rfl (.cons (.right id) .nil)
  · obtain ⟨tag, _, _, rfl, different⟩ := tagged_other accepted
    simp only [leftItem, ↓tag_bind]
    split
    · contradiction
    · exact make_gives (by simp) rfl rfl (.cons (.left .absent) .nil)

theorem left_gives (accepted : HasOne known tree Rule.left.shapes) :
    Gives (left tree) (Fits (.equationPart .left)) := by
  rcases accepted with accepted | accepted | ⟨⟨⟩⟩
  · obtain ⟨_, _, rfl⟩ := tagged_one accepted
    simp only [left, ↓tag_bind]
    exact make_gives (by simp) rfl rfl (.cons (.list .nil) (.cons (.flag false) .nil))
  · obtain ⟨tag, _, _, rfl, different, areItems, ⟨⟩⟩ := accepts_other accepted
    simp only [left, ↓tag_bind, item_node, pure_bind]
    split
    · contradiction
    · exact (each_gives areItems fun _ => parts.now).bind fun _ items =>
        make_gives (by simp) rfl rfl (.cons items (.cons (.flag _) .nil))

/-! ### Activations -/

theorem branch_gives (accepted : HasOne known tree Rule.branch.shapes) :
    Gives (branch self tree) (Fits (.construct [.equation .branchScope, .equation .branchIf])) := by
  rcases accepted with accepted | accepted | ⟨⟨⟩⟩
  · obtain ⟨_, _, rfl, isScope, ⟨⟩⟩ := accepts_case accepted
    simp only [branch, ↓tag_bind, item_node, pure_bind]
    exact (parts.later isScope).bind fun _ scope =>
      make_gives (by simp) rfl rfl (.cons scope.maybe_scope .nil)
  · obtain ⟨tag, _, _, rfl, different, isActivation, ⟨⟩⟩ := accepts_other accepted
    simp only [branch, ↓tag_bind, item_node, pure_bind]
    split
    · contradiction
    · exact (parts.later isActivation).bind fun _ activation =>
        make_gives (by simp) rfl rfl (.cons activation .nil)

theorem activationBranch_gives (accepted : HasOne known tree Rule.activationBranch.shapes) :
    Gives (activationBranch self tree) (Fits (.equationPart .ifBranch)) := by
  obtain ⟨_, _, _, rfl, isCondition, isBranch, ⟨⟩⟩ := accepts_tuple accepted.only
  simp only [activationBranch, itemAt_first, itemAt_second, pure_bind]
  exact (parts.now isCondition).bind fun _ condition => (parts.now isBranch).bind fun _ branch =>
    make_gives (by simp) rfl rfl (.cons (.right condition) (.cons branch .nil))

theorem ifActivation_gives (accepted : HasOne known tree Rule.ifActivation.shapes) :
    Gives (ifActivation self tree) (Fits (.equationPart .ifActivation)) := by
  obtain ⟨_, _, _, rfl, foundBranches, areBranches, foundLast, isLast, ⟨⟩⟩ :=
    accepts_record accepted.only
  obtain ⟨items, rfl, all⟩ := accepts_list areBranches
  simp only [ifActivation, field_node foundBranches, field_node foundLast, ParseTree.members,
    Convert.ofExcept, pure_bind]
  have guarded : Gives (items.mapM (activationBranch self)) (FitsEach (.equationPart .ifBranch)) :=
    .mapM fun item inside => parts.now (all item inside)
  refine guarded.bind fun _ branches => (parts.now isLast).bind fun _ last => ?_
  have unguarded : Gives (make (.equation .ifBranch) [.absent, _]) (Fits (.equationPart .ifBranch)) :=
    make_gives (by simp) rfl rfl (.cons (.left .absent) (.cons last .nil))
  exact unguarded.bind fun _ last =>
    make_gives (by simp) rfl rfl (.cons (.list (branches.append (.cons last .nil))) .nil)

theorem whenBranch_gives (accepted : HasOne known tree Rule.whenBranch.shapes) :
    Gives (whenBranch self tree) (Fits (.equationPart .whenBranch)) := by
  obtain ⟨_, _, _, rfl, isPattern, isScope, ⟨⟩⟩ := accepts_tuple accepted.only
  simp only [whenBranch, itemAt_first, itemAt_second, pure_bind]
  exact (parts.now isPattern).bind fun _ pattern => (parts.later isScope).bind fun _ scope =>
    make_gives (by simp) rfl rfl (.cons pattern (.cons scope.maybe_scope .nil))

/-! ### Arrows -/

theorem fork_gives (accepted : Grammar.fork.accepts known tree = true) :
    Gives (fork (self .arrow) (self .priorityFork) tree) (Fits .goal) := by
  rcases accepts_oneOf accepted with accepted | accepted | ⟨⟨⟩⟩
  · obtain ⟨_, _, rfl, isIf, areElsifs, isElse, ⟨⟩⟩ := accepts_case accepted
    simp only [fork, ↓tag_bind, itemAt_first, itemAt_second, itemAt_third, pure_bind]
    exact (parts.later isIf).bind fun _ first =>
      (each_gives areElsifs fun _ => parts.later).bind fun _ elsifs =>
      (optional_gives isElse fun _ => parts.later).bind fun _ last =>
        make_gives (by simp) rfl rfl (.cons first (.cons elsifs (.cons last .nil)))
  · obtain ⟨tag, _, _, rfl, different, areForks, ⟨⟩⟩ := accepts_other accepted
    simp only [fork, ↓tag_bind, item_node, pure_bind]
    split
    · contradiction
    · exact (each_gives areForks fun _ => parts.later).bind fun _ forks =>
        make_gives (by simp) rfl rfl (.cons forks .nil)

def Convert.ArrowParts.WellFormed (p : ArrowParts) : Prop :=
  Fits (.equationPart .arrow) p.arrow ∧ Fits .flag p.isIf ∧ Fits .priority p.priority

theorem forkedArrow_gives (accepted : Grammar.forkedArrow.accepts known tree = true) :
    Gives (arrowParts self tree) ArrowParts.WellFormed := by
  obtain ⟨_, _, _, rfl, foundPriority, isPriority, foundGuard, isGuard, foundAction, isAction,
    foundIf, isIf, foundFork, isPresent, foundAgain, isFork, ⟨⟩⟩ := accepts_record accepted
  obtain rfl := Option.some.inj (foundFork.symm.trans foundAgain)
  simp only [arrowParts, field_node foundPriority, field_node foundGuard, field_node foundAction,
    field_node foundIf, field_node foundFork, pure_bind]
  refine (optional_gives isGuard fun _ => parts.now).bind fun _ guard =>
    (parts.later isAction).bind fun _ action => ?_
  rcases accepts_option isFork with rfl | ⟨value, rfl, truthy, isFork⟩
  · cases isPresent
  · simp only [ParseTree.value, Convert.ofExcept, pure_bind, truthy, if_true]
    refine (fork_gives parts isFork).bind fun _ goal => ?_
    have arrow : Gives (make (.equation .arrow) [_, _, _]) (Fits (.equationPart .arrow)) :=
      make_gives (by simp) rfl rfl (.cons guard (.cons action.maybe_scope (.cons goal .nil)))
    exact arrow.bind fun _ arrow => .pure ⟨arrow, ofTree_flag isIf, ofTree_priority isPriority⟩

theorem directArrow_gives (accepted : Grammar.directArrow.accepts known tree = true) :
    Gives (arrowParts self tree) ArrowParts.WellFormed := by
  obtain ⟨_, _, _, rfl, foundPriority, isPriority, foundGuard, isGuard, foundAction, isAction,
    foundIf, isIf, foundFork, isMissing, foundTarget, isTarget, foundResume, isResume, ⟨⟩⟩ :=
      accepts_record accepted
  simp only [arrowParts, target, field_node foundPriority, field_node foundGuard, field_node foundAction,
    field_node foundIf, field_node foundFork, field_node foundTarget, field_node foundResume, pure_bind]
  refine (optional_gives isGuard fun _ => parts.now).bind fun _ guard =>
    (parts.later isAction).bind fun _ action => ?_
  obtain rfl := missing_eq isMissing
  simp only [ParseTree.value, ParseTree.isTruthy, Convert.ofExcept, pure_bind, bind_assoc,
    Bool.false_eq_true, if_false]
  refine (parts.now isTarget).bind fun _ id => ?_
  have target : Gives (make (.equation .target) [_, _]) (Fits .goal) :=
    make_gives (by simp) rfl rfl (.cons id (.cons (ofTree_flag isResume) .nil))
  refine target.bind fun _ goal => ?_
  have arrow : Gives (make (.equation .arrow) [_, _, _]) (Fits (.equationPart .arrow)) :=
    make_gives (by simp) rfl rfl (.cons guard (.cons action.maybe_scope (.cons goal .nil)))
  exact arrow.bind fun _ arrow => .pure ⟨arrow, ofTree_flag isIf, ofTree_priority isPriority⟩

theorem arrowParts_give (accepted : HasOne known tree [Grammar.forkedArrow, Grammar.directArrow]) :
    Gives (arrowParts self tree) ArrowParts.WellFormed := by
  rcases accepted with accepted | accepted | ⟨⟨⟩⟩
  · exact forkedArrow_gives parts accepted
  · exact directArrow_gives parts accepted

theorem arrow_gives (accepted : HasOne known tree Rule.arrow.shapes) :
    Gives (arrow self tree) (Fits (.equationPart .arrow)) :=
  (arrowParts_give parts accepted).bind fun _ whole => .pure whole.1

theorem priorityFork_gives (accepted : HasOne known tree Rule.priorityFork.shapes) :
    Gives (priorityFork self tree) (Fits (.equationPart .priorityFork)) :=
  (arrowParts_give parts accepted).bind fun _ ⟨arrow, isIf, priority⟩ =>
    make_gives (by simp) rfl rfl (.cons priority (.cons arrow (.cons isIf .nil)))

/-! ### State machines -/

theorem transition_gives (isArrow : known .arrow tree = true) :
    Gives (transition self tree) (Fits (.equationPart .transition)) :=
  (parts.now isArrow).bind fun _ arrow => make_gives (by simp) rfl rfl (.cons arrow .nil)

theorem stateBody_gives (accepted : HasOne known tree Rule.stateBody.shapes) :
    Gives (stateBody self tree) (Fits (.list .scopeSection)) := by
  obtain ⟨_, _, rfl, areSections, _, ⟨⟩⟩ := accepts_case accepted.only
  simp only [stateBody, itemAt_first, pure_bind]
  exact each_gives areSections fun _ => parts.later

theorem state_gives (accepted : Grammar.state.accepts known tree = true) :
    Gives (state self tree) (Fits (.construct [.equation .state, .equation .transitionDecl])) := by
  obtain ⟨_, _, _, rfl, foundId, isId, foundWeak, areWeak, foundStrong, areStrong, foundInitial,
    isInitial, foundBody, isBody, ⟨⟩⟩ := accepts_record accepted
  simp only [state, field_node foundId, field_node foundWeak, field_node foundStrong,
    field_node foundInitial, field_node foundBody, pure_bind]
  exact (parts.now isId).bind fun _ id =>
    (each_gives areWeak fun _ => transition_gives parts).bind fun _ weak =>
    (each_gives areStrong fun _ => transition_gives parts).bind fun _ strong =>
      (parts.now isBody).bind fun _ sections =>
      make_gives (by simp) rfl rfl
        (.cons id (.cons strong (.cons sections (.cons weak (.cons (ofTree_flag isInitial) .nil)))))

theorem transitionDecl_gives (accepted : Grammar.transition.accepts known tree = true) :
    Gives (transitionDecl self tree)
      (Fits (.construct [.equation .state, .equation .transitionDecl])) := by
  obtain ⟨_, _, _, rfl, foundSource, isSource, foundStrong, isStrong, foundArrow, isArrow, ⟨⟩⟩ :=
    accepts_record accepted
  simp only [transitionDecl, field_node foundSource, field_node foundStrong, field_node foundArrow,
    pure_bind]
  refine (parts.now isSource).bind fun _ source => ?_
  refine (arrowParts_give parts (accepts_oneOf isArrow)).bind fun _ ⟨arrow, isIf, priority⟩ => ?_
  have goal : Gives (make (.equation .transition) [_]) (Fits (.equationPart .transition)) :=
    make_gives (by simp) rfl rfl (.cons arrow .nil)
  exact goal.bind fun _ goal =>
    make_gives (by simp) rfl rfl
      (.cons priority (.cons goal (.cons (ofTree_flag isStrong) (.cons source .nil))))

theorem machineItem_gives (accepted : HasOne known tree Rule.machineItem.shapes) :
    Gives (machineItem self tree) (Fits (.construct [.equation .state, .equation .transitionDecl])) := by
  rcases accepted with accepted | accepted | ⟨⟨⟩⟩
  · obtain ⟨_, _, rfl, isState, ⟨⟩⟩ := accepts_case accepted
    simp only [machineItem, ↓tag_bind, item_node, pure_bind]
    exact state_gives parts isState
  · obtain ⟨tag, _, _, rfl, different, isTransition, ⟨⟩⟩ := accepts_other accepted
    simp only [machineItem, ↓tag_bind, item_node, pure_bind]
    split
    · contradiction
    · exact transitionDecl_gives parts isTransition

/-! ### Equations -/

theorem activation_gives {lhs : Term} (isLeft : Fits (.equationPart .left) lhs)
    (accepted : Grammar.activation.accepts known tree = true) :
    Gives (do match ← Convert.tag tree with
      | "ActivateIf" => activateIf self lhs tree
      | _ => activateWhen self lhs tree) (Fits .equation) := by
  rcases accepts_oneOf accepted with accepted | accepted | ⟨⟨⟩⟩
  · obtain ⟨_, _, rfl, isName, isActivation, ⟨⟩⟩ := accepts_case accepted
    simp only [activateIf, ↓tag_bind, itemAt_first, itemAt_second, pure_bind]
    exact (option_gives isName).bind fun _ name => (parts.now isActivation).bind fun _ activation =>
      make_gives (by simp) rfl rfl (.cons activation (.cons isLeft (.cons name .nil)))
  · obtain ⟨tag, _, _, rfl, different, isName, isWhen, ⟨⟩⟩ := accepts_other accepted
    obtain ⟨_, _, _, rfl, foundCondition, isCondition, foundBranches, areBranches, ⟨⟩⟩ :=
      accepts_record isWhen
    simp only [activateWhen, ↓tag_bind, itemAt_first, itemAt_second, field_node foundCondition,
      field_node foundBranches, pure_bind]
    split
    · contradiction
    · exact (option_gives isName).bind fun _ name => (parts.now isCondition).bind fun _ condition =>
        (each_gives areBranches fun _ => parts.now).bind fun _ branches =>
          make_gives (by simp) rfl rfl
            (.cons condition (.cons branches (.cons isLeft (.cons name .nil))))

theorem equation_gives (accepted : HasOne known tree Rule.equation.shapes) :
    Gives (equation self tree) (Fits .equation) := by
  rcases accepted with accepted | accepted | accepted | ⟨⟨⟩⟩ <;>
    obtain ⟨_, _, rfl, isLeft, isRight, _, ⟨⟩⟩ := accepts_case accepted <;>
    simp only [equation, ↓tag_bind, itemAt_first, itemAt_second, pure_bind] <;>
    refine (parts.now isLeft).bind fun _ left => ?_
  · exact (parts.later isRight).bind fun _ expr =>
      make_gives (by simp) rfl rfl (.cons left (.cons expr .nil))
  · obtain ⟨_, _, _, rfl, isName, areItems, ⟨⟩⟩ := accepts_tuple isRight
    simp only [machine, itemAt_first, itemAt_second, pure_bind]
    exact (option_gives isName).bind fun _ name =>
      (each_gives areItems fun _ => parts.now).bind fun _ items =>
      make_gives (by simp) rfl rfl (.cons left (.cons items (.cons name .nil)))
  · exact activation_gives parts left isRight

end SwanModel
