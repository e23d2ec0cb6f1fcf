import SwanModel.Proofs.Language.Equations

/-! # Diagrams, scopes and declarations convert -/

namespace SwanModel

open SwanModel.Convert TreeShape

variable {known : Rule → ParseTree → Bool} {tree : ParseTree} {self : Convert}
  (parts : Converts self known)
include parts

/-! ### Diagrams -/

theorem connection_gives (accepted : HasOne known tree Rule.connection.shapes) :
    Gives (connection tree) (Fits (.construct [.diagram .connection])) := by
  rcases accepted with accepted | accepted | ⟨⟨⟩⟩
  · obtain ⟨_, _, rfl⟩ := tagged_one accepted
    simp only [connection, ↓tag_bind]
    exact make_gives (by simp) rfl rfl (.cons (.left .absent) (.cons (.left .absent) .nil))
  · obtain ⟨tag, _, _, rfl, different, isPort, isAdaptation, ⟨⟩⟩ := accepts_other accepted
    simp only [connection, ↓tag_bind, itemAt_first, itemAt_second, pure_bind]
    split
    · contradiction
    · exact (parts.now isPort).bind fun _ port =>
        (optional_gives isAdaptation fun _ => parts.now).bind fun _ adaptation =>
        make_gives (by simp) rfl rfl (.cons (.right port) (.cons adaptation .nil))

omit parts in
theorem groupOperation_gives {tags : List String} (tagged : tree.isTagged tags = true) :
    Gives (groupOperation tree) (Fits (.constant "GroupOperation")) := by
  unfold ParseTree.isTagged at tagged
  split at tagged
  · simp only [groupOperation, ↓tag_bind]
    split
    · exact .pure (.constant (.groupOperation .byName))
    · exact .pure (.constant (.groupOperation .byPos))
    · exact .pure (.constant (.groupOperation .noOp))
    · exact .pure (.constant (.groupOperation .normalize))
  · cases tagged

theorem described_gives {luid locals : Term} (isLuid : Fits (.maybe .luid) luid)
    (areLocals : Fits (.list .object) locals)
    (accepted : Grammar.description.accepts known tree = true) :
    Gives (described self luid locals tree) (Fits .object) := by
  rcases accepts_oneOf accepted with
      accepted | accepted | accepted | accepted | accepted | accepted | accepted | accepted | ⟨⟨⟩⟩ <;>
    obtain ⟨_, _, rfl, isFirst, items⟩ := accepts_case accepted
  · cases items
    simp only [described, ↓tag_bind, item_node, pure_bind]
    exact (parts.now isFirst).bind fun _ expr =>
      make_gives (by simp) rfl rfl (.cons expr (.cons isLuid (.cons areLocals .nil)))
  · obtain ⟨_, ⟨⟩⟩ := items
    simp only [described, ↓tag_bind, itemAt_first, pure_bind]
    exact (parts.now isFirst).bind fun _ left =>
      make_gives (by simp) rfl rfl (.cons (.left left) (.cons isLuid (.cons areLocals .nil)))
  · cases items
    simp only [described, ↓tag_bind, item_node, pure_bind]
    exact (protectedItem_gives isFirst).bind fun _ text =>
      make_gives (by simp) rfl rfl (.cons (.right text) (.cons isLuid (.cons areLocals .nil)))
  · cases items
    simp only [described, ↓tag_bind, item_node, pure_bind]
    exact (protectedItem_gives isFirst).bind fun _ text =>
      make_gives (by simp) rfl rfl
        (.cons (.right text) (.cons (.left .absent) (.cons isLuid (.cons areLocals .nil))))
  · obtain ⟨_, ⟨⟩⟩ := items
    simp only [described, ↓tag_bind, itemAt_first, pure_bind]
    exact (blockParts_give parts isFirst).bind fun _ fits =>
      make_gives (by simp) rfl rfl
        (.cons (.left fits.1) (.cons fits.2 (.cons isLuid (.cons areLocals .nil))))
  · obtain ⟨areTargets, ⟨⟩⟩ := items
    simp only [described, ↓tag_bind, itemAt_first, itemAt_second, pure_bind]
    exact (parts.now isFirst).bind fun _ source =>
      (each_gives areTargets fun _ => parts.now).bind fun _ targets =>
      make_gives (by simp) rfl rfl (.cons source (.cons targets (.cons isLuid (.cons areLocals .nil))))
  · obtain ⟨_, ⟨⟩⟩ := items
    simp only [described, ↓tag_bind, itemAt_first, pure_bind]
    exact (groupOperation_gives isFirst).bind fun _ operation =>
      make_gives (by simp) rfl rfl (.cons operation (.cons isLuid (.cons areLocals .nil)))
  · cases items
    simp only [described, ↓tag_bind, item_node, pure_bind]
    exact (parts.later isFirst).bind fun _ content =>
      make_gives (by simp) rfl rfl (.cons content (.cons isLuid (.cons areLocals .nil)))

theorem object_gives (accepted : HasOne known tree Rule.object.shapes) :
    Gives (object self tree) (Fits .object) := by
  obtain ⟨_, _, _, rfl, foundLuid, isLuid, foundLocals, areLocals, found, isDescription, ⟨⟩⟩ :=
    accepts_record accepted.only
  simp only [object, field_node foundLuid, field_node foundLocals, field_node found, pure_bind]
  exact (optional_gives isLuid fun _ => parts.now).bind fun _ luid =>
    (each_gives areLocals fun _ => parts.later).bind fun _ locals =>
      described_gives parts luid locals isDescription

/-! ### Scopes -/

theorem emission_gives (accepted : HasOne known tree Rule.emission.shapes) :
    Gives (emission self tree) (Fits (.construct [.scope .emission])) := by
  obtain ⟨_, _, _, rfl, foundFlows, areFlows, foundCondition, isCondition, ⟨⟩⟩ :=
    accepts_record accepted.only
  simp only [emission, field_node foundFlows, field_node foundCondition, pure_bind]
  exact (each_gives areFlows fun _ => nameIdentifier_gives).bind fun _ flows =>
    (optional_gives isCondition fun _ => parts.later).bind fun _ condition =>
      make_gives (by simp) rfl rfl (.cons flows (.cons condition .nil))

theorem formalProperty_gives
    (accepted : (TreeShape.record [("VTag", .construct .identifier),
      ("VExpr", .construct .expr)]).accepts known tree = true) :
    Gives (formalProperty self tree) (Fits (.construct [.scope .property])) := by
  obtain ⟨_, _, _, rfl, foundId, isId, foundExpr, isExpr, ⟨⟩⟩ := accepts_record accepted
  simp only [formalProperty, field_node foundId, field_node foundExpr, pure_bind]
  exact (parts.now isId).bind fun _ id => (parts.later isExpr).bind fun _ expr =>
    make_gives (by simp) rfl rfl (.cons id (.cons expr .nil))

theorem scopeSection_gives (accepted : HasOne known tree Rule.scopeSection.shapes) :
    Gives (scopeSection self tree) (Fits .scopeSection) := by
  rcases accepted with accepted | accepted | accepted | accepted | accepted | accepted | ⟨⟨⟩⟩ <;>
    obtain ⟨_, _, rfl, isFirst, items⟩ := accepts_case accepted
  · obtain ⟨_, ⟨⟩⟩ := items
    simp only [scopeSection, ↓tag_bind, itemAt_first, pure_bind]
    exact (each_gives isFirst fun _ => parts.now).bind fun _ emissions =>
      make_gives (by simp) rfl rfl (.cons emissions .nil)
  · obtain ⟨_, ⟨⟩⟩ := items
    simp only [scopeSection, ↓tag_bind, itemAt_first, pure_bind]
    exact (each_gives isFirst fun _ => formalProperty_gives parts).bind fun _ properties =>
      make_gives (by simp) rfl rfl (.cons properties .nil)
  · obtain ⟨_, ⟨⟩⟩ := items
    simp only [scopeSection, ↓tag_bind, itemAt_first, pure_bind]
    exact (each_gives isFirst fun _ => formalProperty_gives parts).bind fun _ properties =>
      make_gives (by simp) rfl rfl (.cons properties .nil)
  · cases items
    simp only [scopeSection, ↓tag_bind, item_node, pure_bind]
    exact (each_gives isFirst fun _ => parts.later).bind fun _ flows =>
      make_gives (by simp) rfl rfl (.cons flows .nil)
  · obtain ⟨areEquations, _, ⟨⟩⟩ := items
    simp only [scopeSection, ↓tag_bind, itemAt_second, pure_bind]
    exact (each_gives areEquations fun _ => parts.later).bind fun _ equations =>
      make_gives (by simp) rfl rfl (.cons equations .nil)
  · cases items
    obtain ⟨_, _, _, rfl, found, areObjects, ⟨⟩⟩ := accepts_record isFirst
    simp only [scopeSection, ↓tag_bind, item_node, field_node found, pure_bind]
    exact (each_gives areObjects fun _ => parts.later).bind fun _ objects =>
      make_gives (by simp) rfl rfl (.cons objects .nil)

theorem scope_gives (accepted : HasOne known tree Rule.scope.shapes) :
    Gives (scope self tree) (Yields .scope tree) := by
  rcases accepted with accepted | accepted | accepted | ⟨⟨⟩⟩ <;> obtain ⟨_, _, rfl, items⟩ :=
    accepts_case accepted
  · simp only [scope, ↓tag_bind]
    exact .pure rfl
  · obtain ⟨isEquation, ⟨⟩⟩ := items
    simp only [scope, ↓tag_bind, item_node, pure_bind]
    exact (parts.later isEquation).weaken fun _ equation => .left equation
  · obtain ⟨areSections, _, ⟨⟩⟩ := items
    simp only [scope, ↓tag_bind, itemAt_first, pure_bind]
    refine (each_gives areSections fun _ => parts.later).bind fun _ sections => ?_
    have made : Gives (make (.scope .scope) [_]) (Fits (.construct [.scope .scope])) :=
      make_gives (by simp) rfl rfl (.cons sections .nil)
    exact made.weaken fun _ scope => .right scope

/-! ### Headings of operators -/

theorem flow_gives (accepted : HasOne known tree Rule.flow.shapes) :
    Gives (flow self tree) (Fits .flow) := by
  rcases accepted with accepted | accepted | ⟨⟨⟩⟩
  · obtain ⟨_, _, rfl, isText, ⟨⟩⟩ := accepts_case accepted
    simp only [flow, ↓tag_bind, item_node, pure_bind]
    exact (protectedText_gives isText).bind fun _ text => make_gives (by simp) rfl rfl (.cons text .nil)
  · obtain ⟨tag, _, _, rfl, different, isDecl, _, ⟨⟩⟩ := accepts_other accepted
    obtain ⟨_, _, _, rfl, foundId, isId, foundClock, isClock, foundProbe, isProbe, foundSort,
      isSort, foundRate, isRate, foundFallback, isFallback, foundLast, isLast, ⟨⟩⟩ :=
        accepts_record isDecl
    simp only [flow, ↓tag_bind, itemAt_first, field_node foundId, field_node foundClock,
      field_node foundProbe, field_node foundSort, field_node foundRate, field_node foundFallback,
      field_node foundLast, pure_bind]
    split
    · contradiction
    · exact (parts.now isId).bind fun _ id =>
        (optional_gives isSort fun _ => parts.now).bind fun _ sort =>
        (optional_gives isRate fun _ => parts.now).bind fun _ rate =>
          (optional_gives isFallback fun _ => parts.later).bind fun _ fallback =>
            (optional_gives isLast fun _ => parts.later).bind fun _ last =>
              make_gives (by simp) rfl rfl
                (.cons id (.cons (ofTree_flag isClock) (.cons (ofTree_flag isProbe)
                  (.cons sort (.cons rate (.cons fallback (.cons last .nil)))))))

theorem constraint_gives (accepted : HasOne known tree Rule.constraint.shapes) :
    Gives (constraint self tree) (Fits (.decl .typeConstraint)) := by
  rcases accepted with accepted | accepted | ⟨⟨⟩⟩
  · obtain ⟨_, _, rfl, isText, isKind, ⟨⟩⟩ := accepts_case accepted
    simp only [constraint, ↓tag_bind, itemAt_first, itemAt_second, pure_bind]
    exact (parts.now isKind).bind fun _ kind => (protectedText_gives isText).bind fun _ text =>
      make_gives (by simp) rfl rfl (.cons (.left text) (.cons kind .nil))
  · obtain ⟨tag, _, _, rfl, different, areTypes, isKind, ⟨⟩⟩ := accepts_other accepted
    simp only [constraint, ↓tag_bind, itemAt_first, itemAt_second, pure_bind]
    refine (parts.now isKind).bind fun _ kind => ?_
    split
    · contradiction
    · exact (each_gives areTypes fun _ => parts.later).bind fun _ types =>
        make_gives (by simp) rfl rfl (.cons (.right types) (.cons kind .nil))

theorem signatureParts_give {tag : Option String} {items : List ParseTree}
    {fields : List (String × ParseTree)} (heading : HasFields known fields Grammar.heading) :
    Gives (signatureParts self (.node tag items fields)) SignatureParts.WellFormed := by
  obtain ⟨foundNode, isNode, foundId, isId, foundInputs, areInputs, foundOutputs, areOutputs, foundSizes,
    areSizes, foundConstraints, areConstraints, foundGeneral, isGeneral, foundMarks, areMarks,
    ⟨⟩⟩ := heading
  simp only [signatureParts, field_node foundNode, field_node foundId, field_node foundInputs,
    field_node foundOutputs, field_node foundSizes, field_node foundConstraints,
    field_node foundGeneral, field_node foundMarks, pure_bind]
  refine (locatedText_gives isId).bind fun _ ⟨s, same⟩ => ?_
  subst same
  refine (identifier_gives s false).bind fun _ id => ?_
  refine (each_gives areInputs fun _ => parts.now).bind fun _ inputs => ?_
  refine (each_gives areOutputs fun _ => parts.now).bind fun _ outputs => ?_
  refine (each_gives areSizes fun _ => parts.now).bind fun _ sizes => ?_
  refine (each_gives areConstraints fun _ => parts.now).bind fun _ constraints => ?_
  refine (optional_gives isGeneral fun _ => parts.now).bind fun _ general => ?_
  refine (pragmas_give areMarks).bind fun _ marks => .pure ?_
  exact .cons id (.cons (ofTree_flag isNode) (.cons inputs (.cons outputs (.cons sizes (.cons constraints
    (.cons general (.cons marks .nil)))))))

theorem signature_gives (accepted : HasOne known tree Rule.signature.shapes) :
    Gives (signature self tree) (Fits (.decl .signature)) := by
  obtain ⟨_, _, _, rfl, heading⟩ := accepts_record accepted.only
  exact (signatureParts_give parts heading).bind fun p whole => make_gives (by simp) rfl rfl whole

omit parts in
theorem operator_build {p : SignatureParts} (whole : p.WellFormed) (body : Term) :
    (Form.decl .operator).build
      [p.id, p.isNode, p.inputs, p.outputs, body, p.sizes, p.constraints, p.specialization, p.pragmas] =
      .ok (p.operator body) := by
  obtain ⟨_, _, _, _, areSizes, areConstraints, _, areMarks, ⟨⟩⟩ := whole
  obtain ⟨sizes, isSizes, _⟩ := areSizes.eq_list
  obtain ⟨constraints, isConstraints, _⟩ := areConstraints.eq_list
  obtain ⟨marks, isMarks, _⟩ := areMarks.eq_list
  rw [SignatureParts.operator, isSizes, isConstraints, isMarks]
  cases sizes <;> cases constraints <;> cases marks <;> rfl

theorem userOperator_gives (accepted : HasOne known tree Rule.userOperator.shapes) :
    Gives (userOperator self tree) (IsOperator tree) := by
  obtain ⟨_, _, _, rfl, _, _, heading⟩ := accepts_record accepted.only
  refine (signatureParts_give parts heading).bind fun p whole => ?_
  rw [make, operator_build whole]
  exact .pure ⟨p, whole, rfl⟩

/-! ### Declarations -/

theorem constant_gives (accepted : HasOne known tree Rule.constant.shapes) :
    Gives (constant self tree) (Fits (.decl .constant)) := by
  obtain ⟨_, _, _, rfl, foundId, isId, foundSort, isSort, foundValue, isValue, ⟨⟩⟩ :=
    accepts_record accepted.only
  simp only [constant, field_node foundId, field_node foundSort, field_node foundValue, pure_bind]
  exact (parts.now isId).bind fun _ id =>
    (optional_gives isValue fun _ => parts.later).bind fun _ value =>
    (parts.later isSort).bind fun _ sort =>
      make_gives (by simp) rfl rfl (.cons id (.cons sort (.cons value .nil)))

theorem sensor_gives (accepted : HasOne known tree Rule.sensor.shapes) :
    Gives (sensor self tree) (Fits (.decl .sensor)) := by
  obtain ⟨_, _, _, rfl, foundId, isId, foundSort, isSort, ⟨⟩⟩ := accepts_record accepted.only
  simp only [sensor, field_node foundId, field_node foundSort, pure_bind]
  exact (parts.now isId).bind fun _ id => (parts.later isSort).bind fun _ sort =>
    make_gives (by simp) rfl rfl (.cons id (.cons sort .nil))

theorem groupDecl_gives (accepted : HasOne known tree Rule.groupDecl.shapes) :
    Gives (groupDecl self tree) (Fits (.decl .group)) := by
  obtain ⟨_, _, _, rfl, foundId, isId, foundSort, isSort, ⟨⟩⟩ := accepts_record accepted.only
  simp only [groupDecl, field_node foundId, field_node foundSort, pure_bind]
  exact (parts.now isId).bind fun _ id => (parts.now isSort).bind fun _ sort =>
    make_gives (by simp) rfl rfl (.cons id (.cons sort .nil))

theorem use_gives (accepted : HasOne known tree Rule.use.shapes) :
    Gives (use tree) (Fits (.construct [.module .use])) := by
  obtain ⟨_, _, _, rfl, foundPath, isPath, foundName, isName, ⟨⟩⟩ := accepts_record accepted.only
  simp only [use, field_node foundPath, field_node foundName, pure_bind]
  exact (parts.now isPath).bind fun _ path =>
    (optional_gives isName fun _ => parts.now).bind fun _ name =>
    make_gives (by simp) rfl rfl (.cons path (.cons name .nil))

theorem typeDecl_gives (accepted : HasOne known tree Rule.typeDecl.shapes) :
    Gives (typeDecl self tree) (Fits (.decl .type)) := by
  obtain ⟨_, _, _, rfl, foundId, isId, found, isDefinition, ⟨⟩⟩ := accepts_record accepted.only
  simp only [typeDecl, field_node foundId, field_node found, pure_bind]
  refine (parts.now isId).bind fun _ id => ?_
  have finish {definition : Term} (fits : Fits (.maybe .definition) definition) :
      Gives (make (.decl .type) [_, definition]) (Fits (.decl .type)) :=
    make_gives (by simp) rfl rfl (.cons id (.cons fits .nil))
  rcases accepts_oneOf isDefinition with accepted | accepted | accepted | accepted | ⟨⟨⟩⟩ <;>
    obtain ⟨_, _, rfl, items⟩ := accepts_case accepted
  · simp only [↓tag_bind]
    exact finish (.left .absent)
  · obtain ⟨isType, ⟨⟩⟩ := items
    simp only [↓tag_bind, item_node, pure_bind]
    exact (parts.later isType).bind fun _ type => finish (.right (.left type))
  · obtain ⟨areTags, ⟨⟩⟩ := items
    simp only [↓tag_bind, item_node, pure_bind]
    refine (each_gives areTags fun _ => parts.now).bind fun _ tags => ?_
    have made : Gives (make (.type .enumeration) [_])
        (Fits (.construct [.type .enumeration, .type .variants])) :=
      make_gives (by simp) rfl rfl (.cons tags .nil)
    exact made.bind fun _ enumeration => finish (.right (.right enumeration))
  · obtain ⟨areCases, ⟨⟩⟩ := items
    simp only [↓tag_bind, item_node, pure_bind]
    refine (each_gives areCases fun _ => variantCase_gives parts).bind fun _ cases => ?_
    have made : Gives (make (.type .variants) [_])
        (Fits (.construct [.type .enumeration, .type .variants])) :=
      make_gives (by simp) rfl rfl (.cons cases .nil)
    exact made.bind fun _ variants => finish (.right (.right variants))

omit parts in
theorem protectedDeclaration_gives (self : Convert) (isText : tree.isProtected ["text"] = true) :
    Gives (protectedDeclaration self tree) (Fits .declaration) := by
  refine (markup_gives isText).bind fun _ ⟨mark, same, kept⟩ => ?_
  subst same
  refine (protectedText_gives isText).bind fun _ text => ?_
  split
  · rename_i same
    exact absurd (Term.text.inj same) (by simpa using kept)
  · exact make_gives (by simp) rfl rfl (.cons (.text mark) (.cons text .nil))

omit parts in
theorem hasPart_operator (operator : ParseTree) (fields : List (String × ParseTree)) :
    HasPart (.declaration, .node (some "DOperator") [operator] fields) (.userOperator, operator) := by
  intro known accepted
  have shapes : Rule.declaration.shapes = Grammar.declarationShapes := rfl
  simpa [shapes, Grammar.declarationShapes, TreeShape.accepts, TreeShape.acceptsItems] using accepted

omit parts in
theorem Gives.declared {x : Conversion Term} (gives : Gives x (Fits .declaration)) :
    Gives x (Yields .declaration tree) :=
  gives.weaken fun _ => .inl

theorem declaration_gives (accepted : HasOne known tree Rule.declaration.shapes) :
    Gives (declaration self tree) (Yields .declaration tree) := by
  rcases accepted with
      accepted | accepted | accepted | accepted | accepted | accepted | accepted | accepted | ⟨⟨⟩⟩ <;>
    obtain ⟨_, _, rfl, isFirst, items⟩ := accepts_case accepted
  · obtain ⟨_, ⟨⟩⟩ := items
    simp only [declaration, ↓tag_bind, itemAt_first, pure_bind]
    exact .declared <| (each_gives isFirst fun _ => parts.now).bind fun _ constants =>
      make_gives (by simp) rfl rfl (.cons constants .nil)
  · obtain ⟨_, ⟨⟩⟩ := items
    simp only [declaration, ↓tag_bind, itemAt_first, pure_bind]
    exact .declared <| (each_gives isFirst fun _ => parts.now).bind fun _ groups =>
      make_gives (by simp) rfl rfl (.cons groups .nil)
  · cases items
    simp only [declaration, ↓tag_bind, item_node, pure_bind]
    exact (parts.now isFirst).weaken fun _ operator => .inr ⟨_, hasPart_operator _ _, operator⟩
  · cases items
    simp only [declaration, ↓tag_bind, item_node, pure_bind]
    exact .declared (protectedDeclaration_gives self isFirst)
  · obtain ⟨_, ⟨⟩⟩ := items
    simp only [declaration, ↓tag_bind, itemAt_first, pure_bind]
    exact .declared <| (each_gives isFirst fun _ => parts.now).bind fun _ sensors =>
      make_gives (by simp) rfl rfl (.cons sensors .nil)
  · cases items
    simp only [declaration, ↓tag_bind, item_node, pure_bind]
    exact .declared <| (parts.now isFirst).weaken fun _ signature => Fits.widen signature (by decide)
  · obtain ⟨_, ⟨⟩⟩ := items
    simp only [declaration, ↓tag_bind, itemAt_first, pure_bind]
    exact .declared <| (each_gives isFirst fun _ => parts.now).bind fun _ types =>
      make_gives (by simp) rfl rfl (.cons types .nil)
  · obtain ⟨_, ⟨⟩⟩ := items
    simp only [declaration, ↓tag_bind, itemAt_first, pure_bind]
    exact .declared <| (parts.now isFirst).weaken fun _ use => Fits.widen use (by decide)

/-! ### Every rule -/

/-- What a rule describes, its converter gives, if the converters of parts do. -/
theorem step_gives {rule : Rule} (accepted : HasOne known tree rule.shapes) :
    Gives (Convert.step self rule tree) (Yields rule tree) := by
  cases rule with
  | identifier => exact identifier_name accepted.only
  | path => exact path_gives parts accepted
  | pathOrText => exact pathOrText_gives parts accepted
  | luid => exact luid_located accepted.only
  | protectedItem => exact protectedItem_gives accepted.only
  | identification => exact identification_gives accepted.only
  | predefinedType => exact constantOf_gives (by decide) accepted.only
  | numericKind => exact constantOf_gives (by decide) accepted.only
  | unaryOp => exact constantOf_gives (by decide) accepted.only
  | binaryOp => exact constantOf_gives (by decide) accepted.only
  | type => exact type_gives parts accepted
  | typeOrText => exact typeOrText_gives parts accepted
  | groupType => exact groupType_gives parts accepted
  | exprOrText => exact exprOrText_gives parts accepted
  | expr => exact expr_gives parts accepted
  | labelOrIndex => exact labelOrIndex_gives parts accepted
  | groupItem => exact groupItem_gives parts accepted
  | group => exact group_gives parts accepted
  | modifier => exact modifier_gives parts accepted
  | pattern => exact pattern_gives parts accepted
  | groupRenaming => exact groupRenaming_gives parts accepted
  | adaptation => exact adaptation_gives parts accepted
  | clock => exact clock_gives parts accepted
  | port => exact port_gives parts accepted
  | operator => exact operator_gives parts accepted
  | locatedOperatorExpr => exact locatedOperatorExpr_gives parts accepted
  | operatorExpr => exact operatorExpr_gives parts accepted
  | optionalItem => exact optionalItem_gives parts accepted
  | leftItem => exact leftItem_gives parts accepted
  | left => exact left_gives parts accepted
  | equation => exact equation_gives parts accepted
  | ifActivation => exact ifActivation_gives parts accepted
  | branch => exact branch_gives parts accepted
  | activationBranch => exact activationBranch_gives parts accepted
  | whenBranch => exact whenBranch_gives parts accepted
  | machineItem => exact machineItem_gives parts accepted
  | arrow => exact arrow_gives parts accepted
  | priorityFork => exact priorityFork_gives parts accepted
  | stateBody => exact stateBody_gives parts accepted
  | connection => exact connection_gives parts accepted
  | object => exact object_gives parts accepted
  | emission => exact emission_gives parts accepted
  | scopeSection => exact scopeSection_gives parts accepted
  | scope => exact scope_gives parts accepted
  | flow => exact flow_gives parts accepted
  | constraint => exact constraint_gives parts accepted
  | signature => exact signature_gives parts accepted
  | userOperator => exact userOperator_gives parts accepted
  | constant => exact constant_gives parts accepted
  | sensor => exact sensor_gives parts accepted
  | typeDecl => exact typeDecl_gives parts accepted
  | groupDecl => exact groupDecl_gives parts accepted
  | use => exact use_gives parts accepted
  | declaration => exact declaration_gives parts accepted
  | _ => cases accepted

end SwanModel
