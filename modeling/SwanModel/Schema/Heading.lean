import SwanModel.Syntax.Term

/-!
# Names and parameters of constructs

`Form.heading` gives the name of a construct, the unit of the language that it belongs to, and its
parameters in order.
-/

namespace SwanModel

/-- Name of a construct, its unit and its parameters. -/
structure Heading where
  name : String
  unit : String
  parameters : List (String × Option Term)

namespace Heading

def needed (name : String) : String × Option Term := (name, none)

def optional (name : String) (value : Term) : String × Option Term := (name, some value)

end Heading

open Heading

def NameForm.heading : NameForm → Heading
  | .item => ⟨"SwanItem", "common", []⟩
  | .identifier => ⟨"Identifier", "common",
    [needed "value", optional "pragmas" .absent, optional "comment" .absent,
      optional "is_name" (.truth false)]⟩
  | .path => ⟨"PathIdentifier", "common", [needed "path_id"]⟩
  | .luid => ⟨"Luid", "common", [needed "luid"]⟩
  | .declaration => ⟨"Declaration", "common", [needed "id"]⟩
  | .verbatim => ⟨"ProtectedItem", "common", [needed "data", optional "markup" (.text "syntax")]⟩

def TypeForm.heading : TypeForm → Heading
  | .bare => ⟨"TypeExpression", "common", []⟩
  | .typeVariable => ⟨"VariableTypeExpression", "typedecl", [needed "var"]⟩
  | .predefined => ⟨"PredefinedTypeExpr", "typedecl", [needed "predef"]⟩
  | .sized => ⟨"SizedTypeExpression", "typedecl", [needed "size", needed "is_signed"]⟩
  | .named => ⟨"AliasTypeExpression", "typedecl", [needed "path"]⟩
  | .field => ⟨"StructField", "typedecl", [needed "field_id", needed "field_type"]⟩
  | .struct => ⟨"StructTypeExpression", "typedecl", [needed "fields"]⟩
  | .array => ⟨"ArrayTypeExpression", "typedecl", [needed "array_type", needed "array_size"]⟩
  | .verbatim => ⟨"ProtectedTypeExpr", "typedecl", [needed "value"]⟩
  | .definition => ⟨"TypeDefinition", "typedecl", []⟩
  | .exprDefinition => ⟨"ExprTypeDefinition", "typedecl", [needed "type_expr"]⟩
  | .enumeration => ⟨"EnumTypeDefinition", "typedecl", [needed "tags"]⟩
  | .variantCase => ⟨"VariantTypeExpr", "typedecl", [needed "tag", optional "type_expr" .absent]⟩
  | .variants => ⟨"VariantTypeDefinition", "typedecl", [needed "tags"]⟩
  | .groupBare => ⟨"GroupTypeExpression", "common", []⟩
  | .groupType => ⟨"TypeGroupTypeExpression", "groupdecl", [needed "type_expr"]⟩
  | .groupNamed => ⟨"NamedGroupTypeExpression", "groupdecl",
    [needed "group_label", needed "group_type_expr"]⟩
  | .groupList => ⟨"GroupTypeExpressionList", "groupdecl", [needed "positional", needed "named"]⟩

def PatternForm.heading : PatternForm → Heading
  | .bare => ⟨"Pattern", "expressions", []⟩
  | .path => ⟨"PathIdPattern", "expressions", [needed "path_id"]⟩
  | .variant => ⟨"VariantPattern", "expressions",
    [needed "path_id", optional "captured" .absent, optional "underscore" (.truth false)]⟩
  | .char => ⟨"CharPattern", "expressions", [needed "value"]⟩
  | .int => ⟨"IntPattern", "expressions", [needed "int_value", optional "minus" (.truth false)]⟩
  | .bool => ⟨"BoolPattern", "expressions", [needed "value"]⟩
  | .underscore => ⟨"UnderscorePattern", "expressions", []⟩
  | .otherwise => ⟨"DefaultPattern", "expressions", []⟩
  | .verbatim => ⟨"ProtectedPattern", "expressions", [needed "value"]⟩

def ExprForm.heading : ExprForm → Heading
  | .bare => ⟨"Expression", "common", []⟩
  | .path => ⟨"PathIdExpr", "expressions", [needed "path"]⟩
  | .last => ⟨"LastExpr", "expressions", [needed "id"]⟩
  | .literal => ⟨"LiteralExpr", "expressions", [needed "value", needed "kind"]⟩
  | .port => ⟨"PortExpr", "expressions", [optional "luid" .absent]⟩
  | .unary => ⟨"UnaryExpr", "expressions", [needed "operator", needed "expr"]⟩
  | .binary => ⟨"BinaryExpr", "expressions", [needed "operator", needed "left", needed "right"]⟩
  | .whenClock => ⟨"WhenClockExpr", "expressions", [needed "expr", needed "clock_expr"]⟩
  | .whenMatch => ⟨"WhenMatchExpr", "expressions", [needed "expr", needed "when"]⟩
  | .conversion => ⟨"CastExpr", "expressions", [needed "expr", needed "type"]⟩
  | .group => ⟨"GroupExpr", "expressions", [needed "group"]⟩
  | .adapted => ⟨"GroupAdaptationExpr", "expressions", [needed "expr", needed "adaptation"]⟩
  | .arrayProjection => ⟨"StaticArrayProjExpr", "expressions", [needed "expr", needed "index"]⟩
  | .structProjection => ⟨"StructProjExpr", "expressions", [needed "expr", needed "label"]⟩
  | .makeGroup => ⟨"MkGroupExpr", "expressions", [needed "group_type", needed "expr"]⟩
  | .slice => ⟨"SliceExpr", "expressions",
    [needed "expr", needed "start_index", needed "end_index"]⟩
  | .dynamicProjection => ⟨"DynProjExpr", "expressions",
    [needed "expr", needed "indices", needed "default"]⟩
  | .makeArray => ⟨"MkArrayExpr", "expressions", [needed "expr", needed "size"]⟩
  | .arrayOfGroup => ⟨"MkArrayGroupExpr", "expressions", [needed "group"]⟩
  | .makeStruct => ⟨"MkStructExpr", "expressions",
    [needed "group", optional "struct_type" .absent]⟩
  | .variant => ⟨"VariantExpr", "expressions", [needed "tag", needed "group"]⟩
  | .makeCopy => ⟨"MkCopyExpr", "expressions", [needed "expr", needed "modifiers"]⟩
  | .conditional => ⟨"IfteExpr", "expressions",
    [needed "cond_expr", needed "then_expr", needed "else_expr"]⟩
  | .caseOf => ⟨"CaseExpr", "expressions", [needed "expr", needed "branches"]⟩
  | .window => ⟨"WindowExpr", "expressions", [needed "size", needed "params", needed "init"]⟩
  | .merge => ⟨"MergeExpr", "expressions", [needed "params"]⟩
  | .verbatim => ⟨"ProtectedExpr", "expressions", [needed "value"]⟩
  | .forward => ⟨"ForwardExpr", "forward",
    [needed "state", needed "dimensions", needed "body", needed "returns",
      optional "luid" .absent]⟩
  | .operation => ⟨"OperatorInstance", "instances",
    [needed "operator", needed "params", optional "luid" .absent]⟩

def PartForm.heading : PartForm → Heading
  | .clock => ⟨"ClockExpr", "expressions",
    [needed "id", optional "is_not" (.truth false), optional "pattern" .absent]⟩
  | .groupItem => ⟨"GroupItem", "expressions", [needed "expr", optional "label" .absent]⟩
  | .group => ⟨"Group", "expressions", [needed "items"]⟩
  | .groupRenaming => ⟨"GroupRenaming", "expressions",
    [needed "source", optional "renaming" .absent, optional "is_shortcut" (.truth false)]⟩
  | .adaptation => ⟨"GroupAdaptation", "expressions", [needed "renamings"]⟩
  | .labelOrIndex => ⟨"LabelOrIndex", "expressions", [needed "index_or_label"]⟩
  | .modifier => ⟨"Modifier", "expressions", [needed "modifier", needed "expr"]⟩
  | .caseBranch => ⟨"CaseBranch", "expressions", [needed "pattern", needed "expr"]⟩

def OperatorForm.heading : OperatorForm → Heading
  | .bare => ⟨"Operator", "instances", [needed "sizes"]⟩
  | .bareExpression => ⟨"OperatorExpression", "instances", []⟩
  | .path => ⟨"PathIdOpCall", "instances", [needed "path_id", needed "sizes", needed "pragmas"]⟩
  | .primitive => ⟨"PrefixPrimitive", "instances", [needed "kind", needed "sizes"]⟩
  | .transpose => ⟨"Transpose", "instances", [needed "params", needed "sizes"]⟩
  | .expression => ⟨"PrefixOperatorExpression", "instances", [needed "op_expr", needed "sizes"]⟩
  | .iterator => ⟨"Iterator", "instances", [needed "kind", needed "operator"]⟩
  | .activateClock => ⟨"ActivateClock", "instances", [needed "operator", needed "clock"]⟩
  | .activateEvery => ⟨"ActivateEvery", "instances",
    [needed "operator", needed "condition", needed "is_last", needed "expr"]⟩
  | .restart => ⟨"Restart", "instances", [needed "operator", needed "condition"]⟩
  | .optionalItem => ⟨"OptGroupItem", "instances", [optional "item" .absent]⟩
  | .partialApplication => ⟨"Partial", "instances", [needed "operator", needed "partial_group"]⟩
  | .nary => ⟨"NAryOperator", "instances", [needed "operator"]⟩
  | .lambda => ⟨"AnonymousOperatorWithExpression", "instances",
    [needed "is_node", needed "params", needed "sections", needed "expr"]⟩
  | .lambdaScope => ⟨"AnonymousOperatorWithDataDefinition", "instances",
    [needed "is_node", needed "inputs", needed "outputs", needed "data_def"]⟩
  | .verbatim => ⟨"ProtectedOpExpr", "instances", [needed "value", needed "markup"]⟩

def ForwardForm.heading : ForwardForm → Heading
  | .left => ⟨"ForwardLHS", "forward", [needed "lhs"]⟩
  | .element => ⟨"ForwardElement", "forward", [needed "lhs", needed "expr"]⟩
  | .dimension => ⟨"ForwardDim", "forward",
    [optional "expr" .absent, optional "dim_id" .absent, optional "elems" .absent,
      optional "protected" .absent]⟩
  | .lastDefault => ⟨"ForwardLastDefault", "forward",
    [optional "last" .absent, optional "default" .absent, optional "shared" .absent]⟩
  | .itemClause => ⟨"ForwardItemClause", "forward",
    [needed "id", optional "last_default" .absent]⟩
  | .arrayClause => ⟨"ForwardArrayClause", "forward", [needed "return_clause"]⟩
  | .returnBare => ⟨"ForwardReturnItem", "forward", []⟩
  | .returnItem => ⟨"ForwardReturnItemClause", "forward", [needed "item_clause"]⟩
  | .returnArray => ⟨"ForwardReturnArrayClause", "forward",
    [needed "array_clause", optional "ret_id" .absent]⟩
  | .returnVerbatim => ⟨"ProtectedForwardReturnItem", "forward", [needed "data"]⟩
  | .body => ⟨"ForwardBody", "forward",
    [needed "body", optional "unless_expr" .absent, optional "until_expr" .absent]⟩

def EquationForm.heading : EquationForm → Heading
  | .bare => ⟨"Equation", "common", []⟩
  | .left => ⟨"EquationLHS", "equations",
    [needed "lhs_items", optional "is_partial_lhs" (.truth false)]⟩
  | .leftItem => ⟨"LHSItem", "equations", [optional "id" .absent]⟩
  | .expression => ⟨"ExprEquation", "equations", [needed "lhs", needed "expr"]⟩
  | .byCase => ⟨"DefByCase", "equations", [optional "lhs" .absent, optional "name" .absent]⟩
  | .machineItem => ⟨"StateMachineItem", "equations", []⟩
  | .identification => ⟨"Identification", "equations",
    [optional "luid" .absent, optional "id" .absent]⟩
  | .fork => ⟨"Fork", "equations", []⟩
  | .target => ⟨"Target", "equations", [needed "target", optional "is_resume" (.truth false)]⟩
  | .arrow => ⟨"Arrow", "equations", [needed "guard", needed "action", needed "target"]⟩
  | .forkTree => ⟨"ForkTree", "equations",
    [needed "if_arrow", optional "elsif_arrows" .absent, optional "else_arrow" .absent]⟩
  | .priorityFork => ⟨"ForkWithPriority", "equations",
    [needed "priority", needed "arrow", needed "is_if_arrow"]⟩
  | .priorityForks => ⟨"ForkPriorityList", "equations", [needed "fork_with_prio_list"]⟩
  | .transition => ⟨"Transition", "equations", [needed "arrow"]⟩
  | .transitionDecl => ⟨"TransitionDecl", "equations",
    [needed "priority", needed "transition", needed "is_strong", needed "id"]⟩
  | .state => ⟨"State", "equations",
    [needed "identification", optional "strong_transitions" .absent, optional "sections" .absent,
      optional "weak_transitions" .absent, optional "is_initial" (.truth false)]⟩
  | .machine => ⟨"StateMachine", "equations",
    [optional "lhs" .absent, optional "items" .absent, optional "name" .absent]⟩
  | .branch => ⟨"IfteBranch", "equations", []⟩
  | .ifBranch => ⟨"IfActivationBranch", "equations", [needed "condition", needed "branch"]⟩
  | .ifActivation => ⟨"IfActivation", "equations", [needed "branches"]⟩
  | .branchScope => ⟨"IfteDataDef", "equations", [needed "data_def"]⟩
  | .branchIf => ⟨"IfteIfActivation", "equations", [needed "if_activation"]⟩
  | .activateIf => ⟨"ActivateIf", "equations",
    [needed "if_activation", optional "lhs" .absent, optional "name" .absent]⟩
  | .whenBranch => ⟨"ActivateWhenBranch", "equations", [needed "pattern", needed "data_def"]⟩
  | .activateWhen => ⟨"ActivateWhen", "equations",
    [needed "condition", needed "branches", optional "lhs" .absent, optional "name" .absent]⟩

def DiagramForm.heading : DiagramForm → Heading
  | .object => ⟨"DiagramObject", "diagram", [optional "luid" .absent, optional "locals" .absent]⟩
  | .diagram => ⟨"Diagram", "diagram", [needed "objects"]⟩
  | .expression => ⟨"ExprDObject", "diagram",
    [needed "expr", optional "luid" .absent, optional "locals" .absent]⟩
  | .definition => ⟨"DefDObject", "diagram",
    [needed "lhs", optional "luid" .absent, optional "locals" .absent]⟩
  | .block => ⟨"BlockDObject", "diagram",
    [needed "instance", optional "instance_luid" .absent, optional "luid" .absent,
      optional "locals" .absent]⟩
  | .connection => ⟨"Connection", "diagram",
    [optional "port" .absent, optional "adaptation" .absent]⟩
  | .wire => ⟨"WireDObject", "diagram",
    [needed "source", needed "targets", optional "luid" .absent, optional "locals" .absent]⟩
  | .group => ⟨"GroupDObject", "diagram",
    [optional "operation" (.constant (.groupOperation .noOp)), optional "luid" .absent,
      optional "locals" .absent]⟩
  | .sectionObject => ⟨"SectionDObject", "diagram",
    [needed "section", optional "luid" .absent, optional "locals" .absent]⟩

def SectionForm.heading : SectionForm → Heading
  | .bare => ⟨"ScopeSection", "common", []⟩
  | .scope => ⟨"Scope", "common", [needed "scope_sections"]⟩
  | .equations => ⟨"LetSection", "scopesections", [needed "equations"]⟩
  | .variables => ⟨"VarSection", "scopesections", [needed "var_decls"]⟩
  | .emission => ⟨"EmissionBody", "scopesections", [needed "flows", optional "condition" .absent]⟩
  | .emissions => ⟨"EmitSection", "scopesections", [needed "emissions"]⟩
  | .property => ⟨"FormalProperty", "scopesections", [needed "id", needed "expr"]⟩
  | .assumptions => ⟨"AssumeSection", "scopesections", [needed "hypotheses"]⟩
  | .guarantees => ⟨"GuaranteeSection", "scopesections", [needed "guarantees"]⟩
  | .verbatim => ⟨"ProtectedSection", "scopesections", [needed "content"]⟩

def DeclForm.heading : DeclForm → Heading
  | .constant => ⟨"ConstDecl", "globals",
    [needed "id", needed "type_expr", optional "expr" .absent]⟩
  | .sensor => ⟨"SensorDecl", "globals", [needed "id", needed "type_expr"]⟩
  | .group => ⟨"GroupDecl", "groupdecl", [needed "group_id", needed "group_type_expr"]⟩
  | .type => ⟨"TypeDecl", "typedecl", [needed "id", optional "type_definition" .absent]⟩
  | .flow => ⟨"Variable", "common", []⟩
  | .flowDecl => ⟨"VarDecl", "variable",
    [needed "id", optional "is_clock" (.truth false), optional "is_probe" (.truth false),
      optional "var_type" .absent, optional "when" .absent, optional "default" .absent,
      optional "last" .absent]⟩
  | .flowVerbatim => ⟨"ProtectedVariable", "variable", [needed "value"]⟩
  | .typeConstraint => ⟨"TypeConstraint", "useroperator", [needed "types", needed "kind"]⟩
  | .signature => ⟨"Signature", "useroperator",
    [needed "id", needed "is_node", needed "inputs", needed "outputs", optional "sizes" .absent,
      optional "constraints" .absent, optional "specialization" .absent,
      optional "pragmas" .absent]⟩
  | .operator => ⟨"UserOperator", "useroperator",
    [needed "id", needed "is_node", needed "inputs", needed "outputs", needed "body",
      optional "sizes" .absent, optional "constraints" .absent,
      optional "specialization" .absent, optional "pragmas" .absent]⟩

def ModuleForm.heading : ModuleForm → Heading
  | .global => ⟨"GlobalDeclaration", "modules", []⟩
  | .types => ⟨"TypeDeclarations", "modules", [needed "decls"]⟩
  | .constants => ⟨"ConstDeclarations", "modules", [needed "decls"]⟩
  | .sensors => ⟨"SensorDeclarations", "modules", [needed "decls"]⟩
  | .groups => ⟨"GroupDeclarations", "modules", [needed "decls"]⟩
  | .use => ⟨"UseDirective", "modules", [needed "path", optional "alias" .absent]⟩
  | .verbatim => ⟨"ProtectedDecl", "modules", [needed "markup", needed "data"]⟩
  | .bare => ⟨"Module", "modules", [needed "path_id", needed "uses", needed "decls"]⟩
  | .body => ⟨"ModuleBody", "modules",
    [needed "path_id", optional "uses" .absent, optional "decls" .absent]⟩
  | .interface => ⟨"ModuleInterface", "modules",
    [needed "path_id", optional "uses" .absent, optional "decls" .absent]⟩

def Form.heading : Form → Heading
  | .name f => f.heading
  | .type f => f.heading
  | .pattern f => f.heading
  | .expr f => f.heading
  | .part f => f.heading
  | .operator f => f.heading
  | .forward f => f.heading
  | .equation f => f.heading
  | .diagram f => f.heading
  | .scope f => f.heading
  | .decl f => f.heading
  | .module f => f.heading

def Form.title (f : Form) : String := f.heading.name

def Form.all : List Form :=
  [.item, .identifier, .path, .luid, .declaration, .verbatim].map Form.name
  ++ [.bare, .typeVariable, .predefined, .sized, .named, .field, .struct, .array, .verbatim,
      .definition, .exprDefinition, .enumeration, .variantCase, .variants, .groupBare,
      .groupType, .groupNamed, .groupList].map Form.type
  ++ [.bare, .path, .variant, .char, .int, .bool, .underscore, .otherwise,
      .verbatim].map Form.pattern
  ++ [.bare, .path, .last, .literal, .port, .unary, .binary, .whenClock, .whenMatch,
      .conversion, .group, .adapted, .arrayProjection, .structProjection, .makeGroup,
      .slice, .dynamicProjection, .makeArray, .arrayOfGroup, .makeStruct, .variant,
      .makeCopy, .conditional, .caseOf, .window, .merge, .verbatim, .forward,
      .operation].map Form.expr
  ++ [.clock, .groupItem, .group, .groupRenaming, .adaptation, .labelOrIndex, .modifier,
      .caseBranch].map Form.part
  ++ [.bare, .bareExpression, .path, .primitive, .transpose, .expression, .iterator,
      .activateClock, .activateEvery, .restart, .optionalItem, .partialApplication,
      .nary, .lambda, .lambdaScope, .verbatim].map Form.operator
  ++ [.left, .element, .dimension, .lastDefault, .itemClause, .arrayClause, .returnBare,
      .returnItem, .returnArray, .returnVerbatim, .body].map Form.forward
  ++ [.bare, .left, .leftItem, .expression, .byCase, .machineItem, .identification, .fork,
      .target, .arrow, .forkTree, .priorityFork, .priorityForks, .transition,
      .transitionDecl, .state, .machine, .branch, .ifBranch, .ifActivation, .branchScope,
      .branchIf, .activateIf, .whenBranch, .activateWhen].map Form.equation
  ++ [.object, .diagram, .expression, .definition, .block, .connection, .wire, .group,
      .sectionObject].map Form.diagram
  ++ [.bare, .scope, .equations, .variables, .emission, .emissions, .property, .assumptions,
      .guarantees, .verbatim].map Form.scope
  ++ [.constant, .sensor, .group, .type, .flow, .flowDecl, .flowVerbatim, .typeConstraint,
      .signature, .operator].map Form.decl
  ++ [.global, .types, .constants, .sensors, .groups, .use, .verbatim, .bare, .body,
      .interface].map Form.module

def Form.ofName? (name : String) : Option Form := Form.all.find? (·.title == name)

end SwanModel
