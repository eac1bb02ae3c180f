/-!
# Kinds of syntax nodes

The node kinds of the Java grammar and the fields through which a node holds its children. A
named kind is a construct of the language; a token is a piece of its fixed text. Nodes of the kind
`error` stand where the parser could not go on.
-/

namespace Amend.Syntax

/-- What a syntax node is. An error that is not counted leaves the nodes above it unmarked. -/
inductive Kind where
  | identifier | decimalIntegerLiteral | hexIntegerLiteral | octalIntegerLiteral
  | binaryIntegerLiteral | decimalFloatingPointLiteral | hexFloatingPointLiteral | trueLiteral
  | falseLiteral | characterLiteral | stringFragment | escapeSequence | nullLiteral
  | underscorePattern | booleanType | voidType | thisRef | superRef | lineComment | blockComment
  | program | stringLiteral | multilineStringFragment | stringInterpolation | castExpression
  | assignmentExpression | binaryExpression | instanceofExpression | lambdaExpression
  | inferredParameters | ternaryExpression | unaryExpression | updateExpression
  | arrayCreationExpression | dimensionsExpr | parenthesizedExpression | classLiteral
  | objectCreationExpression | fieldAccess | templateExpression | arrayAccess | methodInvocation
  | argumentList | methodReference | typeArguments | wildcard | dimensions | switchExpression
  | switchBlock | switchBlockStatementGroup | switchRule | switchLabel | casePattern
  | typePattern | recordPattern | recordPatternBody | recordPatternComponent | caseGuard | block
  | expressionStatement | labeledStatement | assertStatement | doStatement | breakStatement
  | continueStatement | returnStatement | yieldStatement | synchronizedStatement
  | throwStatement | tryStatement | catchClause | catchFormalParameter | catchType
  | finallyClause | tryWithResourcesStatement | resourceSpecification | resource | ifStatement
  | whileStatement | forStatement | enhancedForStatement | annotationMark | annotationCall
  | annotationArgumentList | elementValuePair | elementValueArrayInitializer | moduleDeclaration
  | moduleBody | requiresModuleDirective | requiresModifier | exportsModuleDirective
  | opensModuleDirective | usesModuleDirective | providesModuleDirective | packageDeclaration
  | importDeclaration | asterisk | enumDeclaration | enumBody | enumBodyDeclarations
  | enumConstant | classDeclaration | modifiers | typeParameters | typeParameter | typeBound
  | superclass | superInterfaces | typeList | permitsClause | classBody | staticInitializer
  | constructorDeclaration | constructorBody | explicitConstructorInvocation | scopedIdentifier
  | fieldDeclaration | recordDeclaration | annotationTypeDeclaration | annotationTypeBody
  | annotationTypeElementDeclaration | interfaceDeclaration | extendsInterfaces | interfaceBody
  | constantDeclaration | variableDeclarator | arrayInitializer | annotatedType
  | scopedTypeIdentifier | genericType | arrayType | integralType | floatingPointType
  | formalParameters | formalParameter | receiverParameter | spreadParameter | throwsClause
  | localVariableDeclaration | methodDeclaration | compactConstructorDeclaration
  | typeIdentifier
  /-- A keyword, operator or mark, by its text. -/
  | token (text : String)
  /-- A place where the parser gave up. -/
  | error (counted : Bool)
deriving DecidableEq, Inhabited

namespace Kind

/-- The named kinds of the grammar with their numbers and written names. -/
def grammar : List (Nat × Kind × String) := [
  (1, .identifier, "identifier"), (2, .decimalIntegerLiteral, "decimal_integer_literal"),
  (3, .hexIntegerLiteral, "hex_integer_literal"),
  (4, .octalIntegerLiteral, "octal_integer_literal"),
  (5, .binaryIntegerLiteral, "binary_integer_literal"),
  (6, .decimalFloatingPointLiteral, "decimal_floating_point_literal"),
  (7, .hexFloatingPointLiteral, "hex_floating_point_literal"), (8, .trueLiteral, "true"),
  (9, .falseLiteral, "false"), (10, .characterLiteral, "character_literal"),
  (13, .stringFragment, "string_fragment"), (19, .escapeSequence, "escape_sequence"),
  (20, .nullLiteral, "null_literal"), (75, .underscorePattern, "underscore_pattern"),
  (130, .booleanType, "boolean_type"), (131, .voidType, "void_type"), (134, .thisRef, "this"),
  (135, .superRef, "super"), (136, .lineComment, "line_comment"),
  (137, .blockComment, "block_comment"), (138, .program, "program"),
  (141, .stringLiteral, "string_literal"),
  (144, .multilineStringFragment, "multiline_string_fragment"),
  (145, .stringInterpolation, "string_interpolation"), (148, .castExpression, "cast_expression"),
  (149, .assignmentExpression, "assignment_expression"),
  (150, .binaryExpression, "binary_expression"),
  (151, .instanceofExpression, "instanceof_expression"),
  (152, .lambdaExpression, "lambda_expression"),
  (153, .inferredParameters, "inferred_parameters"),
  (154, .ternaryExpression, "ternary_expression"), (155, .unaryExpression, "unary_expression"),
  (156, .updateExpression, "update_expression"),
  (158, .arrayCreationExpression, "array_creation_expression"),
  (159, .dimensionsExpr, "dimensions_expr"),
  (160, .parenthesizedExpression, "parenthesized_expression"),
  (161, .classLiteral, "class_literal"),
  (162, .objectCreationExpression, "object_creation_expression"),
  (164, .fieldAccess, "field_access"), (165, .templateExpression, "template_expression"),
  (166, .arrayAccess, "array_access"), (167, .methodInvocation, "method_invocation"),
  (168, .argumentList, "argument_list"), (169, .methodReference, "method_reference"),
  (170, .typeArguments, "type_arguments"), (171, .wildcard, "wildcard"),
  (173, .dimensions, "dimensions"), (174, .switchExpression, "switch_expression"),
  (175, .switchBlock, "switch_block"),
  (176, .switchBlockStatementGroup, "switch_block_statement_group"),
  (177, .switchRule, "switch_rule"), (178, .switchLabel, "switch_label"),
  (179, .casePattern, "pattern"), (180, .typePattern, "type_pattern"),
  (181, .recordPattern, "record_pattern"), (182, .recordPatternBody, "record_pattern_body"),
  (183, .recordPatternComponent, "record_pattern_component"), (184, .caseGuard, "guard"),
  (186, .block, "block"), (187, .expressionStatement, "expression_statement"),
  (188, .labeledStatement, "labeled_statement"), (189, .assertStatement, "assert_statement"),
  (190, .doStatement, "do_statement"), (191, .breakStatement, "break_statement"),
  (192, .continueStatement, "continue_statement"), (193, .returnStatement, "return_statement"),
  (194, .yieldStatement, "yield_statement"),
  (195, .synchronizedStatement, "synchronized_statement"),
  (196, .throwStatement, "throw_statement"), (197, .tryStatement, "try_statement"),
  (198, .catchClause, "catch_clause"), (199, .catchFormalParameter, "catch_formal_parameter"),
  (200, .catchType, "catch_type"), (201, .finallyClause, "finally_clause"),
  (202, .tryWithResourcesStatement, "try_with_resources_statement"),
  (203, .resourceSpecification, "resource_specification"), (204, .resource, "resource"),
  (205, .ifStatement, "if_statement"), (206, .whileStatement, "while_statement"),
  (207, .forStatement, "for_statement"), (208, .enhancedForStatement, "enhanced_for_statement"),
  (210, .annotationMark, "marker_annotation"), (211, .annotationCall, "annotation"),
  (212, .annotationArgumentList, "annotation_argument_list"),
  (213, .elementValuePair, "element_value_pair"),
  (215, .elementValueArrayInitializer, "element_value_array_initializer"),
  (217, .moduleDeclaration, "module_declaration"), (218, .moduleBody, "module_body"),
  (220, .requiresModuleDirective, "requires_module_directive"),
  (221, .requiresModifier, "requires_modifier"),
  (222, .exportsModuleDirective, "exports_module_directive"),
  (223, .opensModuleDirective, "opens_module_directive"),
  (224, .usesModuleDirective, "uses_module_directive"),
  (225, .providesModuleDirective, "provides_module_directive"),
  (226, .packageDeclaration, "package_declaration"),
  (227, .importDeclaration, "import_declaration"), (228, .asterisk, "asterisk"),
  (229, .enumDeclaration, "enum_declaration"), (230, .enumBody, "enum_body"),
  (231, .enumBodyDeclarations, "enum_body_declarations"), (232, .enumConstant, "enum_constant"),
  (233, .classDeclaration, "class_declaration"), (234, .modifiers, "modifiers"),
  (235, .typeParameters, "type_parameters"), (236, .typeParameter, "type_parameter"),
  (237, .typeBound, "type_bound"), (238, .superclass, "superclass"),
  (239, .superInterfaces, "super_interfaces"), (240, .typeList, "type_list"),
  (241, .permitsClause, "permits"), (242, .classBody, "class_body"),
  (243, .staticInitializer, "static_initializer"),
  (244, .constructorDeclaration, "constructor_declaration"),
  (246, .constructorBody, "constructor_body"),
  (247, .explicitConstructorInvocation, "explicit_constructor_invocation"),
  (248, .scopedIdentifier, "scoped_identifier"), (249, .fieldDeclaration, "field_declaration"),
  (250, .recordDeclaration, "record_declaration"),
  (251, .annotationTypeDeclaration, "annotation_type_declaration"),
  (252, .annotationTypeBody, "annotation_type_body"),
  (253, .annotationTypeElementDeclaration, "annotation_type_element_declaration"),
  (255, .interfaceDeclaration, "interface_declaration"),
  (256, .extendsInterfaces, "extends_interfaces"), (257, .interfaceBody, "interface_body"),
  (258, .constantDeclaration, "constant_declaration"),
  (260, .variableDeclarator, "variable_declarator"),
  (262, .arrayInitializer, "array_initializer"), (265, .annotatedType, "annotated_type"),
  (266, .scopedTypeIdentifier, "scoped_type_identifier"), (267, .genericType, "generic_type"),
  (268, .arrayType, "array_type"), (269, .integralType, "integral_type"),
  (270, .floatingPointType, "floating_point_type"), (273, .formalParameters, "formal_parameters"),
  (274, .formalParameter, "formal_parameter"), (275, .receiverParameter, "receiver_parameter"),
  (276, .spreadParameter, "spread_parameter"), (277, .throwsClause, "throws"),
  (278, .localVariableDeclaration, "local_variable_declaration"),
  (279, .methodDeclaration, "method_declaration"),
  (280, .compactConstructorDeclaration, "compact_constructor_declaration"),
  (320, .typeIdentifier, "type_identifier")]

/-- The tokens of the grammar by number. -/
def tokens : List (Nat × String) := [
  (11, "\""), (12, "\"\"\""), (16, "\\\x7b"), (17, "\x7d"), (21, "("), (22, ")"), (23, "&"),
  (24, "="), (25, "+="), (26, "-="), (27, "*="), (28, "/="), (29, "&="), (30, "|="), (31, "^="),
  (32, "%="), (33, "<<="), (34, ">>="), (35, ">>>="), (36, ">"), (37, "<"), (38, ">="),
  (39, "<="), (40, "=="), (41, "!="), (42, "&&"), (43, "||"), (44, "+"), (45, "-"), (46, "*"),
  (47, "/"), (48, "|"), (49, "^"), (50, "%"), (51, "<<"), (52, ">>"), (53, ">>>"),
  (54, "instanceof"), (55, "final"), (56, "->"), (57, ","), (58, "?"), (59, ":"), (60, "!"),
  (61, "~"), (62, "++"), (63, "--"), (64, "new"), (65, "["), (66, "]"), (67, "."), (68, "class"),
  (69, "::"), (70, "extends"), (71, "switch"), (72, "\x7b"), (73, "case"), (74, "default"),
  (76, "when"), (77, ";"), (78, "assert"), (79, "do"), (80, "while"), (81, "break"),
  (82, "continue"), (83, "return"), (84, "yield"), (85, "synchronized"), (86, "throw"),
  (87, "try"), (88, "catch"), (89, "finally"), (90, "if"), (91, "else"), (92, "for"), (93, "@"),
  (94, "open"), (95, "module"), (96, "requires"), (97, "transitive"), (98, "static"),
  (99, "exports"), (100, "to"), (101, "opens"), (102, "uses"), (103, "provides"), (104, "with"),
  (105, "package"), (106, "import"), (107, "enum"), (108, "public"), (109, "protected"),
  (110, "private"), (111, "abstract"), (112, "strictfp"), (113, "native"), (114, "transient"),
  (115, "volatile"), (116, "sealed"), (117, "non-sealed"), (118, "implements"), (119, "permits"),
  (120, "record"), (121, "@interface"), (122, "interface"), (123, "byte"), (124, "short"),
  (125, "int"), (126, "long"), (127, "char"), (128, "float"), (129, "double"), (132, "..."),
  (133, "throws")]

/-- The kind of a number in the grammar's tables. -/
def ofId? (id : Nat) : Option Kind :=
  if id = 999 then some (.error true)
  else if id = 998 then some (.error false)
  else
    match grammar.find? (·.1 = id) with
    | some (_, kind, _) => some kind
    | none => (tokens.lookup id).map .token

/-- The written name of a kind: a token's text, a construct's name. -/
def name (kind : Kind) : String :=
  match kind with
  | .token text => text
  | .error _ => "ERROR"
  | kind => ((grammar.find? (·.2.1 = kind)).map (·.2.2)).getD ""

/-- Whether the kind is a construct or an error, and no token. -/
def isNamed : Kind → Bool
  | .token _ => false
  | _ => true

/-- Whether the kind is an error. -/
def isError : Kind → Bool
  | .error _ => true
  | _ => false

/-- Whether the kind is a comment. -/
def isComment (kind : Kind) : Bool := kind = .lineComment || kind = .blockComment

end Kind

/-- The role of a child in its parent. -/
inductive Field where
  | alternative | arguments | array | body | condition | consequence | constructed | declarator
  | dimensions | element | member | index | initial | interfaces | key | left | modifiers
  | moduleName | moduleNames | name | object | operand | operator | packageName | parameters
  | casePattern | permitsClause | provided | provider | resources | right | scope | superclass
  | templateArgument | templateProcessor | type | typeArguments | typeParameters | update
  | value
deriving DecidableEq, Inhabited

/-- The fields of the grammar by number, from 1 on. -/
def Field.all : List Field := [
  .alternative, .arguments, .array, .body, .condition, .consequence, .constructed, .declarator,
  .dimensions, .element, .member, .index, .initial, .interfaces, .key, .left, .modifiers,
  .moduleName, .moduleNames, .name, .object, .operand, .operator, .packageName, .parameters,
  .casePattern, .permitsClause, .provided, .provider, .resources, .right, .scope, .superclass,
  .templateArgument, .templateProcessor, .type, .typeArguments, .typeParameters, .update, .value]

/-- The field of a number, none for 0. -/
def Field.ofId? (id : Nat) : Option Field := if id = 0 then none else all[id - 1]?

end Amend.Syntax
