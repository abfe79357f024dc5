/-!
Contract: the kinds of phrases that the two grammars know, and the names under which they are
reported.

Names are those of the published grammars for JavaScript and TSX. `unlisted` takes any other name,
so that trees built by hand are not restricted to the list.
-/

namespace FragmentLint.Grammar

/-- The kind of a phrase. -/
inductive Construct where
  | identifier | undefined | number | string | templateString | templateSubstitution | regex
  | null | true_ | false_ | this | super | importWord | metaProperty
  | array | object | pair | spreadElement | computedPropertyName | methodDefinition
  | propertyIdentifier | privatePropertyIdentifier | shorthandPropertyIdentifier
  | parenthesized | sequence | assignment | augmentedAssignment | update | unary | binary | ternary
  | await | yield | new | member | subscript | call | arguments | optionalChain
  | asExpression | satisfiesExpression | nonNull | instantiation
  | arrowFunction | functionExpression | generatorFunction | classExpression
  | formalParameters | requiredParameter | optionalParameter
  | objectPattern | arrayPattern | pairPattern | restPattern
  | assignmentPattern | objectAssignmentPattern | shorthandPattern
  | expressionStatement | lexicalDeclaration | variableDeclaration | variableDeclarator
  | statementBlock | emptyStatement | ifStatement | elseClause | forStatement | forInStatement
  | whileStatement | doStatement | switchStatement | switchBody | switchCase | switchDefault
  | tryStatement | catchClause | finallyClause | withStatement | breakStatement
  | continueStatement | debuggerStatement | returnStatement | throwStatement | labeledStatement
  | functionDeclaration | generatorFunctionDeclaration | functionSignature
  | classDeclaration | abstractClassDeclaration | classHeritage | extendsClause
  | implementsClause | classBody | classStaticBlock | fieldDefinition | publicFieldDefinition
  | methodSignature | indexSignature | decorator
  | exportStatement | exportClause | importStatement | importClause | importAttribute
  | annotatedType | typeArguments | typeParameters | typeExpression
  | typeAliasDeclaration | interfaceDeclaration | interfaceBody
  | enumDeclaration | enumBody | enumAssignment | module | internalModule | ambientDeclaration
  | hashBangLine | comment | htmlComment | program
  | jsxElement | jsxSelfClosing | jsxOpening | jsxClosing | jsxAttribute | jsxExpression | jsxText
  | jsxNamespaceName | nestedIdentifier
  | error
  /-- A kind outside the list, under its name. -/
  | unlisted (name : String)
deriving DecidableEq, Repr, Inhabited

namespace Construct

/-- The kinds that have a name of their own, with it. -/
def listed : List (Construct × String) := [
  (identifier, "identifier"), (undefined, "undefined"), (number, "number"), (string, "string"),
  (templateString, "template_string"), (templateSubstitution, "template_substitution"),
  (regex, "regex"), (null, "null"), (true_, "true"), (false_, "false"), (this, "this"),
  (super, "super"), (importWord, "import"), (metaProperty, "meta_property"),
  (array, "array"), (object, "object"), (pair, "pair"), (spreadElement, "spread_element"),
  (computedPropertyName, "computed_property_name"), (methodDefinition, "method_definition"),
  (propertyIdentifier, "property_identifier"),
  (privatePropertyIdentifier, "private_property_identifier"),
  (shorthandPropertyIdentifier, "shorthand_property_identifier"),
  (parenthesized, "parenthesized_expression"), (sequence, "sequence_expression"),
  (assignment, "assignment_expression"),
  (augmentedAssignment, "augmented_assignment_expression"),
  (update, "update_expression"), (unary, "unary_expression"), (binary, "binary_expression"),
  (ternary, "ternary_expression"), (await, "await_expression"), (yield, "yield_expression"),
  (new, "new_expression"), (member, "member_expression"), (subscript, "subscript_expression"),
  (call, "call_expression"), (arguments, "arguments"), (optionalChain, "optional_chain"),
  (asExpression, "as_expression"), (satisfiesExpression, "satisfies_expression"),
  (nonNull, "non_null_expression"), (instantiation, "instantiation_expression"),
  (arrowFunction, "arrow_function"),
  (functionExpression, "function_expression"), (generatorFunction, "generator_function"),
  (classExpression, "class"), (formalParameters, "formal_parameters"),
  (requiredParameter, "required_parameter"), (optionalParameter, "optional_parameter"),
  (objectPattern, "object_pattern"), (arrayPattern, "array_pattern"),
  (pairPattern, "pair_pattern"), (restPattern, "rest_pattern"),
  (assignmentPattern, "assignment_pattern"),
  (objectAssignmentPattern, "object_assignment_pattern"),
  (shorthandPattern, "shorthand_property_identifier_pattern"),
  (expressionStatement, "expression_statement"), (lexicalDeclaration, "lexical_declaration"),
  (variableDeclaration, "variable_declaration"), (variableDeclarator, "variable_declarator"),
  (statementBlock, "statement_block"), (emptyStatement, "empty_statement"),
  (ifStatement, "if_statement"), (elseClause, "else_clause"), (forStatement, "for_statement"),
  (forInStatement, "for_in_statement"), (whileStatement, "while_statement"),
  (doStatement, "do_statement"), (switchStatement, "switch_statement"),
  (switchBody, "switch_body"), (switchCase, "switch_case"), (switchDefault, "switch_default"),
  (tryStatement, "try_statement"), (catchClause, "catch_clause"),
  (finallyClause, "finally_clause"), (withStatement, "with_statement"),
  (breakStatement, "break_statement"), (continueStatement, "continue_statement"),
  (debuggerStatement, "debugger_statement"), (returnStatement, "return_statement"),
  (throwStatement, "throw_statement"), (labeledStatement, "labeled_statement"),
  (functionDeclaration, "function_declaration"),
  (generatorFunctionDeclaration, "generator_function_declaration"),
  (functionSignature, "function_signature"), (classDeclaration, "class_declaration"),
  (abstractClassDeclaration, "abstract_class_declaration"), (classHeritage, "class_heritage"),
  (extendsClause, "extends_clause"), (implementsClause, "implements_clause"),
  (classBody, "class_body"), (classStaticBlock, "class_static_block"),
  (fieldDefinition, "field_definition"), (publicFieldDefinition, "public_field_definition"),
  (methodSignature, "method_signature"), (indexSignature, "index_signature"),
  (decorator, "decorator"), (exportStatement, "export_statement"),
  (exportClause, "export_clause"), (importStatement, "import_statement"),
  (importClause, "import_clause"), (importAttribute, "import_attribute"),
  (annotatedType, "type_annotation"), (typeArguments, "type_arguments"),
  (typeParameters, "type_parameters"), (typeExpression, "type"),
  (typeAliasDeclaration, "type_alias_declaration"),
  (interfaceDeclaration, "interface_declaration"), (interfaceBody, "interface_body"),
  (enumDeclaration, "enum_declaration"), (enumBody, "enum_body"),
  (enumAssignment, "enum_assignment"), (module, "module"), (internalModule, "internal_module"),
  (ambientDeclaration, "ambient_declaration"), (hashBangLine, "hash_bang_line"),
  (comment, "comment"), (htmlComment, "html_comment"), (program, "program"),
  (jsxElement, "jsx_element"), (jsxSelfClosing, "jsx_self_closing_element"),
  (jsxOpening, "jsx_opening_element"), (jsxClosing, "jsx_closing_element"),
  (jsxAttribute, "jsx_attribute"), (jsxExpression, "jsx_expression"), (jsxText, "jsx_text"),
  (jsxNamespaceName, "jsx_namespace_name"), (nestedIdentifier, "nested_identifier"),
  (error, "ERROR")]

def name (construct : Construct) : String :=
  match construct with
  | unlisted name => name
  | listedKind => ((listed.find? fun entry => entry.1 == listedKind).map Prod.snd).getD ""

def ofName (name : String) : Construct :=
  match listed.find? fun entry => entry.2 == name with
  | some entry => entry.1
  | none => unlisted name

end Construct

end FragmentLint.Grammar
