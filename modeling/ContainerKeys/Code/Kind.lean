/-!
# Kinds and fields of syntax nodes

The kinds of nodes that the index looks at, and the fields under which a node holds its children.
-/

namespace ContainerKeys.Code

/-- The kind of a syntax node. -/
inductive Kind where
  | identifier
  | propertyIdentifier
  | shorthandProperty
  | shorthandPattern
  | string
  | comment
  | this
  | memberAccess
  | call
  | parenthesized
  | importStatement
  | importClause
  | importRequire
  | importNamespace
  | importNames
  | importSpecifier
  | declarator
  | objectPattern
  | objectDefault
  | pairPattern
  | assignmentPattern
  | object
  | pair
  | classBody
  | method
  | functionDeclaration
  | functionExpression
  | functionKeyword
  | generatorDeclaration
  | generatorFunction
  | arrowFunction
  | requiredParameter
  | optionalParameter
  | classDeclaration
  | lexicalDeclaration
  | variableDeclaration
  | exportStatement
  | exportClause
  | exportSpecifier
  | expressionStatement
  | assignment
  | defaultKeyword
  | error
  | other (name : String)
deriving DecidableEq, Repr, Inhabited

/-- The grammar's name of a kind. -/
def Kind.name : Kind → String
  | .identifier => "identifier"
  | .propertyIdentifier => "property_identifier"
  | .shorthandProperty => "shorthand_property_identifier"
  | .shorthandPattern => "shorthand_property_identifier_pattern"
  | .string => "string"
  | .comment => "comment"
  | .this => "this"
  | .memberAccess => "member_expression"
  | .call => "call_expression"
  | .parenthesized => "parenthesized_expression"
  | .importStatement => "import_statement"
  | .importClause => "import_clause"
  | .importRequire => "import_require_clause"
  | .importNamespace => "namespace_import"
  | .importNames => "named_imports"
  | .importSpecifier => "import_specifier"
  | .declarator => "variable_declarator"
  | .objectPattern => "object_pattern"
  | .objectDefault => "object_assignment_pattern"
  | .pairPattern => "pair_pattern"
  | .assignmentPattern => "assignment_pattern"
  | .object => "object"
  | .pair => "pair"
  | .classBody => "class_body"
  | .method => "method_definition"
  | .functionDeclaration => "function_declaration"
  | .functionExpression => "function_expression"
  | .functionKeyword => "function"
  | .generatorDeclaration => "generator_function_declaration"
  | .generatorFunction => "generator_function"
  | .arrowFunction => "arrow_function"
  | .requiredParameter => "required_parameter"
  | .optionalParameter => "optional_parameter"
  | .classDeclaration => "class_declaration"
  | .lexicalDeclaration => "lexical_declaration"
  | .variableDeclaration => "variable_declaration"
  | .exportStatement => "export_statement"
  | .exportClause => "export_clause"
  | .exportSpecifier => "export_specifier"
  | .expressionStatement => "expression_statement"
  | .assignment => "assignment_expression"
  | .defaultKeyword => "default"
  | .error => "ERROR"
  | .other name => name

/-- The kinds with a constructor of their own. -/
def Kind.known : List Kind :=
  [.identifier, .propertyIdentifier, .shorthandProperty, .shorthandPattern, .string, .comment,
    .this, .memberAccess, .call, .parenthesized, .importStatement, .importClause, .importRequire,
    .importNamespace, .importNames, .importSpecifier, .declarator, .objectPattern, .objectDefault,
    .pairPattern, .assignmentPattern, .object, .pair, .classBody, .method, .functionDeclaration,
    .functionExpression, .functionKeyword, .generatorDeclaration, .generatorFunction,
    .arrowFunction, .requiredParameter, .optionalParameter, .classDeclaration, .lexicalDeclaration,
    .variableDeclaration, .exportStatement, .exportClause, .exportSpecifier, .expressionStatement,
    .assignment, .defaultKeyword, .error]

/-- The kind with the given name. -/
def Kind.ofName (name : String) : Kind :=
  (known.find? fun k => k.name = name).getD (.other name)

/-- Functions of all forms, methods apart. -/
def Kind.isFunction : Kind → Bool
  | .functionDeclaration | .functionExpression | .functionKeyword | .generatorDeclaration
  | .generatorFunction | .arrowFunction => true
  | _ => false

/-- A field under which a node holds a child. -/
inductive Field where
  | function
  | arguments
  | object
  | property
  | name
  | alias
  | value
  | key
  | left
  | right
  | source
  | parameters
  | pattern
  | declaration
  | other (name : String)
deriving DecidableEq, Repr, Inhabited

/-- The grammar's name of a field. -/
def Field.spelling : Field → String
  | .function => "function"
  | .arguments => "arguments"
  | .object => "object"
  | .property => "property"
  | .name => "name"
  | .alias => "alias"
  | .value => "value"
  | .key => "key"
  | .left => "left"
  | .right => "right"
  | .source => "source"
  | .parameters => "parameters"
  | .pattern => "pattern"
  | .declaration => "declaration"
  | .other text => text

/-- The fields with a constructor of their own. -/
def Field.known : List Field :=
  [.function, .arguments, .object, .property, .name, .alias, .value, .key, .left, .right, .source,
    .parameters, .pattern, .declaration]

/-- The field with the given name. -/
def Field.ofName (name : String) : Field :=
  (known.find? fun f => f.spelling = name).getD (.other name)

end ContainerKeys.Code
