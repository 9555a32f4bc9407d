import EcmaSyntax.Flag.Families
import EcmaSyntax.Options.Basic

/-! # Forms of syntax

The shapes that a tree node can take, over an arbitrary type of children. A form fixes the kind of
its node. Its fields, in the order in which they are written, carry names; from the fields follow
the children, in the order of the source. -/
namespace EcmaSyntax

/-- Where a function or class stands. -/
inductive Placement
  | declaration | expression
deriving DecidableEq

/-- The four kinds of members with a body. -/
inductive MethodSort
  | method | getter | setter | constructor
deriving DecidableEq

def MethodSort.kind : MethodSort → Kind
  | method => .methodDefinition
  | getter => .getAccessor
  | setter => .setAccessor
  | constructor => .constructor

/-- The four kinds of types and members that consist of a signature. -/
inductive SignatureSort
  | functionType | constructorType | call | construct
deriving DecidableEq

def SignatureSort.kind : SignatureSort → Kind
  | functionType => .functionType
  | constructorType => .constructorType
  | call => .callSignature
  | construct => .constructSignature

/-- Types around one other type. -/
inductive WrapperSort
  | optional | rest | parenthesized
deriving DecidableEq

def WrapperSort.kind : WrapperSort → Kind
  | optional => .optionalType
  | rest => .restType
  | parenthesized => .parenthesizedType

inductive CombinationSort
  | union | intersection
deriving DecidableEq

def CombinationSort.kind : CombinationSort → Kind
  | union => .unionType
  | intersection => .intersectionType

/-- The two ways to state the type of an expression. -/
inductive AssertionSort
  | asType | satisfies
deriving DecidableEq

def AssertionSort.kind : AssertionSort → Kind
  | asType => .asExpression
  | satisfies => .satisfiesExpression

inductive IterationSort
  | forIn | forOf
deriving DecidableEq

def IterationSort.kind : IterationSort → Kind
  | forIn => .forInStatement
  | forOf => .forOfStatement

inductive JumpSort
  | leave | resume
deriving DecidableEq

def JumpSort.kind : JumpSort → Kind
  | leave => .breakStatement
  | resume => .continueStatement

/-- The direction in which a module passes names. -/
inductive Direction
  | imported | exported
deriving DecidableEq

/-- A field of a form. -/
inductive Field (α : Type)
  | bool (name : String) (value : Bool)
  | text (name : String) (value : String)
  | bits (name : String) (value : TokenFlags)
  | kind (name : String) (value : Kind)
  | optionalKind (name : String) (value : Option Kind)
  | one (name : String) (child : α)
  | optional (name : String) (child : Option α)
  | many (name : String) (children : List α)
  | optionalMany (name : String) (children : Option (List α))

namespace Field
variable {α : Type}

/-- The name of a field. -/
def name : Field α → String
  | bool n _ | text n _ | bits n _ | kind n _ | optionalKind n _ | one n _ | optional n _
  | many n _ | optionalMany n _ => n

/-- The children that a field holds. -/
def children : Field α → List α
  | one _ child => [child]
  | optional _ child => child.toList
  | many _ children => children
  | optionalMany _ children => children.getD []
  | _ => []

end Field

/-- The form of a node over its children. -/
inductive Form (α : Type)
  | sourceBody (goal : Goal) (statements : List α)
  | identifier (isPrivate : Bool) (text : String) (word : Option Kind)
  | literal (kind : Kind) (text : String) (flags : TokenFlags)
  | qualifiedName (left right : α)
  | computedName (expression : α)
  | typeParameter (name : α) (bound default : Option α)
  | formalParameter (decorators : List α) (rest : Bool) (binding : α) (optional : Bool)
      (ascription initializer : Option α)
  | formalParameters (parameters : List α) (trailingComma : Bool)
  | arrowParameters (typeParameters : Option (List α)) (elements : List α)
      (returnType : Option α) (trailingComma : Bool)
  | argumentList (elements : List α) (trailingComma : Bool)
  | decorator (expression : α)
  | keywordType (kind : Kind)
  | thisType
  | typeReference (name : α) (arguments : Option (List α))
  | signature (sort : SignatureSort) (typeParameters : Option (List α)) (parameters : α)
      (returnType : Option α)
  | typeQuery (name : α)
  | typeLiteral (members : List α)
  | arrayType (element : α)
  | tupleType (elements : List α)
  | wrappedType (sort : WrapperSort) (inner : α)
  | combinedType (sort : CombinationSort) (types : List α)
  | conditionalType (check bound whenTrue whenFalse : α)
  | inferType (parameter : α)
  | typeOperator (operator : Kind) (operand : α)
  | indexedAccessType (object index : α)
  | literalType (value : α)
  | typePredicate (asserts : Bool) (parameter : α) (type : Option α)
  | propertySignature (name : α) (optional : Bool) (ascription : Option α)
  | methodSignature (name : α) (optional : Bool) (typeParameters : Option (List α))
      (parameters : α) (returnType : Option α)
  | indexSignature (parameters : α) (ascription : Option α)
  | template (head : α) (spans : List α)
  | templateSpan (expression tail : α)
  | arrayLiteral (elements : List α) (trailingComma : Bool)
  | objectLiteral (properties : List α)
  | propertyAssignment (name initializer : α)
  | shorthandProperty (name : α) (initializer : Option α)
  | propertyAccess (object : α) (questionDot : Bool) (name : α)
  | elementAccess (object : α) (questionDot : Bool) (argument : α)
  | call (callee : α) (questionDot : Bool) (typeArguments : Option (List α)) (arguments : α)
  | new (callee : α) (typeArguments : Option (List α)) (arguments : Option α)
  | taggedTemplate (tag : α) (typeArguments : Option (List α)) (quasi : α)
  | parenthesized (expression : α)
  | function (placement : Placement) (name : Option α) (isAsync isGenerator : Bool)
      (typeParameters : Option (List α)) (parameters : α) (returnType body : Option α)
  | arrowFunction (isAsync : Bool) (parameters body : α)
  | prefixUnary (operator : Kind) (operand : α)
  | postfixUnary (operand : α) (operator : Kind)
  | binary (left : α) (operator : Kind) (right : α)
  | assignment (left : α) (operator : Kind) (right : α)
  | conditional (condition whenTrue whenFalse : α)
  | yield (delegate : Bool) (expression : Option α)
  | await (expression : α)
  | spread (expression : α)
  | keyword (kind : Kind)
  | omitted
  | typeAssertion (sort : AssertionSort) (expression type : α)
  | nonNull (expression : α)
  | metaProperty (word : Kind) (name : α)
  | classLike (placement : Placement) (decorators : List α) (name : Option α)
      (typeParameters : Option (List α)) (heritage : Option α) (interfaces members : List α)
  | propertyDefinition (decorators : List α) (name : α) (optional definite : Bool)
      (ascription initializer : Option α)
  | method (sort : MethodSort) (decorators : List α) (name : α)
      (optional isAsync isGenerator : Bool) (typeParameters : Option (List α)) (parameters : α)
      (returnType body : Option α)
  | staticBlock (body : α)
  | semicolonElement
  | block (statements : List α)
  | emptyStatement
  | debuggerStatement
  | variableStatement (lexical : Bool) (declarations : α)
  | variableDeclarations (declarations : List α)
  | variableDeclaration (name : α) (definite : Bool) (ascription initializer : Option α)
  | expressionStatement (expression : α)
  | ifStatement (condition thenBranch : α) (elseBranch : Option α)
  | doStatement (body condition : α)
  | whileStatement (condition body : α)
  | forStatement (initializer condition incrementor : Option α) (body : α)
  | forEach (sort : IterationSort) (isAwait : Bool) (initializer subject body : α)
  | jump (sort : JumpSort) (label : Option α)
  | returnStatement (expression : Option α)
  | withStatement (expression body : α)
  | switchStatement (expression : α) (clauses : List α)
  | caseClause (expression : Option α) (statements : List α)
  | labeled (label body : α)
  | throwStatement (expression : α)
  | tryStatement (body : α) (handler finalizer : Option α)
  | catchClause (binding : Option α) (body : α)
  | interfaceDeclaration (name : α) (typeParameters : Option (List α)) (bases members : List α)
  | typeAlias (name : α) (typeParameters : Option (List α)) (type : α)
  | enumDeclaration (name : α) (members : List α)
  | enumMember (name : α) (initializer : Option α)
  | importDeclaration (clause : Option α) (source : α)
  | importClause (isTypeOnly : Bool) (name bindings : Option α)
  | namespaceBinding (direction : Direction) (name : Option α)
  | namedSpecifiers (direction : Direction) (elements : List α)
  | specifier (direction : Direction) (isTypeOnly : Bool) (propertyName : Option α) (name : α)
  | exportDeclaration (isTypeOnly : Bool) (clause source declaration : Option α)
  | exportAssignment (isExportEquals : Bool) (expression : α)
  | jsxElement (opening children closing : α)
  | jsxOpening (selfClosing : Bool) (tag : α) (typeArguments : Option (List α)) (attributes : α)
  | jsxClosing (tag : α)
  | jsxFragment (children : α)
  | jsxNamespacedName (space name : α)
  | jsxMemberName (object name : α)
  | jsxAttributes (attributes : List α)
  | jsxAttribute (name : α) (initializer : Option α)
  | jsxSpreadAttribute (expression : α)
  | jsxExpression (dotDotDot : Bool) (expression : Option α)
  | jsxChildren (children : List α)
  | jsxText (text : String) (onlyTrivia : Bool)

namespace Form
variable {α : Type}

/-- The kind of a node with this form. -/
def kind : Form α → Kind
  | .sourceBody .script _ => .scriptBody
  | .sourceBody .module _ => .moduleBody
  | .identifier isPrivate _ _ => if isPrivate then .privateIdentifier else .identifier
  | .literal kind _ _ => kind
  | .qualifiedName _ _ => .qualifiedName
  | .computedName _ => .computedPropertyName
  | .typeParameter _ _ _ => .typeParameter
  | .formalParameter _ _ _ _ _ _ => .formalParameter
  | .formalParameters _ _ => .formalParameterList
  | .arrowParameters _ _ _ _ => .arrowParameters
  | .argumentList _ _ => .argumentList
  | .decorator _ => .decorator
  | .keywordType kind => kind
  | .thisType => .thisType
  | .typeReference _ _ => .typeReference
  | .signature sort _ _ _ => sort.kind
  | .typeQuery _ => .typeQuery
  | .typeLiteral _ => .typeLiteral
  | .arrayType _ => .arrayType
  | .tupleType _ => .tupleType
  | .wrappedType sort _ => sort.kind
  | .combinedType sort _ => sort.kind
  | .conditionalType _ _ _ _ => .conditionalType
  | .inferType _ => .inferType
  | .typeOperator _ _ => .typeOperator
  | .indexedAccessType _ _ => .indexedAccessType
  | .literalType _ => .literalType
  | .typePredicate _ _ _ => .typePredicate
  | .propertySignature _ _ _ => .propertySignature
  | .methodSignature _ _ _ _ _ => .methodSignature
  | .indexSignature _ _ => .indexSignature
  | .template _ _ => .templateExpression
  | .templateSpan _ _ => .templateSpan
  | .arrayLiteral _ _ => .arrayLiteralExpression
  | .objectLiteral _ => .objectLiteralExpression
  | .propertyAssignment _ _ => .propertyAssignment
  | .shorthandProperty _ _ => .shorthandPropertyAssignment
  | .propertyAccess _ _ _ => .propertyAccessExpression
  | .elementAccess _ _ _ => .elementAccessExpression
  | .call _ _ _ _ => .callExpression
  | .new _ _ _ => .newExpression
  | .taggedTemplate _ _ _ => .taggedTemplateExpression
  | .parenthesized _ => .parenthesizedExpression
  | .function .declaration _ _ _ _ _ _ _ => .functionDeclaration
  | .function .expression _ _ _ _ _ _ _ => .functionExpression
  | .arrowFunction _ _ _ => .arrowFunction
  | .prefixUnary _ _ => .prefixUnaryExpression
  | .postfixUnary _ _ => .postfixUnaryExpression
  | .binary _ _ _ => .binaryExpression
  | .assignment _ _ _ => .assignmentExpression
  | .conditional _ _ _ => .conditionalExpression
  | .yield _ _ => .yieldExpression
  | .await _ => .awaitExpression
  | .spread _ => .spreadElement
  | .keyword kind => kind
  | .omitted => .omittedExpression
  | .typeAssertion sort _ _ => sort.kind
  | .nonNull _ => .nonNullExpression
  | .metaProperty _ _ => .metaProperty
  | .classLike .declaration _ _ _ _ _ _ => .classDeclaration
  | .classLike .expression _ _ _ _ _ _ => .classExpression
  | .propertyDefinition _ _ _ _ _ _ => .propertyDefinition
  | .method sort _ _ _ _ _ _ _ _ _ => sort.kind
  | .staticBlock _ => .classStaticBlock
  | .semicolonElement => .semicolonClassElement
  | .block _ => .block
  | .emptyStatement => .emptyStatement
  | .debuggerStatement => .debuggerStatement
  | .variableStatement lexical _ => if lexical then .lexicalDeclaration else .variableStatement
  | .variableDeclarations _ => .variableDeclarationList
  | .variableDeclaration _ _ _ _ => .variableDeclaration
  | .expressionStatement _ => .expressionStatement
  | .ifStatement _ _ _ => .ifStatement
  | .doStatement _ _ => .doStatement
  | .whileStatement _ _ => .whileStatement
  | .forStatement _ _ _ _ => .forStatement
  | .forEach sort _ _ _ _ => sort.kind
  | .jump sort _ => sort.kind
  | .returnStatement _ => .returnStatement
  | .withStatement _ _ => .withStatement
  | .switchStatement _ _ => .switchStatement
  | .caseClause expression _ => if expression.isSome then .caseClause else .defaultClause
  | .labeled _ _ => .labeledStatement
  | .throwStatement _ => .throwStatement
  | .tryStatement _ _ _ => .tryStatement
  | .catchClause _ _ => .catchClause
  | .interfaceDeclaration _ _ _ _ => .interfaceDeclaration
  | .typeAlias _ _ _ => .typeAliasDeclaration
  | .enumDeclaration _ _ => .enumDeclaration
  | .enumMember _ _ => .enumMember
  | .importDeclaration _ _ => .importDeclaration
  | .importClause _ _ _ => .importClause
  | .namespaceBinding .imported _ => .namespaceImport
  | .namespaceBinding .exported _ => .namespaceExport
  | .namedSpecifiers .imported _ => .namedImports
  | .namedSpecifiers .exported _ => .namedExports
  | .specifier .imported _ _ _ => .importSpecifier
  | .specifier .exported _ _ _ => .exportSpecifier
  | .exportDeclaration _ _ _ _ => .exportDeclaration
  | .exportAssignment _ _ => .exportAssignment
  | .jsxElement _ _ _ => .jsxElement
  | .jsxOpening selfClosing _ _ _ =>
    if selfClosing then .jsxSelfClosingElement else .jsxOpeningElement
  | .jsxClosing _ => .jsxClosingElement
  | .jsxFragment _ => .jsxFragment
  | .jsxNamespacedName _ _ => .jsxNamespacedName
  | .jsxMemberName _ _ => .jsxTagNamePropertyAccess
  | .jsxAttributes _ => .jsxAttributesList
  | .jsxAttribute _ _ => .jsxAttribute
  | .jsxSpreadAttribute _ => .jsxSpreadAttribute
  | .jsxExpression _ _ => .jsxExpression
  | .jsxChildren _ => .jsxChildrenList
  | .jsxText _ _ => .jsxText

/-- The fields of a form, with their written names. -/
def fields : Form α → List (Field α)
  | .sourceBody _ statements => [.many "statements" statements]
  | .identifier _ text word => [.text "text" text, .optionalKind "original_keyword_kind" word]
  | .literal _ text flags => [.text "text" text, .bits "token_flags" flags]
  | .qualifiedName left right => [.one "left" left, .one "right" right]
  | .computedName expression => [.one "expression" expression]
  | .typeParameter name bound default =>
    [.one "name" name, .optional "constraint" bound, .optional "default" default]
  | .formalParameter decorators rest binding optional ascription initializer =>
    [.many "decorators" decorators, .bool "rest" rest, .one "binding" binding,
      .bool "optional" optional, .optional "type_annotation" ascription,
      .optional "initializer" initializer]
  | .formalParameters parameters trailingComma =>
    [.many "parameters" parameters, .bool "trailing_comma" trailingComma]
  | .arrowParameters typeParameters elements returnType trailingComma =>
    [.optionalMany "type_parameters" typeParameters, .many "elements" elements,
      .optional "return_type" returnType, .bool "trailing_comma" trailingComma]
  | .argumentList elements trailingComma =>
    [.many "elements" elements, .bool "trailing_comma" trailingComma]
  | .decorator expression => [.one "expression" expression]
  | .keywordType _ => []
  | .thisType => []
  | .typeReference name arguments =>
    [.one "type_name" name, .optionalMany "type_arguments" arguments]
  | .signature _ typeParameters parameters returnType =>
    [.optionalMany "type_parameters" typeParameters, .one "parameters" parameters,
      .optional "return_type" returnType]
  | .typeQuery name => [.one "expr_name" name]
  | .typeLiteral members => [.many "members" members]
  | .arrayType element => [.one "element_type" element]
  | .tupleType elements => [.many "elements" elements]
  | .wrappedType _ inner => [.one "type_node" inner]
  | .combinedType _ types => [.many "types" types]
  | .conditionalType check bound whenTrue whenFalse =>
    [.one "check_type" check, .one "extends_type" bound, .one "true_type" whenTrue,
      .one "false_type" whenFalse]
  | .inferType parameter => [.one "type_parameter" parameter]
  | .typeOperator operator operand => [.kind "operator" operator, .one "type_node" operand]
  | .indexedAccessType object index => [.one "object_type" object, .one "index_type" index]
  | .literalType value => [.one "literal" value]
  | .typePredicate asserts parameter type =>
    [.bool "asserts" asserts, .one "parameter_name" parameter, .optional "type_node" type]
  | .propertySignature name optional ascription =>
    [.one "name" name, .bool "optional" optional, .optional "type_annotation" ascription]
  | .methodSignature name optional typeParameters parameters returnType =>
    [.one "name" name, .bool "optional" optional, .optionalMany "type_parameters" typeParameters,
      .one "parameters" parameters, .optional "return_type" returnType]
  | .indexSignature parameters ascription =>
    [.one "parameters" parameters, .optional "type_annotation" ascription]
  | .template head spans => [.one "head" head, .many "template_spans" spans]
  | .templateSpan expression tail => [.one "expression" expression, .one "literal" tail]
  | .arrayLiteral elements trailingComma =>
    [.many "elements" elements, .bool "trailing_comma" trailingComma]
  | .objectLiteral properties => [.many "properties" properties]
  | .propertyAssignment name initializer => [.one "name" name, .one "initializer" initializer]
  | .shorthandProperty name initializer =>
    [.one "name" name, .optional "object_assignment_initializer" initializer]
  | .propertyAccess object questionDot name =>
    [.one "expression" object, .bool "question_dot" questionDot, .one "name" name]
  | .elementAccess object questionDot argument =>
    [.one "expression" object, .bool "question_dot" questionDot,
      .one "argument_expression" argument]
  | .call callee questionDot typeArguments arguments =>
    [.one "expression" callee, .bool "question_dot" questionDot,
      .optionalMany "type_arguments" typeArguments, .one "arguments" arguments]
  | .new callee typeArguments arguments =>
    [.one "expression" callee, .optionalMany "type_arguments" typeArguments,
      .optional "arguments" arguments]
  | .taggedTemplate tag typeArguments quasi =>
    [.one "tag" tag, .optionalMany "type_arguments" typeArguments, .one "template" quasi]
  | .parenthesized expression => [.one "expression" expression]
  | .function _ name isAsync isGenerator typeParameters parameters returnType body =>
    [.optional "name" name, .bool "is_async" isAsync, .bool "is_generator" isGenerator,
      .optionalMany "type_parameters" typeParameters, .one "parameters" parameters,
      .optional "return_type" returnType, .optional "body" body]
  | .arrowFunction isAsync parameters body =>
    [.bool "is_async" isAsync, .one "parameters" parameters, .one "body" body]
  | .prefixUnary operator operand => [.kind "operator" operator, .one "operand" operand]
  | .postfixUnary operand operator => [.one "operand" operand, .kind "operator" operator]
  | .binary left operator right =>
    [.one "left" left, .kind "operator" operator, .one "right" right]
  | .assignment left operator right =>
    [.one "left" left, .kind "operator" operator, .one "right" right]
  | .conditional condition whenTrue whenFalse =>
    [.one "condition" condition, .one "when_true" whenTrue, .one "when_false" whenFalse]
  | .yield delegate expression => [.bool "delegate" delegate, .optional "expression" expression]
  | .await expression => [.one "expression" expression]
  | .spread expression => [.one "expression" expression]
  | .keyword _ => []
  | .omitted => []
  | .typeAssertion _ expression type => [.one "expression" expression, .one "type_node" type]
  | .nonNull expression => [.one "expression" expression]
  | .metaProperty word name => [.kind "keyword_token" word, .one "name" name]
  | .classLike _ decorators name typeParameters heritage interfaces members =>
    [.many "decorators" decorators, .optional "name" name,
      .optionalMany "type_parameters" typeParameters, .optional "extends_clause" heritage,
      .many "implements_clause" interfaces, .many "members" members]
  | .propertyDefinition decorators name optional definite ascription initializer =>
    [.many "decorators" decorators, .one "name" name, .bool "optional" optional,
      .bool "definite" definite, .optional "type_annotation" ascription,
      .optional "initializer" initializer]
  | .method _ decorators name optional isAsync isGenerator typeParameters parameters returnType
      body =>
    [.many "decorators" decorators, .one "name" name, .bool "optional" optional,
      .bool "is_async" isAsync, .bool "is_generator" isGenerator,
      .optionalMany "type_parameters" typeParameters, .one "parameters" parameters,
      .optional "return_type" returnType, .optional "body" body]
  | .staticBlock body => [.one "body" body]
  | .semicolonElement => []
  | .block statements => [.many "statements" statements]
  | .emptyStatement => []
  | .debuggerStatement => []
  | .variableStatement _ declarations => [.one "declaration_list" declarations]
  | .variableDeclarations declarations => [.many "declarations" declarations]
  | .variableDeclaration name definite ascription initializer =>
    [.one "name" name, .bool "definite" definite, .optional "type_annotation" ascription,
      .optional "initializer" initializer]
  | .expressionStatement expression => [.one "expression" expression]
  | .ifStatement condition thenBranch elseBranch =>
    [.one "expression" condition, .one "then_statement" thenBranch,
      .optional "else_statement" elseBranch]
  | .doStatement body condition => [.one "statement" body, .one "expression" condition]
  | .whileStatement condition body => [.one "expression" condition, .one "statement" body]
  | .forStatement initializer condition incrementor body =>
    [.optional "initializer" initializer, .optional "condition" condition,
      .optional "incrementor" incrementor, .one "statement" body]
  | .forEach _ isAwait initializer subject body =>
    [.bool "is_await" isAwait, .one "initializer" initializer, .one "expression" subject,
      .one "statement" body]
  | .jump _ label => [.optional "label" label]
  | .returnStatement expression => [.optional "expression" expression]
  | .withStatement expression body => [.one "expression" expression, .one "statement" body]
  | .switchStatement expression clauses => [.one "expression" expression, .many "clauses" clauses]
  | .caseClause expression statements =>
    [.optional "expression" expression, .many "statements" statements]
  | .labeled label body => [.one "label" label, .one "statement" body]
  | .throwStatement expression => [.one "expression" expression]
  | .tryStatement body handler finalizer =>
    [.one "try_block" body, .optional "catch_clause" handler,
      .optional "finally_block" finalizer]
  | .catchClause binding body => [.optional "variable_declaration" binding, .one "block" body]
  | .interfaceDeclaration name typeParameters bases members =>
    [.one "name" name, .optionalMany "type_parameters" typeParameters,
      .many "extends_clause" bases, .many "members" members]
  | .typeAlias name typeParameters type =>
    [.one "name" name, .optionalMany "type_parameters" typeParameters, .one "type_node" type]
  | .enumDeclaration name members => [.one "name" name, .many "members" members]
  | .enumMember name initializer => [.one "name" name, .optional "initializer" initializer]
  | .importDeclaration clause source =>
    [.optional "import_clause" clause, .one "module_specifier" source]
  | .importClause isTypeOnly name bindings =>
    [.bool "is_type_only" isTypeOnly, .optional "name" name, .optional "named_bindings" bindings]
  | .namespaceBinding _ name => [.optional "name" name]
  | .namedSpecifiers _ elements => [.many "elements" elements]
  | .specifier _ isTypeOnly propertyName name =>
    [.bool "is_type_only" isTypeOnly, .optional "property_name" propertyName, .one "name" name]
  | .exportDeclaration isTypeOnly clause source declaration =>
    [.bool "is_type_only" isTypeOnly, .optional "export_clause" clause,
      .optional "module_specifier" source, .optional "declaration" declaration]
  | .exportAssignment isExportEquals expression =>
    [.bool "is_export_equals" isExportEquals, .one "expression" expression]
  | .jsxElement opening children closing =>
    [.one "opening_element" opening, .one "children" children, .one "closing_element" closing]
  | .jsxOpening _ tag typeArguments attributes =>
    [.one "tag_name" tag, .optionalMany "type_arguments" typeArguments,
      .one "attributes" attributes]
  | .jsxClosing tag => [.one "tag_name" tag]
  | .jsxFragment children => [.one "children" children]
  | .jsxNamespacedName space name => [.one "namespace" space, .one "name" name]
  | .jsxMemberName object name => [.one "expression" object, .one "name" name]
  | .jsxAttributes attributes => [.many "attributes" attributes]
  | .jsxAttribute name initializer => [.one "name" name, .optional "initializer" initializer]
  | .jsxSpreadAttribute expression => [.one "expression" expression]
  | .jsxExpression dotDotDot expression =>
    [.bool "dot_dot_dot" dotDotDot, .optional "expression" expression]
  | .jsxChildren children => [.many "children" children]
  | .jsxText text onlyTrivia =>
    [.text "text" text, .bool "contains_only_trivia_whitespace" onlyTrivia]

/-- The children of a form, in order. -/
def children (form : Form α) : List α := form.fields.flatMap (·.children)

end Form
end EcmaSyntax
