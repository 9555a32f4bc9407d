import EcmaSyntax.Source.Span
import EcmaSyntax.Tree.Form

/-! # Syntax trees

A node consists of a header, with its range, flags and modifiers, and a form over its children.
What is computed over a whole tree is gathered from the children upwards. -/
namespace EcmaSyntax

/-- What every node carries besides its form. -/
structure Header where
  range : Range
  flags : NodeFlags := ∅
  modifiers : ModifierFlags := ∅

namespace Header

def withFlags (h : Header) (flags : NodeFlags) : Header := { h with flags := h.flags ∪ flags }

def withModifiers (h : Header) (modifiers : ModifierFlags) : Header :=
  { h with modifiers := h.modifiers ∪ modifiers }

/-- Whether a diagnostic was reported while the node was built. -/
def hasErrors (h : Header) : Bool := h.flags.has .hasErrors

end Header

/-- A node of a syntax tree. -/
inductive Node
  | mk (header : Header) (form : Form Node)

namespace Node

def header : Node → Header
  | mk header _ => header

def form : Node → Form Node
  | mk _ form => form

def kind (n : Node) : Kind := n.form.kind

def range (n : Node) : Range := n.header.range

def hasErrors (n : Node) : Bool := n.header.hasErrors

/-- The children of a node, in the order of the source. -/
def children (n : Node) : List Node := n.form.children

section Gather
variable {β : Type} (combine : Node → List β → β)

mutual

/-- Combines a node with the results of its children, from the leaves upwards. -/
def gather : Node → β
  | mk header form => combine (mk header form) (gatherForm form)

/-- The results of the children of a form, in order. -/
def gatherForm : Form Node → List β
  | .sourceBody _ statements => gatherList statements
  | .identifier _ _ _ => []
  | .literal _ _ _ => []
  | .qualifiedName left right => [gather left, gather right]
  | .computedName expression => [gather expression]
  | .typeParameter name bound default =>
    [gather name] ++ gatherOption bound ++ gatherOption default
  | .formalParameter decorators _ binding _ ascription initializer =>
    gatherList decorators ++ [gather binding] ++ gatherOption ascription ++ gatherOption
      initializer
  | .formalParameters parameters _ => gatherList parameters
  | .arrowParameters typeParameters elements returnType _ =>
    gatherOptionList typeParameters ++ gatherList elements ++ gatherOption returnType
  | .argumentList elements _ => gatherList elements
  | .decorator expression => [gather expression]
  | .keywordType _ => []
  | .thisType => []
  | .typeReference name arguments => [gather name] ++ gatherOptionList arguments
  | .signature _ typeParameters parameters returnType =>
    gatherOptionList typeParameters ++ [gather parameters] ++ gatherOption returnType
  | .typeQuery name => [gather name]
  | .typeLiteral members => gatherList members
  | .arrayType element => [gather element]
  | .tupleType elements => gatherList elements
  | .wrappedType _ inner => [gather inner]
  | .combinedType _ types => gatherList types
  | .conditionalType check bound whenTrue whenFalse =>
    [gather check, gather bound, gather whenTrue, gather whenFalse]
  | .inferType parameter => [gather parameter]
  | .typeOperator _ operand => [gather operand]
  | .indexedAccessType object index => [gather object, gather index]
  | .literalType value => [gather value]
  | .typePredicate _ parameter type => [gather parameter] ++ gatherOption type
  | .propertySignature name _ ascription => [gather name] ++ gatherOption ascription
  | .methodSignature name _ typeParameters parameters returnType =>
    [gather name] ++ gatherOptionList typeParameters ++ [gather parameters] ++ gatherOption
      returnType
  | .indexSignature parameters ascription => [gather parameters] ++ gatherOption ascription
  | .template head spans => [gather head] ++ gatherList spans
  | .templateSpan expression tail => [gather expression, gather tail]
  | .arrayLiteral elements _ => gatherList elements
  | .objectLiteral properties => gatherList properties
  | .propertyAssignment name initializer => [gather name, gather initializer]
  | .shorthandProperty name initializer => [gather name] ++ gatherOption initializer
  | .propertyAccess object _ name => [gather object, gather name]
  | .elementAccess object _ argument => [gather object, gather argument]
  | .call callee _ typeArguments arguments =>
    [gather callee] ++ gatherOptionList typeArguments ++ [gather arguments]
  | .new callee typeArguments arguments =>
    [gather callee] ++ gatherOptionList typeArguments ++ gatherOption arguments
  | .taggedTemplate tag typeArguments quasi =>
    [gather tag] ++ gatherOptionList typeArguments ++ [gather quasi]
  | .parenthesized expression => [gather expression]
  | .function _ name _ _ typeParameters parameters returnType body =>
    gatherOption name ++ gatherOptionList typeParameters ++ [gather parameters] ++ gatherOption
      returnType ++ gatherOption body
  | .arrowFunction _ parameters body => [gather parameters, gather body]
  | .prefixUnary _ operand => [gather operand]
  | .postfixUnary operand _ => [gather operand]
  | .binary left _ right => [gather left, gather right]
  | .assignment left _ right => [gather left, gather right]
  | .conditional condition whenTrue whenFalse =>
    [gather condition, gather whenTrue, gather whenFalse]
  | .yield _ expression => gatherOption expression
  | .await expression => [gather expression]
  | .spread expression => [gather expression]
  | .keyword _ => []
  | .omitted => []
  | .typeAssertion _ expression type => [gather expression, gather type]
  | .nonNull expression => [gather expression]
  | .metaProperty _ name => [gather name]
  | .classLike _ decorators name typeParameters heritage interfaces members =>
    gatherList decorators ++ gatherOption name ++ gatherOptionList typeParameters ++ gatherOption
      heritage ++ gatherList interfaces ++ gatherList members
  | .propertyDefinition decorators name _ _ ascription initializer =>
    gatherList decorators ++ [gather name] ++ gatherOption ascription ++ gatherOption initializer
  | .method _ decorators name _ _ _ typeParameters parameters returnType body =>
    gatherList decorators ++ [gather name] ++ gatherOptionList typeParameters ++ [gather
      parameters] ++ gatherOption returnType ++ gatherOption body
  | .staticBlock body => [gather body]
  | .semicolonElement => []
  | .block statements => gatherList statements
  | .emptyStatement => []
  | .debuggerStatement => []
  | .variableStatement _ declarations => [gather declarations]
  | .variableDeclarations declarations => gatherList declarations
  | .variableDeclaration name _ ascription initializer =>
    [gather name] ++ gatherOption ascription ++ gatherOption initializer
  | .expressionStatement expression => [gather expression]
  | .ifStatement condition thenBranch elseBranch =>
    [gather condition, gather thenBranch] ++ gatherOption elseBranch
  | .doStatement body condition => [gather body, gather condition]
  | .whileStatement condition body => [gather condition, gather body]
  | .forStatement initializer condition incrementor body =>
    gatherOption initializer ++ gatherOption condition ++ gatherOption incrementor ++ [gather
      body]
  | .forEach _ _ initializer subject body => [gather initializer, gather subject, gather body]
  | .jump _ label => gatherOption label
  | .returnStatement expression => gatherOption expression
  | .withStatement expression body => [gather expression, gather body]
  | .switchStatement expression clauses => [gather expression] ++ gatherList clauses
  | .caseClause expression statements => gatherOption expression ++ gatherList statements
  | .labeled label body => [gather label, gather body]
  | .throwStatement expression => [gather expression]
  | .tryStatement body handler finalizer =>
    [gather body] ++ gatherOption handler ++ gatherOption finalizer
  | .catchClause binding body => gatherOption binding ++ [gather body]
  | .interfaceDeclaration name typeParameters bases members =>
    [gather name] ++ gatherOptionList typeParameters ++ gatherList bases ++ gatherList members
  | .typeAlias name typeParameters type =>
    [gather name] ++ gatherOptionList typeParameters ++ [gather type]
  | .enumDeclaration name members => [gather name] ++ gatherList members
  | .enumMember name initializer => [gather name] ++ gatherOption initializer
  | .importDeclaration clause source => gatherOption clause ++ [gather source]
  | .importClause _ name bindings => gatherOption name ++ gatherOption bindings
  | .namespaceBinding _ name => gatherOption name
  | .namedSpecifiers _ elements => gatherList elements
  | .specifier _ _ propertyName name => gatherOption propertyName ++ [gather name]
  | .exportDeclaration _ clause source declaration =>
    gatherOption clause ++ gatherOption source ++ gatherOption declaration
  | .exportAssignment _ expression => [gather expression]
  | .jsxElement opening children closing => [gather opening, gather children, gather closing]
  | .jsxOpening _ tag typeArguments attributes =>
    [gather tag] ++ gatherOptionList typeArguments ++ [gather attributes]
  | .jsxClosing tag => [gather tag]
  | .jsxFragment children => [gather children]
  | .jsxNamespacedName space name => [gather space, gather name]
  | .jsxMemberName object name => [gather object, gather name]
  | .jsxAttributes attributes => gatherList attributes
  | .jsxAttribute name initializer => [gather name] ++ gatherOption initializer
  | .jsxSpreadAttribute expression => [gather expression]
  | .jsxExpression _ expression => gatherOption expression
  | .jsxChildren children => gatherList children
  | .jsxText _ _ => []

def gatherList : List Node → List β
  | [] => []
  | child :: rest => gather child :: gatherList rest

def gatherOption : Option Node → List β
  | none => []
  | some child => [gather child]

def gatherOptionList : Option (List Node) → List β
  | none => []
  | some children => gatherList children

end

end Gather

/-- The number of nodes of a tree. -/
def size : Node → Nat := gather fun _ sizes => sizes.foldr (· + ·) 1

end Node
end EcmaSyntax
