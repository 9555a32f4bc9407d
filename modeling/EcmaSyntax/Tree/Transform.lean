import EcmaSyntax.Tree.Shape
import EcmaSyntax.Kind.Category

/-! # Language features of a subtree

Every form contributes the language features that it needs by itself. The features of a node are
its own together with those of its children, so a subtree that does not need a feature can be told
from its root. -/
namespace EcmaSyntax
namespace Node

open TransformFlag

/-- A declaration that exists for the type checker alone. -/
def isAmbient (h : Header) : Bool :=
  h.flags.meets (.ofList [.declared, .ambient, .abstract])
    || h.modifiers.meets ModifierFlag.typedProgram

/-- Features of functions, by their marks and the presence of a body. -/
def functionFeatures (isAsync isGenerator hasBody : Bool) : TransformFlags :=
  .unionOf [.when (!hasBody) typescript, .when isAsync es2017,
    .when isGenerator (.ofList [es2015, generator]), .when (isAsync && isGenerator) es2018]

/-- Features of literals. -/
def literalFeatures (kind : Kind) (flags : TokenFlags) : TransformFlags :=
  match kind with
  | .noSubstitutionTemplateLiteral | .templateHead | .templateMiddle | .templateTail => es2015
  | .bigIntLiteral => es2020
  | .numericLiteral => .when (flags.meets (.ofList [.binarySpecifier, .octalSpecifier])) es2015
  | _ => ∅

/-- The features that a node needs by itself. -/
def ownFeatures (n : Node) : TransformFlags :=
  match n.form with
  | .literal kind _ flags => literalFeatures kind flags
  | .computedName .. | .shorthandProperty .. | .spread .. | .template ..
  | .taggedTemplate .. => es2015
  | .typeParameter .. | .keywordType .. | .thisType | .typeReference .. | .signature ..
  | .typeQuery .. | .typeLiteral .. | .arrayType .. | .tupleType .. | .wrappedType ..
  | .combinedType .. | .conditionalType .. | .inferType .. | .typeOperator ..
  | .indexedAccessType .. | .literalType .. | .typePredicate .. | .propertySignature ..
  | .methodSignature .. | .indexSignature .. | .typeAssertion .. | .nonNull ..
  | .interfaceDeclaration .. | .typeAlias .. | .enumDeclaration .. | .enumMember .. => typescript
  | .formalParameter _ rest binding optional _ initializer =>
    .when (optional || n.header.modifiers.meets ModifierFlag.parameterProperty) typescript
      ∪ .when (rest || initializer.isSome || !binding.isIdentifier) es2015
  | .decorator .. => .ofList [decorators, typescript]
  | .objectLiteral properties => .when (properties.any isSpread) es2018
  | .propertyAccess _ questionDot _ | .elementAccess _ questionDot _
  | .call _ questionDot _ _ => .when questionDot es2020
  | .function _ _ isAsync isGenerator _ _ _ body =>
    functionFeatures isAsync isGenerator body.isSome ∪ .when (isAmbient n.header) typescript
  | .arrowFunction isAsync _ _ => one es2015 ∪ .when isAsync es2017
  | .binary _ operator _ =>
    match operator with
    | .asteriskAsteriskToken => es2016
    | .questionQuestionToken => es2020
    | _ => ∅
  | .assignment left operator _ =>
    .unionOf [.when (operator == .asteriskAsteriskEqualsToken) es2016,
      .when operator.isLogicalAssignment es2021, .when left.isArrayOrObjectLiteral es2015]
  | .yield .. => .ofList [es2015, yieldOperator]
  | .await .. => .ofList [es2017, awaitOperator]
  | .keyword .thisKeyword => lexicalThis
  | .keyword .superKeyword => es2015
  | .metaProperty .importKeyword _ => es2020
  | .metaProperty .. => es2015
  | .classLike .. => one es2015 ∪ .when (isAmbient n.header) typescript
  | .propertyDefinition _ _ optional definite _ _ =>
    .when (optional || definite || isAmbient n.header) typescript
  | .method _ _ _ optional isAsync isGenerator _ _ _ body =>
    .unionOf [es2015, functionFeatures isAsync isGenerator body.isSome,
      .when (optional || isAmbient n.header) typescript]
  | .variableStatement .. => .when (isAmbient n.header) typescript
  | .variableDeclarations .. => .when (n.header.flags.meets NodeFlag.blockScoped) es2015
  | .variableDeclaration name definite _ _ =>
    .when definite typescript ∪ .when (!name.isIdentifier) es2015
  | .forEach sort isAwait _ _ _ =>
    .when (sort == .forOf) es2015 ∪ .when isAwait (.ofList [es2018, awaitOperator])
  | .importClause isTypeOnly _ _ | .specifier _ isTypeOnly _ _
  | .exportDeclaration isTypeOnly _ _ _ => .when isTypeOnly typescript
  | .exportAssignment isExportEquals _ => .when isExportEquals typescript
  | .jsxFragment .. | .jsxAttributes .. => jsx
  | _ => ∅
where
  one (f : TransformFlag) : TransformFlags := f

/-- The features that a subtree needs. -/
def transformFlags : Node → TransformFlags :=
  gather fun n below => n.ownFeatures ∪ .unionOf below

end Node
end EcmaSyntax
