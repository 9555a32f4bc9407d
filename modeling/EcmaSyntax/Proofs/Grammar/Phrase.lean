import EcmaSyntax.Grammar.CoverElement
import EcmaSyntax.Grammar.Statement

/-! # Phrases of the grammar

What a node stands for where it is read, and which phrases are made of which others. A production
lists the parts of a node in the order in which they are read, each with the context in which it is
read. It says nothing about tokens: those are a matter of the derivation. -/
namespace EcmaSyntax

/-- What a node is read as. -/
inductive Phrase
  | identifier | name | privateName | memberName | word | literal | keyword
  | expression | block (directives : Bool)
  | spread | templateText | templateSpan | template | pattern | arrayElement | bindingName
  | propertyName
  | decorator | thisName | parameterBinding | formalParameter | formalParameters
  | type | typeParameter | entityName | typeReference | subject | typeOrPredicate | functionType
  | typeMember | indexSignature | elementType | tupleElement | literalValue | primaryType
  | postfixType
  | inferredParameter | typeOperator | intersectionMember | intersectionType | unionType
  | function (placement : Placement) | method | objectElement | parameterName | arrowParameters
  | arrowFunction
  | classElement | classLike (placement : Placement)
  | namespacedName | tagName | attributeName | attributeValue | attribute | attributes
  | embedded | childText | child | children | opening | closing | element
  | coverArgument | coverElement | coverList | argument | argumentList
  /-- An element of a list as it is read at its own level. -/
  | covered
  /-- A primary expression with what follows it, calls included or not. -/
  | primary | newExpression | suffixed (calls : Bool)
  | assertedType | unary | operand (precedence : Precedence) | assignment
  /-- An assignment as it is read at its own level. -/
  | assigned
  | variable | variableList | variableStatement (lexical : Bool)
  | enumMember | enumeration | specifier | specifiers | importBindings | importClause | moduleName
  | importDeclaration | exportedNamespace | exportDeclaration | declaration
  | forInitializer | caseClause | catchClause | statement (site : StatementSite)
  | item (inModule : Bool)

/-- A node with what it is read as, and the context in which it is read. -/
structure Part where
  phrase : Phrase
  ctx : Context
  node : Node

namespace Part

/-- Nodes that are all read in one way. -/
def all (phrase : Phrase) (ctx : Context) (nodes : List Node) : List Part :=
  nodes.map (⟨phrase, ctx, ·⟩)

/-- A node that may be absent. -/
def opt (phrase : Phrase) (ctx : Context) (node : Option Node) : List Part :=
  all phrase ctx node.toList

/-- Nodes that may be absent together. -/
def optAll (phrase : Phrase) (ctx : Context) (nodes : Option (List Node)) : List Part :=
  all phrase ctx (nodes.getD [])

/-- Statements of a body, each in the context that the directives before it leave. -/
def body (inModule : Bool) (b : Grammar.Body) : List Node → List Part
  | [] => []
  | statement :: rest => ⟨.item inModule, b.ctx, statement⟩ :: body inModule (b.push statement) rest

end Part

/-- A parameter, or an expression that can be taken for one: a name or a pattern with a default or
without one. -/
def Node.isParameterShaped (n : Node) : Bool :=
  match n.form with
  | .formalParameter .. => true
  | .assignment left .equalsToken _ => left.isIdentifierOrPattern
  | _ => n.isIdentifierOrPattern

/-- Whether a node is a keyword taken for a name. -/
def Node.isWord (n : Node) (k : Kind) : Bool :=
  match n.form with
  | .identifier false _ (some word) => word == k
  | _ => false

/-- Whether a node can be the last of the parameters of an arrow function. -/
def Node.endsParameters (n : Node) : Bool := n.isParameterShaped || n.isSpread

namespace Node
variable {n : Node}

theorem isParameterShaped_of_pattern (h : n.isIdentifierOrPattern = true) :
    n.isParameterShaped = true := by
  obtain ⟨_, form⟩ := n
  cases form <;> first | exact h | cases h

theorem isLeftHandSide_of_pattern (h : n.isIdentifierOrPattern = true) :
    n.isLeftHandSide = true := by
  obtain ⟨_, form⟩ := n
  cases form <;> first | rfl | cases h

theorem isArrowParameters_of_pattern (h : n.isIdentifierOrPattern = true) :
    n.isArrowParameters = false := by
  obtain ⟨_, form⟩ := n
  cases form <;> first | rfl | cases h

end Node

namespace Phrase

/-- The phrases that may stand for a phrase without a node of their own. -/
@[simp] def choices : Phrase → List Phrase
  | memberName => [name, privateName]
  | expression => [assignment]
  | templateText | moduleName => [literal]
  | template => [literal]
  | arrayElement => [spread, assignment]
  | bindingName => [identifier, pattern]
  | propertyName => [literal, privateName, name]
  | parameterBinding => [bindingName, identifier, thisName]
  | entityName => [identifier]
  | typeOrPredicate => [type]
  | typeMember => [indexSignature]
  | elementType => [type]
  | tupleElement => [elementType]
  | literalValue => [keyword, literal]
  | primaryType => [typeReference]
  | postfixType => [primaryType]
  | typeOperator => [postfixType]
  | intersectionMember => [functionType, typeOperator]
  | intersectionType => [intersectionMember]
  | unionType => [intersectionType]
  | type => [functionType, unionType]
  | objectElement => [spread, method]
  | classElement => [indexSignature, method]
  | tagName | attributeName => [name, namespacedName]
  | attributeValue => [literal, embedded, element]
  | child => [childText, embedded, element]
  | coverArgument => [assigned, assignment]
  | covered => [coverArgument, formalParameter]
  | argument => [spread, assignment]
  | primary => [identifier, privateName, word, literal, keyword, pattern,
      function .expression, classLike .expression, arrowParameters, newExpression, element]
  | suffixed _ => [primary]
  | assertedType => [type]
  | unary => [suffixed true]
  | operand _ => [unary]
  | assigned => [arrowFunction]
  | importBindings => [specifiers]
  | forInitializer => [variableList, expression]
  | statement _ => [block false, variableStatement false, enumeration]
  | declaration => [statement .plain, variableStatement true, variableStatement false,
      function .declaration, classLike .declaration, enumeration]
  | item true => [declaration, importDeclaration, exportDeclaration]
  | item false => [declaration]
  | _ => []

/-- What stands for a phrase at a level of its own. -/
def body : Phrase → Phrase
  | assignment => assigned
  | coverElement => covered
  | ph => ph

/-- What the two ways to join types consist of. -/
def joined : CombinationSort → Phrase × Phrase
  | .union => (unionType, intersectionType)
  | .intersection => (intersectionType, intersectionMember)

/-- What a signature stands for. -/
def ofSignature : SignatureSort → Phrase
  | .functionType | .constructorType => functionType
  | .call | .construct => typeMember

end Phrase

/-- A node that is read as one phrase serves as another one. Declarations out of place do so where
something is `faulty` only. -/
inductive Serves (faulty : Prop) (n : Node) : Phrase → Context → Phrase → Context → Prop
  | choice {ph ph' : Phrase} {ctx : Context} : ph ∈ ph'.choices → Serves faulty n ph ctx ph' ctx
  | enclosed {ctx : Context} : Serves faulty n .template ctx.enclosed .primary ctx
  | functionBody {site : StatementSite} {ctx : Context} :
      faulty ∨ Grammar.misplacedFunction? ctx site = none →
      Serves faulty n (.function .declaration) ctx (.statement site) ctx
  | classBody {site : StatementSite} {ctx : Context} :
      faulty → Serves faulty n (.classLike .declaration) ctx (.statement site) ctx
  | innerImport {ctx : Context} : faulty → Serves faulty n .importDeclaration ctx .declaration ctx
  | innerExport {ctx : Context} : faulty → Serves faulty n .exportDeclaration ctx .declaration ctx
  | asyncArrow {parameters body : Node} {ctx : Context} :
      n.form = .arrowFunction true parameters body → Serves faulty n .arrowFunction ctx .primary ctx
  | operand {ctx : Context} :
      n.isArrowParameters = false → Serves faulty n (.operand .comma) ctx .assigned ctx
  | coverOperand {ctx : Context} :
      n.isIdentifierOrPattern = true → Serves faulty n (.operand .comma) ctx .coverArgument ctx
  | binding {ctx : Context} :
      n.isIdentifierOrPattern = true → Serves faulty n (.operand .comma) ctx .parameterBinding ctx
  | arrow {ctx : Context} :
      n.isArrowParameters = true → Serves faulty n (.operand .comma) ctx .arrowParameters ctx
  | coveredArrow {ctx : Context} :
      n.isArrowParameters = true → Serves faulty n .coverList ctx .arrowParameters ctx
  | parameter {ctx : Context} :
      n.isIdentifier = true → Serves faulty n (.operand .comma) ctx .parameterName ctx
  | asyncParameter {ctx : Context} :
      Serves faulty n .identifier (ctx.including [.awaitOperator]) .parameterName ctx

/-- Literals and pieces of templates. -/
def Kind.isLiteralToken : Kind → Bool := Kind.between .numericLiteral .templateTail

open Grammar in
/-- Nodes that are made of a single token. A private name stands in a class, or something is
`faulty`. -/
inductive Leaf (faulty : Prop) (r : Reading) : Phrase → Context → Form Node → Prop
  | identifier {ctx : Context} :
      admits ctx r.token = true → Leaf faulty r .identifier ctx (nameForm r)
  | name {ctx : Context} : r.token.isName = true → Leaf faulty r .name ctx (nameForm r)
  | privateName {ctx : Context} :
      r.token = .privateIdentifier → faulty ∨ ctx.has .classBody = true →
      Leaf faulty r .privateName ctx (nameForm r)
  | word {ctx : Context} :
      r.token ∈ [.importKeyword, .asyncKeyword, .constKeyword] →
      Leaf faulty r .word ctx (nameForm r)
  | thisName {ctx : Context} : r.token = .thisKeyword → Leaf faulty r .thisName ctx (nameForm r)
  | entityName {ctx : Context} :
      r.token.isIdentifierLike = true → Leaf faulty r .entityName ctx (nameForm r)
  | subject {ctx : Context} : isSubject r.token = true → Leaf faulty r .subject ctx (nameForm r)
  | literal {ctx : Context} :
      r.token.isLiteralToken = true → Leaf faulty r .literal ctx (literalForm r)
  | keyword {ctx : Context} :
      r.token.isAnyKeyword = true → Leaf faulty r .keyword ctx (.keyword r.token)
  | childText {ctx : Context} : r.token = .jsxText → Leaf faulty r .childText ctx (textForm r)

/-- Nodes that stand for what is missing. -/
inductive Absence : Form Node → List Part → Prop
  | identifier : Absence (.identifier false "" none) []
  | statement : Absence .emptyStatement []
  | type (ctx : Context) (name : Node) :
      Absence (.typeReference name none) [⟨.identifier, ctx, name⟩]
  | templateText : Absence (.literal .templateTail "" ∅) []
  | argument : Absence .omitted []
  | closing (ctx : Context) (name : Node) : Absence (.jsxClosing name) [⟨.identifier, ctx, name⟩]

end EcmaSyntax
