import EcmaSyntax.Proofs.Grammar.Phrase
import EcmaSyntax.Proofs.Grammar.Tiling

/-! # Productions of the grammar

One production for every routine that makes a node of parts. The parts stand in the order of the
source, and with them the contexts that the routine hands down. -/
namespace EcmaSyntax
open Part

namespace Context

/-- The context of the parameters of a function. -/
def parameters (ctx : Context) (isAsync isGenerator : Bool) : Context :=
  (ctx.functionBody isAsync isGenerator).excluding [.returnStatement]

/-- The context behind the head of a loop. -/
def withIn (ctx : Context) : Context := ctx.excluding [.withoutIn]

/-- The context of the first branch of a conditional. -/
def branch (ctx : Context) : Context := ctx.including [.conditionalBranch]

/-- The context of the name of a function. -/
def ofName (ctx : Context) (placement : Placement) (isAsync isGenerator : Bool) : Context :=
  match placement with
  | .declaration => ctx
  | .expression => ctx.functionBody isAsync isGenerator

end Context

/-- The keyword that makes an assertion. -/
def AssertionSort.operator : AssertionSort → Kind
  | asType => .asKeyword
  | satisfies => .satisfiesKeyword

/-- A left operand that is an operation itself does not bind looser than the operator behind it,
which is not the power operator. -/
def Node.CompleteBefore (left : Node) (operator : Kind) : Prop :=
  ∀ l k r, left.form = .binary l k r → operator ≠ .asteriskAsteriskToken ∧
    (Precedence.ofOperator operator).level ≤ (Precedence.ofOperator k).level

open Grammar in
/-- How a node that is read as a phrase is made of its parts. Some statements stand in a context
that allows them, or something is `faulty`. -/
inductive Production (faulty : Prop) : Phrase → Context → Form Node → List Part → Prop
  -- Lists and literals.
  | comma {ctx l r} : Production faulty .expression ctx (.binary l .commaToken r)
      ([⟨.expression, ctx, l⟩] ++ [⟨.assignment, ctx, r⟩])
  | block {ctx directives ss} : Production faulty (.block directives) ctx (.block ss)
      (body false ⟨ctx, directives, #[]⟩ ss)
  | spread {ctx e} : Production faulty .spread ctx (.spread e) [⟨.assignment, ctx, e⟩]
  | templateSpan {ctx e t} : Production faulty .templateSpan ctx (.templateSpan e t)
      ([⟨.expression, ctx, e⟩] ++ [⟨.templateText, ctx, t⟩])
  | template {ctx h ss} : Production faulty .template ctx (.template h ss)
      ([⟨.literal, ctx, h⟩] ++ all .templateSpan ctx ss)
  | arrayLiteral {ctx es comma} : Production faulty .pattern ctx (.arrayLiteral es comma)
      (all .arrayElement ctx.enclosed es)
  | hole {ctx} : Production faulty .arrayElement ctx .omitted []
  | objectLiteral {ctx ps} : Production faulty .pattern ctx (.objectLiteral ps)
      (all .objectElement ctx.enclosed ps)
  | computedName {ctx e} : Production faulty .propertyName ctx (.computedName e)
      [⟨.assignment, ctx.enclosed, e⟩]
  -- Parameters.
  | decorator {ctx e} : Production faulty .decorator ctx (.decorator e)
      [⟨.suffixed true, ctx.including [.decorator], e⟩]
  | formalParameter {ctx ds rest b optional t e} :
      Production faulty .formalParameter ctx (.formalParameter ds rest b optional t e)
        (all .decorator ctx ds ++ [⟨.parameterBinding, ctx, b⟩] ++ opt .type ctx t
          ++ opt .assignment ctx.withIn e)
  | formalParameters {ctx ps comma} :
      Production faulty .formalParameters ctx (.formalParameters ps comma)
      (all .formalParameter ctx ps)
  -- Types.
  | typeParameter {ctx n b d} : Production faulty .typeParameter ctx (.typeParameter n b d)
      ([⟨.identifier, ctx, n⟩] ++ opt .type (withConditionalTypes ctx) b
        ++ opt .type (withConditionalTypes ctx) d)
  | inferredParameter {ctx n b} : Production faulty .inferredParameter ctx (.typeParameter n b none)
      ([⟨.identifier, ctx, n⟩] ++ opt .type (ctx.excluding [.conditionalTypes]) b)
  | qualifiedName {ctx l r} : Production faulty .entityName ctx (.qualifiedName l r)
      ([⟨.entityName, ctx, l⟩] ++ [⟨.name, ctx, r⟩])
  | typeReference {ctx n ts} : Production faulty .typeReference ctx (.typeReference n ts)
      ([⟨.entityName, ctx, n⟩] ++ optAll .type (withConditionalTypes ctx) ts)
  | typePredicate {ctx asserts n t} :
      Production faulty .typeOrPredicate ctx (.typePredicate asserts n t)
      ([⟨.subject, ctx, n⟩] ++ opt .type ctx t)
  | signature {ctx sort tps ps t} :
      Production faulty (.ofSignature sort) ctx (.signature sort tps ps t)
        (optAll .typeParameter ctx tps ++ [⟨.formalParameters, ctx, ps⟩]
          ++ opt .typeOrPredicate ctx t)
  | indexSignature {ctx ps t} : Production faulty .indexSignature ctx (.indexSignature ps t)
      ([⟨.formalParameters, ctx, ps⟩] ++ opt .type ctx t)
  | methodSignature {ctx n optional tps ps t} :
      Production faulty .typeMember ctx (.methodSignature n optional tps ps t)
        ([⟨.propertyName, ctx, n⟩] ++ optAll .typeParameter ctx tps
          ++ [⟨.formalParameters, ctx, ps⟩] ++ opt .typeOrPredicate ctx t)
  | propertySignature {ctx n optional t} :
      Production faulty .typeMember ctx (.propertySignature n optional t)
        ([⟨.propertyName, ctx, n⟩] ++ opt .type ctx t)
  | optionalElement {ctx t} : Production faulty .elementType ctx (.wrappedType .optional t)
      [⟨.type, ctx, t⟩]
  | restElement {ctx t} : Production faulty .tupleElement ctx (.wrappedType .rest t)
      [⟨.elementType, ctx, t⟩]
  | tupleType {ctx es} : Production faulty .primaryType ctx (.tupleType es)
      (all .tupleElement (withConditionalTypes ctx) es)
  | keywordType {ctx k} : k.isKeywordType = true →
      Production faulty .primaryType ctx (.keywordType k) []
  | thisType {ctx} : Production faulty .primaryType ctx .thisType []
  | typeQuery {ctx n} : Production faulty .primaryType ctx (.typeQuery n) [⟨.entityName, ctx, n⟩]
  | literalType {ctx v} :
      Production faulty .primaryType ctx (.literalType v) [⟨.literalValue, ctx, v⟩]
  | negativeNumber {ctx v} : Production faulty .literalValue ctx (.prefixUnary .minusToken v)
      [⟨.literal, ctx, v⟩]
  | typeLiteral {ctx ms} : Production faulty .primaryType ctx (.typeLiteral ms)
      (all .typeMember (withConditionalTypes ctx) ms)
  | parenthesizedType {ctx t} : Production faulty .primaryType ctx (.wrappedType .parenthesized t)
      [⟨.type, withConditionalTypes ctx, t⟩]
  | arrayType {ctx t} : Production faulty .postfixType ctx (.arrayType t) [⟨.postfixType, ctx, t⟩]
  | indexedAccessType {ctx t i} : Production faulty .postfixType ctx (.indexedAccessType t i)
      ([⟨.postfixType, ctx, t⟩] ++ [⟨.type, withConditionalTypes ctx, i⟩])
  | inferType {ctx p} :
      Production faulty .typeOperator ctx (.inferType p) [⟨.inferredParameter, ctx, p⟩]
  | typeOperator {ctx k t} : Production faulty .typeOperator ctx (.typeOperator k t)
      [⟨.typeOperator, ctx, t⟩]
  | combinedType {ctx sort t ts} : ts ≠ [] →
      Production faulty (Phrase.joined sort).1 ctx (.combinedType sort (t :: ts))
        ([⟨(Phrase.joined sort).2, ctx, t⟩] ++ all (Phrase.joined sort).2 ctx ts)
  | conditionalType {ctx c b t f} : ctx.has .conditionalTypes = true →
      Production faulty .type ctx (.conditionalType c b t f)
      ([⟨.unionType, ctx, c⟩] ++ [⟨.type, ctx.excluding [.conditionalTypes], b⟩]
        ++ [⟨.type, withConditionalTypes ctx, t⟩] ++ [⟨.type, withConditionalTypes ctx, f⟩])
  -- Functions.
  | function {ctx placement n isAsync isGenerator tps ps t b} :
      Production faulty (.function placement) ctx
        (.function placement n isAsync isGenerator tps ps t b)
        (opt .identifier (ctx.ofName placement isAsync isGenerator) n
          ++ optAll .typeParameter ctx tps
          ++ [⟨.formalParameters, ctx.parameters isAsync isGenerator, ps⟩]
          ++ opt .typeOrPredicate ctx t
          ++ opt (.block true) (ctx.functionBody isAsync isGenerator) b)
  | method {ctx sort ds n optional isAsync isGenerator tps ps t b} :
      Production faulty .method ctx (.method sort ds n optional isAsync isGenerator tps ps t b)
        (all .decorator ctx ds ++ [⟨.propertyName, ctx, n⟩] ++ optAll .typeParameter ctx tps
          ++ [⟨.formalParameters, ctx.parameters isAsync isGenerator, ps⟩]
          ++ opt .typeOrPredicate ctx t
          ++ opt (.block true) (ctx.functionBody isAsync isGenerator) b)
  | shorthandProperty {ctx n e} : Production faulty .objectElement ctx (.shorthandProperty n e)
      ([⟨.propertyName, ctx, n⟩] ++ opt .assignment ctx e)
  | propertyAssignment {ctx n e} : Production faulty .objectElement ctx (.propertyAssignment n e)
      ([⟨.propertyName, ctx, n⟩] ++ [⟨.assignment, ctx, e⟩])
  | arrowParameters {ctx tps es t comma} : (∀ e ∈ es.getLast?, e.endsParameters = true) →
      Production faulty .coverList ctx (.arrowParameters tps es t comma)
        (optAll .typeParameter ctx tps ++ all .coverElement ctx.argument es
          ++ opt .typeOrPredicate ctx t)
  | arrowBlock {ctx isAsync ps b} :
      Production faulty .arrowFunction ctx (.arrowFunction isAsync ps b)
      ([⟨.arrowParameters, ctx, ps⟩] ++ [⟨.block true, ctx.functionBody isAsync false, b⟩])
  | arrowExpression {ctx isAsync ps b} :
      Production faulty .arrowFunction ctx (.arrowFunction isAsync ps b)
        ([⟨.arrowParameters, ctx, ps⟩] ++ [⟨.assignment, arrowContext ctx isAsync, b⟩])
  -- Classes.
  | propertyDefinition {ctx ds n optional definite t e} :
      Production faulty .classElement ctx (.propertyDefinition ds n optional definite t e)
        (all .decorator ctx ds ++ [⟨.propertyName, ctx, n⟩] ++ opt .type ctx t
          ++ opt .assignment ctx.classInitializer e)
  | staticBlock {ctx b} : Production faulty .classElement ctx (.staticBlock b)
      [⟨.block false, ctx.classInitializer, b⟩]
  | semicolonElement {ctx} : Production faulty .classElement ctx .semicolonElement []
  | classLike {ctx placement ds n tps base is ms} :
      Production faulty (.classLike placement) ctx (.classLike placement ds n tps base is ms)
        (all .decorator ctx ds ++ opt .identifier (ctx.including [.strict]) n
          ++ optAll .typeParameter (ctx.including [.strict]) tps
          ++ opt (.suffixed true) (ctx.including [.strict]) base
          ++ all .typeReference (ctx.including [.strict]) is
          ++ all .classElement ((ctx.including [.strict]).including [.classBody]) ms)
  -- Elements of markup.
  | namespacedName {ctx a b} : Production faulty .namespacedName ctx (.jsxNamespacedName a b)
      ([⟨.name, ctx, a⟩] ++ [⟨.name, ctx, b⟩])
  | tagMember {ctx a b} : Production faulty .tagName ctx (.jsxMemberName a b)
      ([⟨.tagName, ctx, a⟩] ++ [⟨.name, ctx, b⟩])
  | embedded {ctx spreads e} : Production faulty .embedded ctx (.jsxExpression spreads e)
      (opt .expression ctx e)
  | spreadAttribute {ctx e} : Production faulty .attribute ctx (.jsxSpreadAttribute e)
      [⟨.expression, ctx, e⟩]
  | namedAttribute {ctx n v} : Production faulty .attribute ctx (.jsxAttribute n v)
      ([⟨.attributeName, ctx, n⟩] ++ opt .attributeValue ctx v)
  | attributes {ctx as} :
      Production faulty .attributes ctx (.jsxAttributes as) (all .attribute ctx as)
  | children {ctx cs} : Production faulty .children ctx (.jsxChildren cs) (all .child ctx cs)
  | opening {ctx t ts a} : Production faulty .opening ctx (.jsxOpening false t ts a)
      ([⟨.tagName, ctx, t⟩] ++ optAll .type (withConditionalTypes ctx) ts
        ++ [⟨.attributes, ctx, a⟩])
  | closing {ctx t} : Production faulty .closing ctx (.jsxClosing t) [⟨.tagName, ctx, t⟩]
  | emptyElement {ctx t ts a} : Production faulty .element ctx (.jsxOpening true t ts a)
      ([⟨.tagName, ctx.enclosed, t⟩] ++ optAll .type (withConditionalTypes ctx.enclosed) ts
        ++ [⟨.attributes, ctx.enclosed, a⟩])
  | element {ctx o cs c} : faulty ∨ Tiled o cs c →
      Production faulty .element ctx (.jsxElement o cs c)
      ([⟨.opening, ctx.enclosed, o⟩] ++ ([⟨.children, ctx.enclosed, cs⟩]
        ++ [⟨.closing, ctx.enclosed, c⟩]))
  | fragment {ctx cs} : Production faulty .element ctx (.jsxFragment cs)
      [⟨.children, ctx.enclosed, cs⟩]
  -- Primary expressions and what follows them.
  | argumentList {ctx es comma} : Production faulty .argumentList ctx (.argumentList es comma)
      (all .argument ctx.argument es)
  | coverList {ctx es comma} : Production faulty .coverList ctx (.argumentList es comma)
      (all .coverElement ctx.argument es)
  | coverSpread {ctx e} : Production faulty .covered ctx (.spread e) [⟨.coverArgument, ctx, e⟩]
  | coverConditional {ctx c t f} : c.isIdentifierOrPattern = true →
      Production faulty .coverArgument ctx (.conditional c t f)
      ([⟨.operand .comma, ctx, c⟩] ++ [⟨.assignment, ctx.branch, t⟩] ++ [⟨.assignment, ctx, f⟩])
  | asyncCall {ctx c as} : c.isWord .asyncKeyword = true → as.isArrowParameters = false →
      Production faulty .primary ctx (.call c false none as)
      ([⟨.word, ctx, c⟩] ++ [⟨.coverList, ctx, as⟩])
  | importMeta {ctx n} : Production faulty .primary ctx (.metaProperty .importKeyword n)
      [⟨.name, ctx, n⟩]
  | newTarget {ctx n} : Production faulty .newExpression ctx (.metaProperty .newKeyword n)
      [⟨.name, ctx, n⟩]
  | new {ctx c ts as} : Production faulty .newExpression ctx (.new c ts as)
      ([⟨.suffixed false, ctx, c⟩] ++ optAll .type (withConditionalTypes ctx) ts
        ++ opt .argumentList ctx as)
  | propertyAccess {ctx calls e optional n} : takesSuffixes e = true →
      Production faulty (.suffixed calls) ctx (.propertyAccess e optional n)
        ([⟨.suffixed calls, ctx, e⟩] ++ [⟨.memberName, ctx, n⟩])
  | elementAccess {ctx calls e optional a} : takesSuffixes e = true →
      Production faulty (.suffixed calls) ctx (.elementAccess e optional a)
        ([⟨.suffixed calls, ctx, e⟩] ++ [⟨.expression, ctx.argument, a⟩])
  | nonNull {ctx calls e} : takesSuffixes e = true →
      Production faulty (.suffixed calls) ctx (.nonNull e)
      [⟨.suffixed calls, ctx, e⟩]
  | taggedTemplate {ctx calls e ts q} : takesSuffixes e = true →
      Production faulty (.suffixed calls) ctx (.taggedTemplate e ts q)
        ([⟨.suffixed calls, ctx, e⟩] ++ optAll .type (withConditionalTypes ctx) ts
          ++ [⟨.template, ctx.argument, q⟩])
  | call {ctx e optional ts as} : takesSuffixes e = true →
      Production faulty (.suffixed true) ctx (.call e optional ts as)
        ([⟨.suffixed true, ctx, e⟩] ++ optAll .type (withConditionalTypes ctx) ts
          ++ [⟨.argumentList, ctx, as⟩])
  -- Operators.
  | constType {ctx n} :
      Production faulty .assertedType ctx (.typeReference n none) [⟨.word, ctx, n⟩]
  | typeAssertion {ctx p sort e t} : p.binds sort.operator = true →
      Production faulty (.operand p) ctx (.typeAssertion sort e t)
      ([⟨.operand p, ctx, e⟩] ++ [⟨.assertedType, ctx, t⟩])
  | binary {ctx p l k r} : p.binds k = true → l.CompleteBefore k →
      ¬ (k = .inKeyword ∧ ctx.has .withoutIn = true) →
      Production faulty (.operand p) ctx (.binary l k r)
      ([⟨.operand p, ctx, l⟩] ++ [⟨.operand (.ofOperator k), ctx, r⟩])
  | prefixUnary {ctx k e} : isPrefixOperator k = true →
      Production faulty .unary ctx (.prefixUnary k e) [⟨.unary, ctx, e⟩]
  | await {ctx e} : ctx.has .awaitOperator = true →
      Production faulty .unary ctx (.await e) [⟨.unary, ctx, e⟩]
  | postfixUnary {ctx k e} : k = .plusPlusToken ∨ k = .minusMinusToken →
      Production faulty .unary ctx (.postfixUnary e k) [⟨.suffixed true, ctx, e⟩]
  | conditional {ctx c t f} : c.isArrowParameters = false →
      Production faulty .assigned ctx (.conditional c t f)
        ([⟨.operand .comma, ctx, c⟩] ++ [⟨.assignment, ctx.branch.withIn, t⟩]
          ++ [⟨.assignment, ctx, f⟩])
  | assignment {ctx l k r} : l.isLeftHandSide = true →
      Production faulty .assigned ctx (.assignment l k r)
        ([⟨.operand .comma, ctx, l⟩] ++ [⟨.assignment, ctx, r⟩])
  | yield {ctx delegate e} : ctx.has .yieldOperator = true →
      Production faulty .assigned ctx (.yield delegate e) (opt .assignment ctx e)
  -- Declarations.
  | variable {ctx n definite t e} :
      Production faulty .variable ctx (.variableDeclaration n definite t e)
        ([⟨.bindingName, ctx, n⟩] ++ opt .type ctx t ++ opt .assignment ctx e)
  | variableList {ctx ds} : Production faulty .variableList ctx (.variableDeclarations ds)
      (all .variable ctx ds)
  | variableStatement {ctx lexical ds} :
      Production faulty (.variableStatement lexical) ctx (.variableStatement lexical ds)
        [⟨.variableList, ctx, ds⟩]
  | interface {ctx n tps bases ms} :
      Production faulty .declaration ctx (.interfaceDeclaration n tps bases ms)
        ([⟨.identifier, ctx, n⟩] ++ optAll .typeParameter ctx tps
          ++ all .typeReference ctx bases ++ all .typeMember (withConditionalTypes ctx) ms)
  | typeAlias {ctx n tps t} : Production faulty .declaration ctx (.typeAlias n tps t)
      ([⟨.identifier, ctx, n⟩] ++ optAll .typeParameter ctx tps ++ [⟨.type, ctx, t⟩])
  | enumMember {ctx n e} : Production faulty .enumMember ctx (.enumMember n e)
      ([⟨.propertyName, ctx, n⟩] ++ opt .assignment ctx.withIn e)
  | enumeration {ctx n ms} : Production faulty .enumeration ctx (.enumDeclaration n ms)
      ([⟨.identifier, ctx, n⟩] ++ all .enumMember ctx ms)
  | specifier {ctx direction isTypeOnly p n} :
      Production faulty .specifier ctx (.specifier direction isTypeOnly p n)
        (opt .name ctx p ++ [⟨.name, ctx, n⟩])
  | specifiers {ctx direction es} :
      Production faulty .specifiers ctx (.namedSpecifiers direction es)
      (all .specifier ctx es)
  | namespaceImport {ctx n} :
      Production faulty .importBindings ctx (.namespaceBinding .imported (some n))
      [⟨.identifier, ctx, n⟩]
  | importClause {ctx isTypeOnly n b} :
      Production faulty .importClause ctx (.importClause isTypeOnly n b)
        (opt .identifier ctx n ++ opt .importBindings ctx b)
  | importDeclaration {ctx c s} : Production faulty .importDeclaration ctx (.importDeclaration c s)
      (opt .importClause ctx c ++ [⟨.moduleName, ctx, s⟩])
  | exportNames {ctx isTypeOnly c s} :
      Production faulty .exportDeclaration ctx (.exportDeclaration isTypeOnly (some c) s none)
        ([⟨.specifiers, ctx, c⟩] ++ opt .moduleName ctx s)
  | exportedNamespace {ctx n} :
      Production faulty .exportedNamespace ctx (.namespaceBinding .exported n) (opt .name ctx n)
  | exportAll {ctx c s} :
      Production faulty .exportDeclaration ctx (.exportDeclaration false (some c) (some s) none)
        ([⟨.exportedNamespace, ctx, c⟩] ++ [⟨.moduleName, ctx, s⟩])
  | exportValue {ctx isEquals e} :
      Production faulty .exportDeclaration ctx (.exportAssignment isEquals e)
        [⟨.assignment, ctx, e⟩]
  | exportDeclared {ctx d} :
      Production faulty .exportDeclaration ctx (.exportDeclaration false none none (some d))
        [⟨.declaration, ctx, d⟩]
  -- Statements.
  | emptyStatement {ctx site} : Production faulty (.statement site) ctx .emptyStatement []
  | debuggerStatement {ctx site} : Production faulty (.statement site) ctx .debuggerStatement []
  | expressionStatement {ctx site e} :
      Production faulty (.statement site) ctx (.expressionStatement e) [⟨.expression, ctx, e⟩]
  | labeled {ctx site l s} : l.isIdentifier = true →
      Production faulty (.statement site) ctx (.labeled l s)
        ([⟨.expression, ctx, l⟩] ++ [⟨.statement .labeled, ctx, s⟩])
  | ifStatement {ctx site c t f} : Production faulty (.statement site) ctx (.ifStatement c t f)
      ([⟨.expression, ctx.withIn, c⟩] ++ [⟨.statement .branch, ctx, t⟩]
        ++ opt (.statement .branch) ctx f)
  | doStatement {ctx site s c} : Production faulty (.statement site) ctx (.doStatement s c)
      ([⟨.statement .plain, ctx, s⟩] ++ [⟨.expression, ctx.withIn, c⟩])
  | whileStatement {ctx site c s} : Production faulty (.statement site) ctx (.whileStatement c s)
      ([⟨.expression, ctx.withIn, c⟩] ++ [⟨.statement .plain, ctx, s⟩])
  | forStatement {ctx site i c u s} :
      Production faulty (.statement site) ctx (.forStatement i c u s)
      (opt .forInitializer (ctx.including [.withoutIn]) i ++ opt .expression ctx.withIn c
        ++ opt .expression ctx.withIn u ++ [⟨.statement .plain, ctx.withIn, s⟩])
  | forEach {ctx site sort isAwait i e s} :
      Production faulty (.statement site) ctx (.forEach sort isAwait i e s)
        ([⟨.forInitializer, ctx.including [.withoutIn], i⟩] ++ [⟨.expression, ctx.withIn, e⟩]
          ++ [⟨.statement .plain, ctx, s⟩])
  | jump {ctx site sort l} : Production faulty (.statement site) ctx (.jump sort l)
      (opt .identifier ctx l)
  | returnStatement {ctx site e} : faulty ∨ ctx.has .returnStatement = true →
      Production faulty (.statement site) ctx (.returnStatement e)
        (opt .expression ctx.withIn e)
  | throwStatement {ctx site e} : Production faulty (.statement site) ctx (.throwStatement e)
      [⟨.expression, ctx.withIn, e⟩]
  | withStatement {ctx site e s} : faulty ∨ ctx.isStrict = false →
      Production faulty (.statement site) ctx (.withStatement e s)
        ([⟨.expression, ctx.withIn, e⟩] ++ [⟨.statement .plain, ctx, s⟩])
  | caseClause {ctx e ss} : Production faulty .caseClause ctx (.caseClause e ss)
      (opt .expression ctx.withIn e ++ body false ⟨ctx, false, #[]⟩ ss)
  | switchStatement {ctx site e cs} :
      Production faulty (.statement site) ctx (.switchStatement e cs)
      ([⟨.expression, ctx.withIn, e⟩] ++ all .caseClause ctx cs)
  | catchClause {ctx v b} : Production faulty .catchClause ctx (.catchClause v b)
      (opt .variable ctx.withIn v ++ [⟨.block false, ctx, b⟩])
  | tryStatement {ctx site b c f} : Production faulty (.statement site) ctx (.tryStatement b c f)
      ([⟨.block false, ctx, b⟩] ++ opt .catchClause ctx c ++ opt (.block false) ctx f)

/-- A link has its base, and takes another link. -/
theorem Production.links {faulty : Prop} {calls : Bool} {ctx : Context} {form : Form Node}
    {ps : List Part} (h : Production faulty (.suffixed calls) ctx form ps) :
    ps ≠ [] ∧ ∀ header, Grammar.takesSuffixes (.mk header form) = true := by
  generalize heq : Phrase.suffixed calls = ph at h
  cases h
  case signature sort _ _ _ => cases sort <;> cases heq
  case combinedType sort _ _ _ => cases sort <;> cases heq
  all_goals cases heq
  all_goals exact ⟨by simp, fun _ => rfl⟩

end EcmaSyntax
