import EcmaSyntax.Flag.Basic
import EcmaSyntax.Kind.Basic

/-! # What a token can do

Grammar decisions test membership of the next token in a named class, such as the tokens that may
start an expression. The classes of a token are collected in one set of flags. -/
namespace EcmaSyntax

/-- Classes of tokens. -/
inductive TokenClass
  | identifierLike | keyword | reserved | futureReserved | contextual | assignOp | ellipsis | comma
  | accessModifier | binaryOp | unaryOp | literal | patternStart | expressionStart
  | statementStart | memberOrCall | coverElementStart
deriving DecidableEq

abbrev TokenClasses := FlagSet TokenClass

namespace TokenClass

def bit : TokenClass → Nat
  | identifierLike => 0
  | keyword => 1
  | reserved => 2
  | futureReserved => 3
  | contextual => 4
  | assignOp => 5
  | ellipsis => 6
  | comma => 7
  | accessModifier => 8
  | binaryOp => 9
  | unaryOp => 10
  | literal => 11
  | patternStart => 12
  | expressionStart => 13
  | statementStart => 14
  | memberOrCall => 15
  | coverElementStart => 16

instance : FlagFamily TokenClass where
  bit := bit
  familyName := "TokenCategory"
  named :=
    [("NONE", []), ("IDENTIFIER_LIKE", [identifierLike]), ("KEYWORD", [keyword]),
      ("RESERVED", [reserved]), ("FUTURE_RESERVED", [futureReserved]),
      ("CONTEXTUAL", [contextual]), ("ASSIGN_OP", [assignOp]), ("ELLIPSIS", [ellipsis]),
      ("COMMA", [comma]), ("ACCESS_MODIFIER", [accessModifier]), ("BINARY_OP", [binaryOp]),
      ("UNARY_OP", [unaryOp]), ("LITERAL", [literal]), ("PATTERN_START", [patternStart]),
      ("EXPRESSION_START", [expressionStart]), ("STATEMENT_START", [statementStart]),
      ("MEMBER_OR_CALL", [memberOrCall]), ("COVER_ELEMENT_START", [coverElementStart])]

end TokenClass

namespace Kind

/-- Whether a kind stands between two others in the list of kinds, ends included. -/
def between (first last k : Kind) : Bool := first.index ≤ k.index && k.index ≤ last.index

def isAnyKeyword : Kind → Bool := between .breakKeyword .ofKeyword

/-- Words that are never identifiers. -/
def isReservedWord : Kind → Bool := between .breakKeyword .withKeyword

/-- Words reserved in strict code only. -/
def isFutureReservedWord : Kind → Bool := between .implementsKeyword .yieldKeyword

def isContextualKeyword : Kind → Bool := between .abstractKeyword .ofKeyword

def isPunctuation : Kind → Bool := between .openBraceToken .questionQuestionEqualsToken

def isLiteral : Kind → Bool := between .numericLiteral .noSubstitutionTemplateLiteral

def isAssignmentOperator : Kind → Bool := between .equalsToken .questionQuestionEqualsToken

def isTypeNode : Kind → Bool := between .typePredicate .literalType

/-- Token kinds come before all node kinds. -/
def isToken (k : Kind) : Bool := k.index < Kind.scriptBody.index

def isLogicalAssignment : Kind → Bool
  | .barBarEqualsToken | .ampersandAmpersandEqualsToken | .questionQuestionEqualsToken => true
  | _ => false

def isModifier : Kind → Bool
  | .abstractKeyword | .accessorKeyword | .asyncKeyword | .constKeyword | .declareKeyword
  | .defaultKeyword | .exportKeyword | .overrideKeyword | .privateKeyword | .protectedKeyword
  | .publicKeyword | .readonlyKeyword | .staticKeyword => true
  | _ => false

/-- Keywords that name a built-in type. -/
def isKeywordType : Kind → Bool
  | .anyKeyword | .unknownKeyword | .stringKeyword | .numberKeyword | .bigIntKeyword
  | .booleanKeyword | .symbolKeyword | .objectKeyword | .neverKeyword | .undefinedKeyword
  | .voidKeyword | .nullKeyword => true
  | _ => false

def isBinaryOperator : Kind → Bool
  | .questionQuestionToken | .barBarToken | .ampersandAmpersandToken | .barToken | .caretToken
  | .ampersandToken | .equalsEqualsToken | .exclamationEqualsToken | .equalsEqualsEqualsToken
  | .exclamationEqualsEqualsToken | .lessThanToken | .greaterThanToken | .lessThanEqualsToken
  | .greaterThanEqualsToken | .instanceOfKeyword | .inKeyword | .asKeyword | .satisfiesKeyword
  | .lessThanLessThanToken | .greaterThanGreaterThanToken
  | .greaterThanGreaterThanGreaterThanToken | .plusToken | .minusToken | .asteriskToken
  | .slashToken | .percentToken | .asteriskAsteriskToken => true
  | _ => false

def isUnaryOperator : Kind → Bool
  | .plusToken | .minusToken | .tildeToken | .exclamationToken | .plusPlusToken
  | .minusMinusToken | .deleteKeyword | .typeOfKeyword | .voidKeyword => true
  | _ => false

/-- Expression starts that are neither identifiers, literals nor unary operators. -/
def isOtherExpressionStart : Kind → Bool
  | .templateHead | .openParenToken | .openBracketToken | .openBraceToken | .functionKeyword
  | .classKeyword | .newKeyword | .slashToken | .slashEqualsToken | .thisKeyword | .superKeyword
  | .importKeyword | .lessThanToken => true
  | _ => false

/-- Tokens that start a statement but no expression. -/
def isStatementKeyword : Kind → Bool
  | .varKeyword | .constKeyword | .ifKeyword | .doKeyword | .whileKeyword | .forKeyword
  | .continueKeyword | .breakKeyword | .returnKeyword | .withKeyword | .switchKeyword
  | .throwKeyword | .tryKeyword | .catchKeyword | .finallyKeyword | .debuggerKeyword
  | .semicolonToken | .exportKeyword | .enumKeyword | .atToken => true
  | _ => false

/-- Modifiers that a parameter may carry. -/
def isAccessModifier : Kind → Bool
  | .publicKeyword | .privateKeyword | .protectedKeyword | .readonlyKeyword
  | .overrideKeyword => true
  | _ => false

/-- Identifiers, and keywords that may be used as one. -/
def isIdentifierLike (k : Kind) : Bool :=
  k == .identifier || k.isFutureReservedWord || k.isContextualKeyword

/-- Identifiers and keywords: all that is spelled like a name. -/
def isName (k : Kind) : Bool := k == .identifier || k.isAnyKeyword

/-- Literal tokens and the keywords that stand for a value. -/
def isLiteralLike : Kind → Bool
  | .trueKeyword | .falseKeyword | .nullKeyword => true
  | k => k.isLiteral

def isPatternStart : Kind → Bool
  | .openBracketToken | .openBraceToken => true
  | _ => false

def canStartExpression (k : Kind) : Bool :=
  k.isIdentifierLike || k.isLiteralLike || k.isUnaryOperator || k.isOtherExpressionStart

def canStartStatement (k : Kind) : Bool := k.canStartExpression || k.isStatementKeyword

/-- Starts of an element of a parenthesized list. -/
def canStartCoverElement : Kind → Bool
  | .dotDotDotToken | .commaToken => true
  | k => k.canStartExpression

/-- The tokens after which `import` is an expression. -/
def isMemberOrCallStart : Kind → Bool
  | .openParenToken | .dotToken => true
  | _ => false

/-- Starts of an identifier or of a binding pattern. -/
def isIdentifierOrPatternStart (k : Kind) : Bool := k.isIdentifierLike || k.isPatternStart

/-- Declaration keywords accepted after `declare` and `abstract`. -/
def canFollowDeclareOrAbstract : Kind → Bool
  | .classKeyword | .functionKeyword | .asyncKeyword | .varKeyword | .letKeyword
  | .constKeyword | .exportKeyword | .importKeyword | .interfaceKeyword | .typeKeyword
  | .enumKeyword => true
  | _ => false

/-- All classes that a token belongs to. -/
def classes (k : Kind) : TokenClasses :=
  .unionOf [
    .when k.isIdentifierLike TokenClass.identifierLike,
    .when k.isAnyKeyword TokenClass.keyword,
    .when k.isReservedWord TokenClass.reserved,
    .when k.isFutureReservedWord TokenClass.futureReserved,
    .when k.isContextualKeyword TokenClass.contextual,
    .when k.isAssignmentOperator TokenClass.assignOp,
    .when (k == .dotDotDotToken) TokenClass.ellipsis,
    .when (k == .commaToken) TokenClass.comma,
    .when k.isAccessModifier TokenClass.accessModifier,
    .when k.isBinaryOperator TokenClass.binaryOp,
    .when k.isUnaryOperator TokenClass.unaryOp,
    .when k.isLiteralLike TokenClass.literal,
    .when k.isPatternStart TokenClass.patternStart,
    .when k.canStartExpression TokenClass.expressionStart,
    .when k.canStartStatement TokenClass.statementStart,
    .when k.isMemberOrCallStart TokenClass.memberOrCall,
    .when k.canStartCoverElement TokenClass.coverElementStart]

/-- The tests of the classification that hold of a kind, by name. -/
def properties (k : Kind) : List String :=
  [("keyword", k.isAnyKeyword), ("reserved_word", k.isReservedWord),
    ("future_reserved_word", k.isFutureReservedWord),
    ("contextual_keyword", k.isContextualKeyword), ("punctuation", k.isPunctuation),
    ("literal", k.isLiteral), ("assignment_operator", k.isAssignmentOperator),
    ("logical_assignment", k.isLogicalAssignment), ("type_node", k.isTypeNode),
    ("token", k.isToken), ("modifier_kind", k.isModifier), ("keyword_type", k.isKeywordType),
    ("identifier_like", k.isIdentifierLike), ("can_start_expression", k.canStartExpression),
    ("can_start_statement", k.canStartStatement),
    ("can_start_cover_element", k.canStartCoverElement),
    ("member_or_call_start", k.isMemberOrCallStart), ("access_modifier", k.isAccessModifier),
    ("identifier_or_pattern_start", k.isIdentifierOrPatternStart),
    ("can_follow_declare_or_abstract", k.canFollowDeclareOrAbstract)].filterMap
      fun (property, holds) => if holds then some property else none

end Kind
end EcmaSyntax
