/-! # Messages

The causes of all diagnostics, each with its code, its category and its wording. A wording may hold
numbered places for arguments, written as a number in braces. -/
namespace EcmaSyntax

/-- How serious a diagnostic is. -/
inductive Category
  | warning | error | suggestion | message
deriving DecidableEq

/-- The written name of a category. -/
def Category.name : Category → String
  | warning => "warning"
  | error => "error"
  | suggestion => "suggestion"
  | message => "message"

/-- The category with a written name. -/
def Category.ofName? : String → Option Category
  | "warning" => some warning
  | "error" => some error
  | "suggestion" => some suggestion
  | "message" => some message
  | _ => none

/-- The cause of a diagnostic. -/
inductive Message
  | unterminatedString | identifierExpected | tokenExpected | trailingComma | commentEndExpected
  | elementAccessArgumentExpected | unexpectedToken | commaAfterRest | restNotLast
  | classMemberExpected | withInStrictCode | returnOutsideFunction | expressionExpected
  | typeExpected | invalidCharacter | statementExpected | caseOrDefaultExpected
  | typeMemberExpected | enumMemberExpected | argumentExpected | parameterExpected
  | stringExpected | lineBreakNotPermitted | unterminatedTemplate | unterminatedRegularExpression
  | lineBreakBeforeArrow | misplacedAbstract | functionInStrictBody | functionWithoutWebCompat
  | functionInSloppyBody | reservedWord | unexpectedName | importOutsideModule
  | exportOutsideModule | classAsBody | nestingTooDeep | unclosedJsxElement
  | mismatchedJsxClosing | privateNameOutsideClass | unnecessaryUseStrict
deriving DecidableEq

namespace Message

/-- All messages, by code within each group. -/
def all : List Message := [
  .unterminatedString, .identifierExpected, .tokenExpected, .trailingComma, .commentEndExpected,
  .elementAccessArgumentExpected, .unexpectedToken, .commaAfterRest, .restNotLast,
  .classMemberExpected, .withInStrictCode, .returnOutsideFunction, .expressionExpected,
  .typeExpected, .invalidCharacter, .statementExpected, .caseOrDefaultExpected,
  .typeMemberExpected, .enumMemberExpected, .argumentExpected, .parameterExpected,
  .stringExpected, .lineBreakNotPermitted, .unterminatedTemplate, .unterminatedRegularExpression,
  .lineBreakBeforeArrow, .misplacedAbstract, .functionInStrictBody, .functionWithoutWebCompat,
  .functionInSloppyBody, .reservedWord, .unexpectedName, .importOutsideModule,
  .exportOutsideModule, .classAsBody, .nestingTooDeep, .unclosedJsxElement,
  .mismatchedJsxClosing, .privateNameOutsideClass, .unnecessaryUseStrict]

/-- Whether the grammar is what finds it, and not the scanner or the guard of nesting. -/
def isGrammatical : Message → Bool
  | unterminatedString | unterminatedTemplate | unterminatedRegularExpression | invalidCharacter
  | commentEndExpected | nestingTooDeep => false
  | _ => true

def code : Message → Nat
  | unterminatedString => 1002
  | identifierExpected => 1003
  | tokenExpected => 1005
  | trailingComma => 1009
  | commentEndExpected => 1010
  | elementAccessArgumentExpected => 1011
  | unexpectedToken => 1012
  | commaAfterRest => 1013
  | restNotLast => 1014
  | classMemberExpected => 1068
  | withInStrictCode => 1101
  | returnOutsideFunction => 1108
  | expressionExpected => 1109
  | typeExpected => 1110
  | invalidCharacter => 1127
  | statementExpected => 1128
  | caseOrDefaultExpected => 1130
  | typeMemberExpected => 1131
  | enumMemberExpected => 1132
  | argumentExpected => 1135
  | parameterExpected => 1138
  | stringExpected => 1141
  | lineBreakNotPermitted => 1142
  | unterminatedTemplate => 1160
  | unterminatedRegularExpression => 1161
  | lineBreakBeforeArrow => 1200
  | misplacedAbstract => 1242
  | functionInStrictBody => 1250
  | functionWithoutWebCompat => 1251
  | functionInSloppyBody => 1252
  | reservedWord => 1359
  | unexpectedName => 1434
  | importOutsideModule => 1471
  | exportOutsideModule => 1472
  | classAsBody => 1473
  | nestingTooDeep => 1474
  | unclosedJsxElement => 17008
  | mismatchedJsxClosing => 17002
  | privateNameOutsideClass => 18016
  | unnecessaryUseStrict => 90001

/-- Only the remark on a needless directive is a warning. -/
def category : Message → Category
  | unnecessaryUseStrict => .warning
  | _ => .error

/-- The wording, with places for arguments. -/
def template : Message → String
  | unterminatedString => "Unterminated string literal."
  | identifierExpected => "Identifier expected."
  | tokenExpected => "'\x7b0\x7d' expected."
  | trailingComma => "Trailing comma not allowed."
  | commentEndExpected => "'*/' expected."
  | elementAccessArgumentExpected => "An element access expression should take an argument."
  | unexpectedToken => "Unexpected token."
  | commaAfterRest => "A rest parameter or binding pattern may not have a trailing comma."
  | restNotLast => "A rest parameter must be last in a parameter list."
  | classMemberExpected =>
    "Unexpected token. A constructor, method, accessor, or property was expected."
  | withInStrictCode => "'with' statements are not allowed in strict mode."
  | returnOutsideFunction => "A 'return' statement can only be used within a function body."
  | expressionExpected => "Expression expected."
  | typeExpected => "Type expected."
  | invalidCharacter => "Invalid character."
  | statementExpected => "Declaration or statement expected."
  | caseOrDefaultExpected => "'case' or 'default' expected."
  | typeMemberExpected => "Property or signature expected."
  | enumMemberExpected => "Enum member expected."
  | argumentExpected => "Argument expression expected."
  | parameterExpected => "Parameter declaration expected."
  | stringExpected => "String literal expected."
  | lineBreakNotPermitted => "Line break not permitted here."
  | unterminatedTemplate => "Unterminated template literal."
  | unterminatedRegularExpression => "Unterminated regular expression literal."
  | lineBreakBeforeArrow => "Line terminator not permitted before arrow."
  | misplacedAbstract =>
    "'abstract' modifier can only appear on a class, method, or property declaration."
  | functionInStrictBody =>
    "In strict mode code, functions can only be declared at top level or inside a block."
  | functionWithoutWebCompat =>
    "Without web compatibility enabled, functions can not be declared at top level, "
      ++ "inside a block, or as the body of an if statement."
  | functionInSloppyBody =>
    "In non-strict mode code, functions can only be declared at top level, inside a "
      ++ "block, or as the body of an if statement."
  | reservedWord =>
    "Identifier expected. '\x7b0\x7d' is a reserved word that cannot be used here."
  | unexpectedName => "Unexpected keyword or identifier."
  | importOutsideModule => "The 'import' keyword can only be used with the module goal."
  | exportOutsideModule => "The 'export' keyword can only be used with the module goal."
  | classAsBody => "Class declaration cannot appear in single-statement context."
  | nestingTooDeep => "Maximum nesting depth exceeded."
  | unclosedJsxElement => "JSX element '\x7b0\x7d' has no corresponding closing tag."
  | mismatchedJsxClosing => "Expected corresponding JSX closing tag for '\x7b0\x7d'."
  | privateNameOutsideClass => "Private identifiers are not allowed outside class bodies."
  | unnecessaryUseStrict => "'use strict' is unnecessary inside of modules."

/-- The fixed name of a message. -/
def name : Message → String
  | unterminatedString => "UNTERMINATED_STRING_LITERAL"
  | identifierExpected => "IDENTIFIER_EXPECTED"
  | tokenExpected => "_0_EXPECTED"
  | trailingComma => "TRAILING_COMMA_NOT_ALLOWED"
  | commentEndExpected => "ASTERISK_SLASH_EXPECTED"
  | elementAccessArgumentExpected => "AN_ELEMENT_ACCESS_EXPRESSION_SHOULD_TAKE_AN_ARGUMENT"
  | unexpectedToken => "UNEXPECTED_TOKEN"
  | commaAfterRest => "A_REST_PARAMETER_OR_BINDING_PATTERN_MAY_NOT_HAVE_A_TRAILING_COMMA"
  | restNotLast => "A_REST_PARAMETER_MUST_BE_LAST_IN_A_PARAMETER_LIST"
  | classMemberExpected => "UNEXPECTED_TOKEN_CLASS_MEMBER_EXPECTED"
  | withInStrictCode => "WITH_STATEMENTS_ARE_NOT_ALLOWED_IN_STRICT_MODE"
  | returnOutsideFunction => "A_RETURN_STATEMENT_CAN_ONLY_BE_USED_WITHIN_A_FUNCTION_BODY"
  | expressionExpected => "EXPRESSION_EXPECTED"
  | typeExpected => "TYPE_EXPECTED"
  | invalidCharacter => "INVALID_CHARACTER"
  | statementExpected => "DECLARATION_OR_STATEMENT_EXPECTED"
  | caseOrDefaultExpected => "CASE_OR_DEFAULT_EXPECTED"
  | typeMemberExpected => "PROPERTY_OR_SIGNATURE_EXPECTED"
  | enumMemberExpected => "ENUM_MEMBER_EXPECTED"
  | argumentExpected => "ARGUMENT_EXPRESSION_EXPECTED"
  | parameterExpected => "PARAMETER_DECLARATION_EXPECTED"
  | stringExpected => "STRING_LITERAL_EXPECTED"
  | lineBreakNotPermitted => "LINE_BREAK_NOT_PERMITTED_HERE"
  | unterminatedTemplate => "UNTERMINATED_TEMPLATE_LITERAL"
  | unterminatedRegularExpression => "UNTERMINATED_REGULAR_EXPRESSION_LITERAL"
  | lineBreakBeforeArrow => "LINE_TERMINATOR_NOT_PERMITTED_BEFORE_ARROW"
  | misplacedAbstract =>
    "ABSTRACT_MODIFIER_CAN_ONLY_APPEAR_ON_A_CLASS_METHOD_OR_PROPERTY_DECLARATION"
  | functionInStrictBody =>
    "IN_STRICT_MODE_CODE_FUNCTIONS_CAN_ONLY_BE_DECLARED_AT_TOP_LEVEL_OR_INSIDE_A_BLOCK"
  | functionWithoutWebCompat =>
    "WITHOUT_WEB_COMPATIBILITY_FUNCTIONS_CAN_NOT_BE_DECLARED_AS_THE_BODY_OF_A_STATEMENT"
  | functionInSloppyBody =>
    "IN_NON_STRICT_MODE_CODE_FUNCTIONS_CAN_ONLY_BE_DECLARED_AT_TOP_LEVEL_INSIDE_A_"
      ++ "BLOCK_OR_AS_THE_BODY_OF_AN_IF_STATEMENT"
  | reservedWord => "IDENTIFIER_EXPECTED_0_IS_A_RESERVED_WORD"
  | unexpectedName => "UNEXPECTED_KEYWORD_OR_IDENTIFIER"
  | importOutsideModule => "THE_IMPORT_KEYWORD_CAN_ONLY_BE_USED_WITH_THE_MODULE_GOAL"
  | exportOutsideModule => "THE_EXPORT_KEYWORD_CAN_ONLY_BE_USED_WITH_THE_MODULE_GOAL"
  | classAsBody => "CLASS_DECLARATION_CANNOT_APPEAR_IN_SINGLE_STATEMENT_CONTEXT"
  | nestingTooDeep => "MAXIMUM_NESTING_DEPTH_EXCEEDED"
  | unclosedJsxElement => "JSX_ELEMENT_0_HAS_NO_CORRESPONDING_CLOSING_TAG"
  | mismatchedJsxClosing => "EXPECTED_CORRESPONDING_JSX_CLOSING_TAG_FOR_0"
  | privateNameOutsideClass => "PRIVATE_IDENTIFIERS_ARE_NOT_ALLOWED_OUTSIDE_CLASS_BODIES"
  | unnecessaryUseStrict => "UNNECESSARY_USE_STRICT"

theorem mem_all (m : Message) : m ∈ all := by cases m <;> decide

/-- No two messages share a code. -/
theorem code_injective {m m' : Message} (h : m.code = m'.code) : m = m' :=
  have hall : ∀ m ∈ all, ∀ m' ∈ all, m.code = m'.code → m = m' := by decide +kernel
  hall m m.mem_all m' m'.mem_all h

/-- The message with a fixed name. -/
def ofName? (text : String) : Option Message := all.find? (·.name == text)

end Message
end EcmaSyntax
