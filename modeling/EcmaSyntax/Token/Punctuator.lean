import EcmaSyntax.Text.Classes
import EcmaSyntax.Token.Lexeme

/-! # Punctuators

The longest punctuator is taken, with three exceptions. A greater-than sign stands alone until an
operator is asked for, so that lists of type arguments close one at a time; a less-than sign joins
with a slash only among the children of an element; and `?.` before a digit is a question mark. -/
namespace EcmaSyntax.Lexeme

/-- The kind and length of the punctuator at the front of a text. -/
def punctuator? : List Char → Option (Kind × Nat)
  | '(' :: _ => some (.openParenToken, 1)
  | ')' :: _ => some (.closeParenToken, 1)
  | '{' :: _ => some (.openBraceToken, 1)
  | '}' :: _ => some (.closeBraceToken, 1)
  | '[' :: _ => some (.openBracketToken, 1)
  | ']' :: _ => some (.closeBracketToken, 1)
  | ';' :: _ => some (.semicolonToken, 1)
  | ',' :: _ => some (.commaToken, 1)
  | '~' :: _ => some (.tildeToken, 1)
  | '@' :: _ => some (.atToken, 1)
  | ':' :: _ => some (.colonToken, 1)
  | '.' :: '.' :: '.' :: _ => some (.dotDotDotToken, 3)
  | '.' :: _ => some (.dotToken, 1)
  | '?' :: '?' :: '=' :: _ => some (.questionQuestionEqualsToken, 3)
  | '?' :: '?' :: _ => some (.questionQuestionToken, 2)
  | '?' :: '.' :: rest =>
    if rest.head?.any Text.isDecimalDigit then some (.questionToken, 1)
    else some (.questionDotToken, 2)
  | '?' :: _ => some (.questionToken, 1)
  | '<' :: '<' :: '=' :: _ => some (.lessThanLessThanEqualsToken, 3)
  | '<' :: '<' :: _ => some (.lessThanLessThanToken, 2)
  | '<' :: '=' :: _ => some (.lessThanEqualsToken, 2)
  | '<' :: _ => some (.lessThanToken, 1)
  | '>' :: _ => some (.greaterThanToken, 1)
  | '=' :: '=' :: '=' :: _ => some (.equalsEqualsEqualsToken, 3)
  | '=' :: '=' :: _ => some (.equalsEqualsToken, 2)
  | '=' :: '>' :: _ => some (.equalsGreaterThanToken, 2)
  | '=' :: _ => some (.equalsToken, 1)
  | '!' :: '=' :: '=' :: _ => some (.exclamationEqualsEqualsToken, 3)
  | '!' :: '=' :: _ => some (.exclamationEqualsToken, 2)
  | '!' :: _ => some (.exclamationToken, 1)
  | '+' :: '+' :: _ => some (.plusPlusToken, 2)
  | '+' :: '=' :: _ => some (.plusEqualsToken, 2)
  | '+' :: _ => some (.plusToken, 1)
  | '-' :: '-' :: _ => some (.minusMinusToken, 2)
  | '-' :: '=' :: _ => some (.minusEqualsToken, 2)
  | '-' :: _ => some (.minusToken, 1)
  | '*' :: '*' :: '=' :: _ => some (.asteriskAsteriskEqualsToken, 3)
  | '*' :: '*' :: _ => some (.asteriskAsteriskToken, 2)
  | '*' :: '=' :: _ => some (.asteriskEqualsToken, 2)
  | '*' :: _ => some (.asteriskToken, 1)
  | '/' :: '=' :: _ => some (.slashEqualsToken, 2)
  | '/' :: _ => some (.slashToken, 1)
  | '%' :: '=' :: _ => some (.percentEqualsToken, 2)
  | '%' :: _ => some (.percentToken, 1)
  | '&' :: '&' :: '=' :: _ => some (.ampersandAmpersandEqualsToken, 3)
  | '&' :: '&' :: _ => some (.ampersandAmpersandToken, 2)
  | '&' :: '=' :: _ => some (.ampersandEqualsToken, 2)
  | '&' :: _ => some (.ampersandToken, 1)
  | '|' :: '|' :: '=' :: _ => some (.barBarEqualsToken, 3)
  | '|' :: '|' :: _ => some (.barBarToken, 2)
  | '|' :: '=' :: _ => some (.barEqualsToken, 2)
  | '|' :: _ => some (.barToken, 1)
  | '^' :: '=' :: _ => some (.caretEqualsToken, 2)
  | '^' :: _ => some (.caretToken, 1)
  | _ => none

/-- The operator that a greater-than sign forms with the characters behind it, and their
number. -/
def greaterThan : List Char → Kind × Nat
  | '>' :: '>' :: '=' :: _ => (.greaterThanGreaterThanGreaterThanEqualsToken, 3)
  | '>' :: '>' :: _ => (.greaterThanGreaterThanGreaterThanToken, 2)
  | '>' :: '=' :: _ => (.greaterThanGreaterThanEqualsToken, 2)
  | '>' :: _ => (.greaterThanGreaterThanToken, 1)
  | '=' :: _ => (.greaterThanEqualsToken, 1)
  | _ => (.greaterThanToken, 0)

end EcmaSyntax.Lexeme
