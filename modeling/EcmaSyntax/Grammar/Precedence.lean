import EcmaSyntax.Kind.Basic

/-! # Precedence of operators

The levels from the loosest to the tightest. Only those from the nullish operator to the power
operator belong to binary operators. -/
namespace EcmaSyntax

inductive Precedence
  | comma | spread | yield | assignment | conditional | nullishCoalescing | logicalOr | logicalAnd
  | bitwiseOr | bitwiseXor | bitwiseAnd | equality | relational | shift | additive
  | multiplicative | exponentiation | unary | update | leftHandSide | member | primary | highest
  | invalid
deriving DecidableEq

namespace Precedence

/-- The number of a level; what is no operator has the highest. -/
def level : Precedence → Nat
  | invalid => 255
  | p => p.ctorIdx

/-- The written name of a level. -/
def name : Precedence → String
  | comma => "Comma"
  | spread => "Spread"
  | yield => "Yield"
  | assignment => "Assignment"
  | conditional => "Conditional"
  | nullishCoalescing => "NullishCoalescing"
  | logicalOr => "LogicalOr"
  | logicalAnd => "LogicalAnd"
  | bitwiseOr => "BitwiseOr"
  | bitwiseXor => "BitwiseXor"
  | bitwiseAnd => "BitwiseAnd"
  | equality => "Equality"
  | relational => "Relational"
  | shift => "Shift"
  | additive => "Additive"
  | multiplicative => "Multiplicative"
  | exponentiation => "Exponentiation"
  | unary => "Unary"
  | update => "Update"
  | leftHandSide => "LeftHandSide"
  | member => "Member"
  | primary => "Primary"
  | highest => "Highest"
  | invalid => "Invalid"

def isBinary (p : Precedence) : Bool :=
  nullishCoalescing.level ≤ p.level && p.level ≤ exponentiation.level

/-- The level of a token between two operands. -/
def ofOperator : Kind → Precedence
  | .questionQuestionToken => nullishCoalescing
  | .barBarToken => logicalOr
  | .ampersandAmpersandToken => logicalAnd
  | .barToken => bitwiseOr
  | .caretToken => bitwiseXor
  | .ampersandToken => bitwiseAnd
  | .equalsEqualsToken | .exclamationEqualsToken | .equalsEqualsEqualsToken
  | .exclamationEqualsEqualsToken => equality
  | .lessThanToken | .greaterThanToken | .lessThanEqualsToken | .greaterThanEqualsToken
  | .instanceOfKeyword | .inKeyword | .asKeyword | .satisfiesKeyword => relational
  | .lessThanLessThanToken | .greaterThanGreaterThanToken
  | .greaterThanGreaterThanGreaterThanToken => shift
  | .plusToken | .minusToken => additive
  | .asteriskToken | .slashToken | .percentToken => multiplicative
  | .asteriskAsteriskToken => exponentiation
  | _ => invalid

/-- Whether an operator takes an operand that has been read behind an operator of the level `p`.
The power operator groups to the right, all others to the left. -/
def binds (p : Precedence) (operator : Kind) : Bool :=
  let own := ofOperator operator
  own.isBinary
    && if operator == .asteriskAsteriskToken then p.level ≤ own.level else p.level < own.level

end Precedence
end EcmaSyntax
