import EcmaSyntax.Grammar.Parse
import EcmaSyntax.Grammar.Precedence

/-! # Rules of the grammar

The rules through which the grammar refers to itself. A routine that meets a rule hands it to
`Recursion.recur`, and so can be read before the grammar as a whole exists. Most rules are nested:
each of them lies one level deeper than the routine that met it. A rule has a weight: it is met
behind a token that has been consumed since the routine began, or it ranks below that routine. -/
namespace EcmaSyntax

/-- Where a single statement stands. -/
inductive StatementSite
  | plain | branch | labeled
deriving DecidableEq

/-- How sure it is that a parenthesized list belongs to an arrow function. -/
inductive Certainty
  | no | yes | unknown
deriving DecidableEq

def Certainty.isPossible (c : Certainty) : Bool := c != .no

/-- A rule with the type of its result. -/
inductive Rule : Type → Type
  /-- A statement or declaration in a list, of a module or elsewhere. -/
  | item (inModule : Bool) (ctx : Context) : Rule Node
  | statement (ctx : Context) (site : StatementSite) : Rule Node
  /-- A declaration whose prefix has been consumed. -/
  | declaration (ctx : Context) (m : Mark) : Rule Node
  | coverElement (ctx : Context) : Rule (Option (Node × Certainty))
  | assignment (ctx : Context) : Rule Node
  | operand (ctx : Context) (precedence : Precedence) : Rule Node
  | unary (ctx : Context) : Rule Node
  | leftHandSide (ctx : Context) : Rule Node
  | newExpression (ctx : Context) : Rule Node
  | objectElement (ctx : Context) : Rule (Option Node)
  /-- A member of a class; within the outer option, none if no member begins here. -/
  | classElement (ctx : Context) : Rule (Option (Option Node))
  | type (ctx : Context) : Rule Node
  | typeOperator (ctx : Context) : Rule Node
  | typeMember (ctx : Context) : Rule (Option Node)
  | element (ctx : Context) (inExpression : Bool) : Rule Node

/-- The grammar as seen from inside. -/
class Recursion where
  recur : {α : Type} → Rule α → Parse α

export Recursion (recur)

namespace Parse

def missingType : Parse Node := do
  missing (.typeReference (← missingIdentifier) none)

end Parse

namespace Rule

/-- Whether a rule lies one level deeper than the routine that meets it. -/
def isNested {α : Type} : Rule α → Bool
  | declaration .. | operand .. | leftHandSide .. => false
  | _ => true

/-- What stands in for a rule at the limit of nesting. -/
def absent : {α : Type} → Rule α → Parse α
  | _, item .. | _, statement .. | _, declaration .. => Parse.missingStatement
  | _, coverElement _ => return none
  | _, objectElement _ => return none
  | _, classElement _ => return none
  | _, typeMember _ => return none
  | _, type _ | _, typeOperator _ => Parse.missingType
  | _, assignment _ | _, operand .. | _, unary _ | _, leftHandSide _ | _, newExpression _
  | _, element .. => Parse.missingIdentifier

/-- The rank of a rule in the grammar. A routine that has consumed nothing meets rules of lower
ranks only. -/
def rank {α : Type} : Rule α → Nat
  | element .. | newExpression _ | typeOperator _ | typeMember _ | classElement _ => 0
  | leftHandSide _ | type _ => 1
  | unary _ => 2
  | operand .. => 3
  | assignment _ => 4
  | coverElement _ | objectElement _ | statement .. => 5
  | declaration .. => 6
  | item .. => 7

/-- The weight of a rule where it is met. -/
def weight {α : Type} (rule : Rule α) (s : ParseState) : Nat := s.left * 8 + rule.rank

end Rule
end EcmaSyntax
