import EcmaSyntax.Grammar.Operator

/-! # Elements of parenthesized lists

An element may be an argument or a parameter. What it looks like settles whether the list can belong
to an arrow function: a type ascription, an optional mark or a modifier makes it a parameter, a name
or a pattern leaves it open, anything else makes it an argument. -/
namespace EcmaSyntax.Grammar
open Parse
variable [Recursion]

/-- Where an element begins, and where its operand begins if three dots stand before it. -/
structure ElementStart where
  m : Mark
  operand : Option Mark := none

namespace ElementStart

def isRest (s : ElementStart) : Bool := s.operand.isSome

/-- The start of the element without its dots. -/
def inner (s : ElementStart) : Mark := s.operand.getD s.m

end ElementStart

/-- An expression as an argument, behind three dots if they are there. -/
def argumentOf (s : ElementStart) (value : Node) : Parse Node := do
  if s.isRest then node s.m (.spread value) else return value

/-- The branches of a conditional behind a name or pattern. Without the colon it is none. -/
def coverConditional (ctx : Context) (m : Mark) (condition : Node) : Parse (Option Node) := do
  let _ ← expect .questionToken
  let whenTrue ← recur (.assignment (ctx.including [.conditionalBranch]))
  unless ← accept .colonToken do return none
  let whenFalse ← recur (.assignment ctx)
  return some (← node m (.conditional condition whenTrue whenFalse))

/-- Whether a question mark followed by a token can belong to a conditional. -/
def mayOpenBranch : Kind → Bool
  | .colonToken | .commaToken | .closeParenToken | .equalsToken => false
  | k => k.canStartExpression

/-- An element that is settled to be a parameter. -/
def parameterElement (ctx : Context) (s : ElementStart) (binding : Node) (optional : Bool) :
    Parse (Node × Certainty) :=
  return (← parameterTail ctx { m := s.m, binding, rest := s.isRest, optional }, .yes)

/-- The token behind the present one. -/
def nextToken : Parse Kind := lookAhead do
  advance
  token

/-- A conditional whose condition is a name or pattern, if it is one. -/
def coverConditional? (ctx : Context) (s : ElementStart) (condition : Node) :
    Parse (Option Node) := do
  if mayOpenBranch (← nextToken) then attempt (coverConditional ctx s.inner condition)
  else return none

/-- A name or pattern before a question mark. -/
def questionedElement (ctx : Context) (s : ElementStart) (binding : Node) :
    Parse (Node × Certainty) := do
  match ← coverConditional? ctx s binding with
  | some value => return (← argumentOf s value, .no)
  | none =>
    advance
    parameterElement ctx s binding true

/-- Whether a rest element is the last before the arrow of an arrow function. -/
def closesParameters (s : ElementStart) (k : Kind) : Parse Bool :=
  tokenIs (fun _ => s.isRest && k == .closeParenToken) <&&> nextIs (isAt .equalsGreaterThanToken)

/-- What a name or pattern is, by the token behind it. -/
def bindingElement (ctx : Context) (s : ElementStart) (binding : Node) :
    Parse (Node × Certainty) := do
  let k ← token
  match k, s.isRest with
  | .questionToken, _ => questionedElement ctx s binding
  | .colonToken, _ | .equalsToken, true => parameterElement ctx s binding false
  | .equalsToken, false => return (← assignmentRest ctx s.m binding, .unknown)
  | .equalsGreaterThanToken, false => return (← assignmentRest ctx s.m binding, .no)
  | _, _ =>
    if k.isAssignmentOperator then
      let value ← assignmentRest ctx s.inner binding
      return (← argumentOf s value, .no)
    if ← closesParameters s k then
      return (← node s.m (.formalParameter [] true binding false none none), .yes)
    return (← argumentOf s binding, .unknown)

/-- A name, a pattern or any other expression, by its leftmost operand. -/
def plainElement (ctx : Context) (s : ElementStart) : Parse (Node × Certainty) := do
  let left ← operand ctx .comma
  if left.isIdentifierOrPattern then return ← bindingElement ctx s left
  let value ← assignmentRest ctx s.inner left
  return (← argumentOf s value, .no)

/-- A parameter that begins with modifiers. -/
def modifiedParameter (ctx : Context) (m : Mark) : Parse (Node × Certainty) := do
  let modifiers ← parameterModifiers
  let binding ← bindingName ctx
  let optional ← accept .questionToken
  parameterElement ctx ⟨m.withModifiers modifiers, none⟩ binding optional

/-- Whether the present token begins an expression that can be nothing but an argument. -/
def startsArgument (ctx : Context) : Parse Bool := do
  match ← token with
  | .yieldKeyword => return ctx.has .yieldOperator
  | .lessThanToken => return !ctx.has .jsx
  | _ => startsAsyncArrow ctx

def coverElement (ctx : Context) : Parse (Node × Certainty) := do
  let m ← mark
  let k ← token
  if k == .commaToken then
    reportHere .argumentExpected
    return (← missing .omitted, .no)
  if ← tokenIs Kind.isAccessModifier <&&> nextIs isBeforeBinding then
    return ← modifiedParameter ctx m
  if k == .dotDotDotToken then
    advance
    return ← plainElement ctx ⟨m, some (← mark)⟩
  if ← startsArgument ctx then return (← recur (.assignment ctx), .no)
  plainElement ctx ⟨m, none⟩

end EcmaSyntax.Grammar
