import EcmaSyntax.Grammar.Primary

/-! # Operators

Unary and binary operators, conditionals, assignments and arrow functions. Binary operators are read
by their precedence: the operand behind an operator takes the operators that bind tighter. -/
namespace EcmaSyntax.Grammar
open Parse
variable [Recursion]

/-! ## Unary and binary operators -/

/-- The word `const` in place of an asserted type. -/
def constType : Parse Node := do
  let m ← mark
  let word ← identifierToken
  node m (.typeReference word none)

/-- The assertion that an operator makes. -/
def assertionSort? : Kind → Option AssertionSort
  | .asKeyword => some .asType
  | .satisfiesKeyword => some .satisfies
  | _ => none

/-- The type behind the operator of an assertion. -/
def assertedType (ctx : Context) (sort : AssertionSort) : Parse Node := do
  if sort == .asType && (← isAt .constKeyword) then constType else recur (.type ctx)

/-- One operator behind a left operand, with what stands on its right. -/
def operation (ctx : Context) (precedence : Precedence) (m : Mark) (left : Node) :
    Parse (Turn Node) := do
  reread .greaterThan
  let operator ← token
  unless precedence.binds operator do return .done left
  if operator == .inKeyword && ctx.has .withoutIn then return .done left
  match assertionSort? operator with
  | some sort =>
    if ← afterLineBreak then return .done left
    advance
    let type ← assertedType ctx sort
    return .again (← node m (.typeAssertion sort left type))
  | none =>
    advance
    let right ← recur (.operand ctx (.ofOperator operator))
    return .again (← node m (.binary left operator right))

/-- An operand with the operators behind it that bind tighter than a level. -/
def operand (ctx : Context) (precedence : Precedence) : Parse Node := do
  let m ← mark
  loop (operation ctx precedence m) (← recur (.unary ctx))

def isPrefixOperator : Kind → Bool
  | .plusToken | .minusToken | .tildeToken | .exclamationToken | .deleteKeyword | .typeOfKeyword
  | .voidKeyword | .plusPlusToken | .minusMinusToken => true
  | _ => false

def unary (ctx : Context) : Parse Node := do
  let m ← mark
  let operator ← token
  if isPrefixOperator operator then
    advance
    let inner ← recur (.unary ctx)
    return ← node m (.prefixUnary operator inner)
  if operator == .awaitKeyword && ctx.has .awaitOperator then
    advance
    let inner ← recur (.unary ctx)
    return ← node m (.await inner)
  let inner ← leftHandSide ctx
  let operator ← token
  if (operator == .plusPlusToken || operator == .minusMinusToken) && !(← afterLineBreak) then
    advance
    return ← node m (.postfixUnary inner operator)
  return inner

/-! ## Conditionals and assignments -/

/-- The branch of a conditional behind the colon. -/
def falseBranch (ctx : Context) : Parse Node := do
  if ← expect .colonToken then recur (.assignment ctx) else missingIdentifier

/-- The branches of a conditional, from the question mark on. -/
def conditionalRest (ctx : Context) (m : Mark) (condition : Node) : Parse Node := do
  advance
  let whenTrue ←
    recur (.assignment ((ctx.including [.conditionalBranch]).excluding [.withoutIn]))
  let whenFalse ← falseBranch ctx
  node m (.conditional condition whenTrue whenFalse)

/-- An assignment whose leftmost operand has been read. -/
def assignmentRest (ctx : Context) (m : Mark) (left : Node) : Parse Node := do
  let operator ← token
  if left.isIdentifier && operator == .equalsGreaterThanToken then
    return ← arrowFunction ctx m false (simpleParameters left)
  if left.isArrowParameters then return ← arrowFunction ctx m false left
  if operator.isAssignmentOperator && left.isLeftHandSide then
    advance
    let right ← recur (.assignment ctx)
    return ← node m (.assignment left operator right)
  if operator == .questionToken then return ← conditionalRest ctx m left
  return left

def yieldExpression (ctx : Context) : Parse Node := do
  let m ← mark
  advance
  let k ← token
  if !(← afterLineBreak) && (k == .asteriskToken || k.canStartExpression) then
    let delegate ← accept .asteriskToken
    let inner ← recur (.assignment ctx)
    node m (.yield delegate (some inner))
  else node m (.yield false none)

/-- The parameters of an arrow function with type parameters, where they can be meant. -/
def genericArrow? (ctx : Context) : Parse (Option Node) := do
  if ← isAt .lessThanToken <&&> mayOpenTypeParameters ctx then attempt (genericParameters ctx)
  else return none

/-- An asynchronous arrow function with a single parameter, from the word `async` on. -/
def asyncArrow (ctx : Context) (m : Mark) : Parse Node := do
  advance
  let parameter ← identifier (ctx.including [.awaitOperator])
  arrowFunction ctx m true (simpleParameters parameter)

def assignment (ctx : Context) : Parse Node := do
  if (← isAt .yieldKeyword) && ctx.has .yieldOperator then return ← yieldExpression ctx
  let m ← mark
  if let some parameters ← genericArrow? ctx then return ← arrowFunction ctx m false parameters
  if ← startsAsyncArrow ctx then return ← asyncArrow ctx m
  assignmentRest ctx m (← operand ctx .comma)

end EcmaSyntax.Grammar
