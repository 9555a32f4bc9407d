import EcmaSyntax.Grammar.Function

/-! # Parenthesized lists

A list between parentheses may hold the arguments of a call, a parenthesized expression or the
parameters of an arrow function, and the token that decides comes after the closing parenthesis. The
list is read once; its elements are then wrapped as arrow parameters or as arguments, and arguments
may be taken for a parenthesized expression. -/
namespace EcmaSyntax.Grammar
open Parse
variable [Recursion]

/-- Whether a colon behind a list begins a return type. In the branch of a conditional the colon may
belong to the conditional; a list that may still be anything needs an arrow behind the type. -/
def startsReturnType (ctx : Context) (certainty : Certainty) : Parse Bool := do
  if ctx.has .conditionalBranch then
    return ← lookAhead do
      advance
      let _ ← typeOrPredicate ctx
      unless ← accept .equalsGreaterThanToken do return false
      let _ ← recur (.assignment (ctx.excluding [.conditionalBranch]))
      isAt .colonToken
  if certainty == .unknown then
    return ← lookAhead do
      advance
      let _ ← typeOrPredicate ctx
      isAt .equalsGreaterThanToken
  return true

/-- The elements of a list so far, and how sure it is that they are parameters. -/
structure Cover where
  listed : Listed := {}
  certainty : Certainty := .yes

/-- One turn through the elements of a list. The last element gives the certainty. -/
def coverTurn (ctx : Context) (c : Cover) : Parse (Turn Cover) := do
  if ← atListEnd .closeParenToken then return .done c
  let start ← tokenStart
  unless (← token).canStartCoverElement do
    reportHere .argumentExpected
    return .done c
  match ← recur (.coverElement ctx) with
  | none => return .done c
  | some (element, certainty) =>
    return (← afterItem .closeParenToken start (c.listed.push element)).map (⟨·, certainty⟩)

/-- Whether a list is followed by a return type. -/
def atReturnType (ctx : Context) (certainty : Certainty) : Parse Bool :=
  isAt .colonToken <&&> startsReturnType ctx certainty

/-- What a list is, by the token behind it. -/
def coverRest (ctx : Context) (m : Mark) (typeParameters : Option (List Node)) (c : Cover) :
    Parse Node := do
  let elements := c.listed.toList
  let trailingComma := c.listed.hasTrailingComma
  unless c.certainty.isPossible do return ← node m (.argumentList elements trailingComma)
  if ← atReturnType ctx c.certainty then
    advance
    let result ← typeOrPredicate ctx
    return ← node m (.arrowParameters typeParameters elements (some result) trailingComma)
  if ← isAt .equalsGreaterThanToken then
    return ← node m (.arrowParameters typeParameters elements none trailingComma)
  node m (.argumentList elements trailingComma)

/-- Arrow parameters or an argument list that began at a mark. -/
def coverList (ctx : Context) (m : Mark) (typeParameters : Option (List Node)) : Parse Node := do
  let c ← between .openParenToken .closeParenToken (loop (coverTurn ctx.argument) {})
  coverRest ctx m typeParameters c

/-- The elements of an argument list. -/
def argumentElements (n : Node) : List Node :=
  match n.form with
  | .argumentList elements _ => elements
  | _ => []

/-- Whether a comma stands behind the last argument. -/
def endsInComma (n : Node) : Bool :=
  match n.form with
  | .argumentList _ trailingComma => trailingComma
  | _ => false

/-- What an element stands for in an expression. -/
def elementExpression (n : Node) : Node :=
  match n.form with
  | .formalParameter _ _ binding .. => binding
  | _ => n

/-- Two expressions joined by a comma. -/
def commaJoined (left right : Node) : Node :=
  .mk { range := ⟨left.range.pos, right.range.stop⟩ } (.binary left .commaToken right)

/-- The span of the closing parenthesis of an argument list. -/
def closingSpan (arguments : Node) : Span :=
  .between (arguments.range.stop - 1) arguments.range.stop

/-- Reports a comma behind the last argument. -/
def checkEnd (arguments : Node) : Parse Unit := do
  if endsInComma arguments then reportAt (closingSpan arguments) .trailingComma

/-- Reports arguments that no expression can be. -/
def checkElements (arguments : Node) : Parse Unit := do
  if (argumentElements arguments).any fun e => e.isParameter || e.isSpread then reportMissing "=>"

/-- The elements of an argument list as one expression. -/
def joinedElements (arguments : Node) : Parse Node := do
  match (argumentElements arguments).map elementExpression with
  | first :: more => return more.foldl commaJoined first
  | [] =>
    reportAt (closingSpan arguments) .expressionExpected
    missingIdentifier

/-- A parenthesized expression made of an argument list. -/
def parenthesizedOf (arguments : Node) : Parse Node := do
  let before ← reported
  checkEnd arguments
  checkElements arguments
  let inner ← joinedElements arguments
  let hasErrors := arguments.hasErrors || before < (← reported)
  return .mk { range := arguments.range, flags := .when hasErrors NodeFlag.hasErrors }
    (.parenthesized inner)

/-- A parenthesized expression, or the parameters of an arrow function. -/
def parenthesized (ctx : Context) : Parse Node := do
  let list ← coverList ctx (← mark) none
  if list.isArrowParameters then return list
  parenthesizedOf list

/-- Reports an argument that only a parameter can be. -/
def checkCall (arguments : Node) : Parse Unit := do
  if (argumentElements arguments).any (·.isParameter) then reportMissing "=>"

/-- A call of a function named `async`, or an asynchronous arrow function. -/
def asyncCallOrArrow (ctx : Context) : Parse Node := do
  let m ← mark
  let callee ← identifierToken
  let list ← coverList ctx (← mark) none
  if list.isArrowParameters then return ← arrowFunction ctx m true list
  checkCall list
  node m (.call callee false none list)

/-- Whether an angle bracket may begin the type parameters of an arrow function. Where elements are
read, a comma or a bound must follow the first of them. -/
def mayOpenTypeParameters (ctx : Context) : Parse Bool := do
  unless ctx.has .jsx do return true
  lookAhead do
    advance
    unless (← token).isIdentifierLike do return false
    advance
    isAtAny [.commaToken, .extendsKeyword]

/-- The parameters of an arrow function with type parameters. -/
def genericParameters (ctx : Context) : Parse (Option Node) := do
  let m ← mark
  let typeParameters ← typeParameters ctx
  unless ← isAt .openParenToken do return none
  let list ← coverList ctx m (some typeParameters)
  return if list.isArrowParameters then some list else none

end EcmaSyntax.Grammar
