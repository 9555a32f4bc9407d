import EcmaSyntax.Grammar.Name

/-! # Lists

Lists between commas, operands of the comma operator, and lists of statements with their
directives. A list goes on as long as each of its turns consumes a token. -/
namespace EcmaSyntax.Grammar
open Parse

/-- The items of a list so far, and the comma behind the last of them if the list ends there. -/
structure Listed where
  items : Array Node := #[]
  trailingComma : Option Span := none

namespace Listed

def push (l : Listed) (n : Node) : Listed := { l with items := l.items.push n }

def toList (l : Listed) : List Node := l.items.toList

def hasTrailingComma (l : Listed) : Bool := l.trailingComma.isSome

end Listed

/-- Whether a list ends before the present token. -/
def atListEnd (close : Kind) : Parse Bool := isAtAny [close, .endOfFileToken]

/-- Goes on behind an item that started at an offset. Without a comma the list goes on only if the
item consumed a token. -/
def afterItem (close : Kind) (start : Nat) (l : Listed) : Parse (Turn Listed) := do
  if ← isAt close then return .done l
  let comma ← tokenSpan
  if ← accept .commaToken then
    return .again { l with trailingComma := if ← isAt close then some comma else none }
  reportExpected .commaToken
  return if (← tokenStart) == start then .done l else .again l

/-- One turn through items between commas. An item is given those before it; if there is none, the
list ends. -/
def commaTurn (close : Kind) (item : Array Node → Parse (Option Node)) (l : Listed) :
    Parse (Turn Listed) := do
  if ← atListEnd close then return .done l
  let start ← tokenStart
  match ← item l.items with
  | none => return .done l
  | some n => afterItem close start (l.push n)

/-- Items between commas up to a closing token. -/
def commaList (close : Kind) (item : Array Node → Parse (Option Node)) : Parse Listed :=
  loop (commaTurn close item) {}

/-- Items between commas, each of which is always there. -/
def commaItems (close : Kind) (item : Parse Node) : Parse (List Node) :=
  return (← commaList close fun _ => some <$> item).toList

/-- Whether a token ends the statements of a block. -/
def isBlockEnd (k : Kind) : Bool := k == .closeBraceToken

/-- Whether a token ends the statements of a clause of a switch. -/
def isClauseEnd : Kind → Bool
  | .caseKeyword | .defaultKeyword | .closeBraceToken => true
  | _ => false

/-- Whether a directive asks for what all code of a module is already. -/
def isUnnecessary (ctx : Context) (text : String) : Bool :=
  holdsExactly "use strict" text && ctx.isModule

/-- The context behind a directive. -/
def directiveContext (ctx : Context) (text : String) : Context :=
  if holdsExactly "use strict" text && !ctx.isModule then ctx.including [.strict] else ctx

/-- A list of statements under construction. -/
structure Body where
  ctx : Context
  /-- Whether the statements so far are all directives. -/
  inDirectives : Bool
  statements : Array Node := #[]

namespace Body

/-- The text of a statement that continues the directives at the start of a body. -/
def directive? (b : Body) (statement : Node) : Option (String × Range) :=
  if b.inDirectives then statement.directiveText? else none

/-- A body with another statement. -/
def push (b : Body) (statement : Node) : Body :=
  let statements := b.statements.push statement
  match b.directive? statement with
  | none => ⟨b.ctx, false, statements⟩
  | some (text, _) => ⟨directiveContext b.ctx text, true, statements⟩

/-- Reports a statement that is a directive without effect. -/
def check (b : Body) (statement : Node) : Parse Unit := do
  match b.directive? statement with
  | none => return ()
  | some (text, range) =>
    if isUnnecessary b.ctx text then reportAt range.toSpan .unnecessaryUseStrict

end Body

/-- One turn through items behind a separator each. -/
def moreTurn (separator : Kind) (item : Parse Node) (found : Array Node) :
    Parse (Turn (Array Node)) := do
  if ← accept separator then return .again (found.push (← item))
  return .done found

/-- Items behind a separator each, as long as the separator is there. -/
def more (separator : Kind) (item : Parse Node) : Parse (List Node) :=
  collect (moreTurn separator item)

variable [Recursion]

/-- One turn through a list of statements. A token that starts no statement is skipped. -/
def bodyTurn (inModule : Bool) (isEnd : Kind → Bool) (b : Body) : Parse (Turn Body) := do
  let k ← token
  if k == .endOfFileToken || isEnd k then return .done b
  unless k.canStartStatement do
    reportHere (if k == .privateIdentifier then .privateNameOutsideClass else .statementExpected)
      none (by split <;> rfl)
    advanceToExpression
    return .again b
  let start ← tokenStart
  let statement ← recur (.item inModule b.ctx)
  b.check statement
  ifUnmoved start (skip .expression)
  return .again (b.push statement)

/-- Statements up to a token that ends them. -/
def statementList (ctx : Context) (inModule directives : Bool) (isEnd : Kind → Bool) :
    Parse (List Node) := do
  let body ← loop (bodyTurn inModule isEnd) ⟨ctx, directives, #[]⟩
  return body.statements.toList

/-- Statements between braces. -/
def braced (statements : Parse (List Node)) : Parse Node := do
  let m ← mark
  let inner ← within .openBraceToken .closeBraceToken [] statements
  node m (.block inner)

def block (ctx : Context) : Parse Node := braced (statementList ctx false false isBlockEnd)

/-- A block whose leading strings are directives. -/
def functionBlock (ctx : Context) : Parse Node := braced (statementList ctx false true isBlockEnd)

/-- One turn through assignments joined by the comma operator. -/
def expressionTurn (ctx : Context) (m : Mark) (left : Node) : Parse (Turn Node) := do
  if ← accept .commaToken then
    let right ← recur (.assignment ctx)
    return .again (← node m (.binary left .commaToken right))
  return .done left

def expression (ctx : Context) : Parse Node := do
  let m ← mark
  loop (expressionTurn ctx m) (← recur (.assignment ctx))

end EcmaSyntax.Grammar
