import EcmaSyntax.Grammar.Declaration

/-! # Statements

Single statements, as they stand in a list, in a branch or behind a label. Declarations of functions
stand in a branch or behind a label only in sloppy code with web compatibility. -/
namespace EcmaSyntax.Grammar
open Parse
variable [Recursion]

/-- An expression between parentheses. -/
def condition (ctx : Context) : Parse Node := do
  let _ ← expect .openParenToken
  let inner ← expression (ctx.excluding [.withoutIn])
  let _ ← expect .closeParenToken
  return inner

/-- A statement within another one. -/
def innerStatement (ctx : Context) : Parse Node := recur (.statement ctx .plain)

/-! ## Branches and loops -/

def ifStatement (ctx : Context) : Parse Node := do
  let m ← mark
  advance
  let test ← condition ctx
  let whenTrue ← recur (.statement ctx .branch)
  let whenFalse ← behind .elseKeyword (recur (.statement ctx .branch))
  node m (.ifStatement test whenTrue whenFalse)

def doStatement (ctx : Context) : Parse Node := do
  let m ← mark
  advance
  let body ← innerStatement ctx
  let _ ← expect .whileKeyword
  let test ← condition ctx
  let _ ← accept .semicolonToken
  node m (.doStatement body test)

def whileStatement (ctx : Context) : Parse Node := do
  let m ← mark
  advance
  let test ← condition ctx
  let body ← innerStatement ctx
  node m (.whileStatement test body)

/-- What stands before the first semicolon, or before `in` or `of`, of a loop. -/
def forInitializer (ctx : Context) : Parse (Option Node) := do
  let inner := ctx.including [.withoutIn]
  let keyword ← mark
  match ← token with
  | .semicolonToken => return none
  | .varKeyword =>
    advance
    some <$> variableDeclarations inner keyword ∅
  | .constKeyword =>
    advance
    some <$> variableDeclarations inner keyword NodeFlag.constBinding
  | .letKeyword =>
    if ← acceptLet ctx then some <$> variableDeclarations inner keyword NodeFlag.letBinding
    else some <$> expression inner
  | _ => some <$> expression inner

/-- A loop with a counter, from its first semicolon on. -/
def forRest (ctx : Context) (m : Mark) (first : Option Node) : Parse Node := do
  let ctx := ctx.excluding [.withoutIn]
  let _ ← expect .semicolonToken
  let test ← unlessAtAny [.semicolonToken, .closeParenToken] (expression ctx)
  let _ ← expect .semicolonToken
  let step ← unlessAtAny [.closeParenToken] (expression ctx)
  let _ ← expect .closeParenToken
  let body ← innerStatement ctx
  node m (.forStatement first test step body)

/-- What a loop runs over. Only keys can be those of a comma expression. -/
def iterationSubject (ctx : Context) (sort : IterationSort) : Parse Node :=
  if sort == .forOf then recur (.assignment ctx) else expression ctx

/-- A loop over the values or keys of a subject, from behind `of` or `in` on. -/
def forEachRest (ctx : Context) (m : Mark) (sort : IterationSort) (isAwait : Bool) (first : Node) :
    Parse Node := do
  let subject ← iterationSubject (ctx.excluding [.withoutIn]) sort
  let _ ← expect .closeParenToken
  let body ← innerStatement ctx
  node m (.forEach sort isAwait first subject body)

def forLoop (ctx : Context) : Parse Node := do
  let m ← mark
  advance
  let isAwait ← accept .awaitKeyword
  let _ ← expect .openParenToken
  match ← forInitializer ctx with
  | none => forRest ctx m none
  | some first =>
    if ← accept .ofKeyword then forEachRest ctx m .forOf isAwait first
    else if ← accept .inKeyword then forEachRest ctx m .forIn isAwait first
    else forRest ctx m first

/-! ## Jumps -/

/-- A label on the same line. -/
def jumpLabel? (ctx : Context) : Parse (Option Node) := do
  if ← afterLineBreak then return none
  identifier? ctx

/-- A `break` or `continue` with its label. -/
def jump (ctx : Context) (sort : JumpSort) : Parse Node := do
  let m ← mark
  advance
  let label ← jumpLabel? ctx
  expectSemicolon
  node m (.jump sort label)

/-- The value of a `return`, if the statement does not end before it. -/
def returnValue (ctx : Context) : Parse (Option Node) := do
  if ← canOmitSemicolon then return none else some <$> expression (ctx.excluding [.withoutIn])

def returnStatement (ctx : Context) : Parse Node := do
  let m ← mark
  reportWhen (!ctx.has .returnStatement) .returnOutsideFunction
  advance
  let value ← returnValue ctx
  expectSemicolon
  node m (.returnStatement value)

/-- The value of a `throw`, which has to stand on the same line. -/
def thrownValue (ctx : Context) : Parse Node := do
  if ← afterLineBreak then
    reportHere .lineBreakNotPermitted
    missingIdentifier
  else expression (ctx.excluding [.withoutIn])

def throwStatement (ctx : Context) : Parse Node := do
  let m ← mark
  advance
  let value ← thrownValue ctx
  expectSemicolon
  node m (.throwStatement value)

/-! ## Compound statements -/

def withStatement (ctx : Context) : Parse Node := do
  let m ← mark
  reportWhen ctx.isStrict .withInStrictCode
  advance
  let subject ← condition ctx
  let body ← innerStatement ctx
  node m (.withStatement subject body)

/-- The value behind `case`; a clause without it is the default one. -/
def caseValue (ctx : Context) : Parse (Option Node) := do
  if ← accept .caseKeyword then some <$> expression (ctx.excluding [.withoutIn])
  else
    advance
    return none

/-- A clause of a switch with its statements. -/
def caseClause (ctx : Context) : Parse Node := do
  let m ← mark
  let value ← caseValue ctx
  let _ ← expect .colonToken
  let statements ← statementList ctx false false isClauseEnd
  node m (.caseClause value statements)

/-- One turn through the clauses of a switch. A token that begins none is skipped. -/
def caseTurn (ctx : Context) (found : Array Node) : Parse (Turn (Array Node)) := do
  if ← atListEnd .closeBraceToken then return .done found
  if ← isAtAny [.caseKeyword, .defaultKeyword] then
    return .again (found.push (← caseClause ctx))
  reportHere .caseOrDefaultExpected
  advanceToExpression
  return .again found

def switchStatement (ctx : Context) : Parse Node := do
  let m ← mark
  advance
  let subject ← condition ctx
  let clauses ← within .openBraceToken .closeBraceToken [] (collect (caseTurn ctx))
  node m (.switchStatement subject clauses)

/-- The variable of a handler before the closing parenthesis. -/
def caughtVariable (ctx : Context) : Parse Node := do
  let binding ← variableDeclaration (ctx.excluding [.withoutIn])
  let _ ← expect .closeParenToken
  return binding

/-- The handler of a `try`, from its keyword on. -/
def catchClause (ctx : Context) : Parse Node := do
  let m ← mark
  advance
  let binding ← behind .openParenToken (caughtVariable ctx)
  let body ← block ctx
  node m (.catchClause binding body)

/-- Reports a `try` without any handler. -/
def checkHandled (isHandled : Bool) : Parse Unit := do
  unless isHandled do reportExpected .catchKeyword

/-- A `try` with its handlers. A handler alone is read as a statement without its first part. -/
def tryStatement (ctx : Context) : Parse Node := do
  let m ← mark
  let _ ← expect .tryKeyword
  let body ← block ctx
  let handler ← whenAt .catchKeyword (catchClause ctx)
  let finalizer ← behind .finallyKeyword (block ctx)
  checkHandled (handler.isSome || finalizer.isSome)
  node m (.tryStatement body handler finalizer)

/-! ## Functions, labels and expressions -/

/-- Why a function may not stand in a place, if it may not. -/
def misplacedFunction? (ctx : Context) (site : StatementSite) : Option Message :=
  if ctx.isStrict then some .functionInStrictBody
  else if ctx.has .withoutWebCompat then some .functionWithoutWebCompat
  else if site == .plain then some .functionInSloppyBody
  else none

omit [Recursion] in
theorem misplacedFunction?_isGrammatical {ctx : Context} {site : StatementSite} {message : Message}
    (h : misplacedFunction? ctx site = some message) : message.isGrammatical = true := by
  unfold misplacedFunction? at h
  repeat' split at h
  all_goals cases h
  all_goals rfl

def checkFunction (ctx : Context) (site : StatementSite) : Parse Unit :=
  match h : misplacedFunction? ctx site with
  | none => return ()
  | some message => reportHere message none (misplacedFunction?_isGrammatical h)

def functionStatement (ctx : Context) (site : StatementSite) : Parse Node := do
  let m ← mark
  checkFunction ctx site
  functionDeclaration ctx m

/-- A statement behind a label. -/
def labeledRest (ctx : Context) (m : Mark) (label : Node) : Parse Node := do
  advance
  let body ← recur (.statement ctx .labeled)
  node m (.labeled label body)

def expressionStatement (ctx : Context) : Parse Node := do
  let m ← mark
  let startsWithName ← isIdentifier ctx
  let inner ← expression ctx
  let k ← token
  if startsWithName && k == .colonToken && inner.isIdentifier then
    return ← labeledRest ctx m inner
  reportWhen (inner.isIdentifier && !(← afterLineBreak) && k.isIdentifierLike) .unexpectedName
  expectSemicolon
  node m (.expressionStatement inner)

def emptyStatement : Parse Node := do
  let m ← mark
  advance
  node m .emptyStatement

def debuggerStatement : Parse Node := do
  let m ← mark
  advance
  expectSemicolon
  node m .debuggerStatement

def statement (ctx : Context) (site : StatementSite) : Parse Node := do
  let m ← mark
  match ← token with
  | .openBraceToken => block ctx
  | .semicolonToken => emptyStatement
  | .varKeyword =>
    advance
    variableStatement ctx m m ∅
  | .ifKeyword => ifStatement ctx
  | .doKeyword => doStatement ctx
  | .whileKeyword => whileStatement ctx
  | .forKeyword => forLoop ctx
  | .continueKeyword => jump ctx .resume
  | .breakKeyword => jump ctx .leave
  | .returnKeyword => returnStatement ctx
  | .withKeyword => withStatement ctx
  | .switchKeyword => switchStatement ctx
  | .throwKeyword => throwStatement ctx
  | .tryKeyword | .catchKeyword | .finallyKeyword => tryStatement ctx
  | .debuggerKeyword => debuggerStatement
  | .functionKeyword => functionStatement ctx site
  | .asyncKeyword =>
    if ← isBeforeFunction then functionStatement ctx site else expressionStatement ctx
  | .classKeyword =>
    reportHere .classAsBody
    classLike .declaration ctx m
  | .enumKeyword =>
    if ← acceptBeforeName then enumDeclaration ctx m else expressionStatement ctx
  | _ => expressionStatement ctx

end EcmaSyntax.Grammar
