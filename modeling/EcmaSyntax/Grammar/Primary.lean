import EcmaSyntax.Grammar.Class
import EcmaSyntax.Grammar.Markup
import EcmaSyntax.Grammar.Parenthesized

/-! # Primary and left-hand-side expressions

Primary expressions, and the member accesses, calls and templates behind them. Arrow parameters take
nothing behind them; they travel up to the assignment that attaches the body. -/
namespace EcmaSyntax.Grammar
open Parse
variable [Recursion]

/-! ## Arguments -/

/-- One argument of a call. -/
def argument (ctx : Context) : Parse (Option Node) := do
  let k ← token
  if k == .dotDotDotToken then return some (← spread ctx)
  if k.canStartExpression then return some (← recur (.assignment ctx))
  reportHere .argumentExpected
  return none

def argumentList (ctx : Context) : Parse Node := do
  let m ← mark
  let l ← between .openParenToken .closeParenToken
    (commaList .closeParenToken fun _ => argument ctx.argument)
  node m (.argumentList l.toList l.hasTrailingComma)

/-- An expression before a closing bracket. -/
def bracketedExpression (ctx : Context) : Parse Node := do
  if ← isAt .closeBracketToken then
    reportHere .elementAccessArgumentExpected
    missingIdentifier
  else expression ctx

/-- The expression between the brackets of an element access. -/
def accessArgument (ctx : Context) : Parse Node :=
  between .openBracketToken .closeBracketToken (bracketedExpression ctx)

/-! ## Primary expressions -/

/-- Reports that arguments are missing. -/
def checkArguments : Parse Unit := do
  unless ← isAt .openParenToken do reportExpected .openParenToken

/-- The word `import` as the start of `import.meta` or as the callee of a call. -/
def importHead : Parse Node := do
  let m ← mark
  let word ← identifierToken
  if ← accept .dotToken then return ← node m (.metaProperty .importKeyword (← name))
  checkArguments
  return word

/-- An identifier, or a diagnostic in its place. -/
def identifierExpression (ctx : Context) : Parse Node := do
  if ← isIdentifier ctx then return ← identifierToken
  if (← token).isReservedWord then return ← identifier ctx
  reportHere .expressionExpected
  missingIdentifier

/-- An expression that begins with the word `async`. -/
def asyncExpression (ctx : Context) : Parse Node := do
  if ← isBeforeFunction then return ← functionExpression ctx
  if ← nextIs (onSameLine (· == .openParenToken)) then asyncCallOrArrow ctx
  else identifierExpression ctx

def primary (ctx : Context) : Parse Node := do
  match ← token with
  | .thisKeyword | .superKeyword | .nullKeyword | .trueKeyword | .falseKeyword => keywordExpression
  | .numericLiteral | .bigIntLiteral | .stringLiteral | .regularExpressionLiteral => literal
  | .slashToken | .slashEqualsToken =>
    reread .slash
    literal
  | .noSubstitutionTemplateLiteral | .templateHead => template ctx.enclosed
  | .openParenToken => parenthesized ctx
  | .openBracketToken => arrayLiteral ctx
  | .openBraceToken => objectLiteral ctx
  | .functionKeyword => functionExpression ctx
  | .asyncKeyword => asyncExpression ctx
  | .classKeyword | .atToken => classLike .expression ctx (← mark)
  | .newKeyword => recur (.newExpression ctx)
  | .importKeyword => importHead
  | .lessThanToken =>
    if ctx.has .jsx then recur (.element ctx true) else identifierExpression ctx
  | .privateIdentifier =>
    checkPrivate ctx
    identifierToken
  | _ => identifierExpression ctx

/-! ## What follows a primary expression -/

/-- Whether an expression takes member accesses and calls behind it. -/
def takesSuffixes (n : Node) : Bool := !n.isArrowParameters && !n.isArrowFunction

/-- What follows `?.` in an optional chain. -/
def chainLink (ctx : Context) (m : Mark) (base : Node) : Parse Node := do
  let m := m.withFlags NodeFlag.optionalChain
  match ← token with
  | .openParenToken | .lessThanToken =>
    let typeArguments ← callTypeArguments? ctx
    let arguments ← argumentList ctx
    node m (.call base true typeArguments arguments)
  | .openBracketToken =>
    let argument ← accessArgument ctx.argument
    node m (.elementAccess base true argument)
  | _ =>
    let member ← memberName ctx
    node m (.propertyAccess base true member)

/-- A call or a template behind type arguments. -/
def genericCall (ctx : Context) (m : Mark) (base : Node) (typeArguments : List Node) :
    Parse Node := do
  if ← isAt .openParenToken then
    let arguments ← argumentList ctx
    node m (.call base false (some typeArguments) arguments)
  else
    let quasi ← template ctx.argument
    node m (.taggedTemplate base (some typeArguments) quasi)

/-- One link behind an expression. Calls are left alone where they are not allowed. -/
def suffix (ctx : Context) (m : Mark) (calls : Bool) (base : Node) : Parse (Turn Node) := do
  match ← token with
  | .dotToken =>
    advance
    let member ← memberName ctx
    return .again (← node m (.propertyAccess base false member))
  | .questionDotToken =>
    unless calls do return .done base
    advance
    return .again (← chainLink ctx m base)
  | .openBracketToken =>
    if ctx.has .decorator then return .done base
    let argument ← accessArgument ctx.argument
    return .again (← node m (.elementAccess base false argument))
  | .exclamationToken =>
    if ← afterLineBreak then return .done base
    advance
    return .again (← node m (.nonNull base))
  | .noSubstitutionTemplateLiteral | .templateHead =>
    let quasi ← template ctx.argument
    return .again (← node m (.taggedTemplate base none quasi))
  | .openParenToken =>
    unless calls do return .done base
    let arguments ← argumentList ctx
    return .again (← node m (.call base false none arguments))
  | .lessThanToken =>
    unless calls do return .done base
    match ← callTypeArguments? ctx with
    | none => return .done base
    | some typeArguments => return .again (← genericCall ctx m base typeArguments)
  | _ => return .done base

/-- Everything behind a primary expression. -/
def suffixes (ctx : Context) (m : Mark) (calls : Bool) (base : Node) : Parse Node := do
  if takesSuffixes base then loop (suffix ctx m calls) base else return base

/-- A primary expression, or a `new` expression with its own callee. -/
def memberBase (ctx : Context) : Parse Node := do
  if ← isAt .newKeyword then recur (.newExpression ctx) else primary ctx

def leftHandSide (ctx : Context) : Parse Node := do
  let m ← mark
  suffixes ctx m true (← memberBase ctx)

/-- The callee of `new` holds no call of its own: the first arguments belong to `new`. -/
def newExpression (ctx : Context) : Parse Node := do
  let m ← mark
  let _ ← expect .newKeyword
  if ← accept .dotToken then return ← node m (.metaProperty .newKeyword (← name))
  let inner ← mark
  let callee ← suffixes ctx inner false (← memberBase ctx)
  let typeArguments ← callTypeArguments? ctx
  let arguments ← whenAt .openParenToken (argumentList ctx)
  node m (.new callee typeArguments arguments)

end EcmaSyntax.Grammar
