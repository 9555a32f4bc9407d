import EcmaSyntax.Grammar.List

/-! # Templates, array literals and object literals

Array and object literals are also read as binding patterns; nothing in them tells the two
apart. -/
namespace EcmaSyntax.Grammar
open Parse
variable [Recursion]

/-- An expression behind three dots. -/
def spread (ctx : Context) : Parse Node := do
  let m ← mark
  let _ ← expect .dotDotDotToken
  node m (.spread (← recur (.assignment ctx)))

/-- The template text behind a substitution. -/
def templateText : Parse Node := do
  if ← isAt .closeBraceToken then
    reread .template
    literal
  else
    reportExpected .closeBraceToken
    missing (.literal .templateTail "" ∅)

/-- A substitution of a template with the text behind it. -/
def templateSpan (ctx : Context) : Parse Node := do
  let m ← mark
  let inner ← expression ctx
  node m (.templateSpan inner (← templateText))

/-- Whether another substitution follows a template span. -/
def continuesTemplate (span : Node) : Bool :=
  match span.form with
  | .templateSpan _ tail => tail.kind == .templateMiddle
  | _ => false

/-- A substitution of a template, with the question whether another one follows. -/
def templateTurn (ctx : Context) (spans : Array Node) : Parse (Turn (Array Node)) := do
  let span ← templateSpan ctx
  return if continuesTemplate span then .again (spans.push span) else .done (spans.push span)

def template (ctx : Context) : Parse Node := do
  if ← isAt .noSubstitutionTemplateLiteral then return ← literal
  let m ← mark
  let head ← literal
  let spans ← collect (templateTurn ctx)
  node m (.template head spans)

/-- An element of an array literal that is there. -/
def arrayElement (ctx : Context) : Parse Node := do
  if ← isAt .dotDotDotToken then spread ctx else recur (.assignment ctx)

/-- The hole before a comma. -/
def hole : Parse Node := observe fun s => .mk { range := ⟨s.start.offset, s.start.offset⟩ } .omitted

/-- One turn through the elements of an array literal. -/
def arrayTurn (ctx : Context) (l : Listed) : Parse (Turn Listed) := do
  if ← atListEnd .closeBracketToken then return .done l
  let start ← tokenStart
  if ← isAt .commaToken then
    let l := l.push (← hole)
    advance
    return .again l
  let item ← arrayElement ctx
  afterItem .closeBracketToken start (l.push item)

def arrayLiteral (ctx : Context) : Parse Node := do
  let m ← mark
  let l ← between .openBracketToken .closeBracketToken (loop (arrayTurn ctx.enclosed) {})
  node m (.arrayLiteral l.toList l.hasTrailingComma)

def objectLiteral (ctx : Context) : Parse Node := do
  let m ← mark
  let l ← between .openBraceToken .closeBraceToken
    (commaList .closeBraceToken fun _ => recur (.objectElement ctx.enclosed))
  node m (.objectLiteral l.toList)

/-- An identifier or a pattern. -/
def bindingName (ctx : Context) : Parse Node := do
  match ← token with
  | .openBracketToken => arrayLiteral ctx
  | .openBraceToken => objectLiteral ctx
  | _ => identifier ctx

/-- Whether a token starts the name of a property. -/
def isPropertyNameStart : Kind → Bool
  | .identifier | .privateIdentifier | .stringLiteral | .numericLiteral | .bigIntLiteral
  | .openBracketToken => true
  | k => k.isAnyKeyword

/-- An expression between brackets as the name of a property. -/
def computedName (ctx : Context) : Parse Node := do
  let m ← mark
  advance
  let inner ← recur (.assignment ctx.enclosed)
  let _ ← expect .closeBracketToken
  node m (.computedName inner)

def propertyName (ctx : Context) : Parse Node := do
  match ← token with
  | .stringLiteral | .numericLiteral | .bigIntLiteral => literal
  | .privateIdentifier =>
    checkPrivate ctx
    identifierToken
  | .openBracketToken => computedName ctx
  | _ => name

end EcmaSyntax.Grammar
