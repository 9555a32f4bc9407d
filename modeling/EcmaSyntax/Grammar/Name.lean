import EcmaSyntax.Grammar.Rule
import EcmaSyntax.Tree.Shape

/-! # Names and literals

Single tokens as nodes. A keyword may serve as a name in many places; a name keeps the keyword it
is spelled like. -/
namespace EcmaSyntax.Grammar
open Parse

/-- Whether a context takes a token of this kind for an identifier. -/
def admits (ctx : Context) : Kind → Bool
  | .yieldKeyword => !ctx.has .yieldOperator
  | .awaitKeyword => !ctx.has .awaitOperator
  | k => k.isIdentifierLike

/-- Whether the present token can be used as an identifier. -/
def isIdentifier (ctx : Context) : Parse Bool := observe (admits ctx ·.token)

/-- Consumes the present token as a node of its own. -/
def leaf (way : Scanner.Advance) (form : Reading → Form Node) : Parse Node := do
  let m ← mark
  let r ← reading
  consume way
  node m (form r)

/-- A token as an identifier. -/
def nameForm (r : Reading) : Form Node :=
  match r.token with
  | .identifier => .identifier false r.text none
  | .privateIdentifier => .identifier true r.text none
  | keyword => .identifier false r.text (some keyword)

/-- Consumes the present token as an identifier. -/
def identifierToken : Parse Node := leaf .plain nameForm

/-- Reports that the present token is no identifier. -/
def reportNoIdentifier : Parse Unit := do
  let k ← token
  if k.isReservedWord || k == .yieldKeyword || k == .awaitKeyword then
    reportHere .reservedWord (← tokenText)
  else reportHere .identifierExpected

/-- An identifier. Another token is reported and left in place. -/
def identifier (ctx : Context) : Parse Node := do
  if ← isIdentifier ctx then return ← identifierToken
  reportNoIdentifier
  missingIdentifier

/-- An identifier, if there is one. -/
def identifier? (ctx : Context) : Parse (Option Node) := do
  if ← isIdentifier ctx then some <$> identifier ctx else return none

/-- A name, keywords included. -/
def name : Parse Node := do
  if (← token).isName then return ← identifierToken
  reportHere .identifierExpected
  missingIdentifier

/-- Reports a private name outside of classes. -/
def checkPrivate (ctx : Context) : Parse Unit :=
  reportWhen (!ctx.has .classBody) .privateNameOutsideClass

/-- The name of a member, which may be private. -/
def memberName (ctx : Context) : Parse Node := do
  if ← isAt .privateIdentifier then
    checkPrivate ctx
    return ← identifierToken
  name

/-- A token as a literal. -/
def literalForm (r : Reading) : Form Node :=
  .literal r.token r.text (r.flags \ TokenFlag.precedingLineBreak)

/-- Consumes the present token as a literal. -/
def literal : Parse Node := leaf .plain literalForm

/-- Consumes the present token as a keyword that is an expression. -/
def keywordExpression : Parse Node := leaf .plain fun r => .keyword r.token

/-- Whether a quoted text holds exactly the given characters; both delimiters are one byte long. -/
def holdsExactly (inner : String) (quoted : String) : Bool :=
  match quoted.toList with
  | [] => false
  | _ :: rest => rest.dropLast == inner.toList && rest.getLast?.any Text.isAscii

end EcmaSyntax.Grammar
