import EcmaSyntax.Grammar.Type

/-! # Elements

Markup elements and fragments with their tags, attributes and children. Among children text comes as
one token; in tags the ordinary tokens are read. The token behind an element is read as a child if
the element is one itself. -/
namespace EcmaSyntax.Grammar
open Parse
variable [Recursion]

/-- Moves to the next token among the children of an element. -/
def advanceToChild : Parse Unit := consume .child

/-! ## Tags -/

/-- The name of a tag, what it is made of and how it is written. -/
structure Tag where
  node : Node
  path : Node.TagPath
  spelling : String

/-- Behind a part of the name of a tag: the tag so far. -/
def tagSoFar (m : Mark) (node : Node) (path : Node.TagPath) : Parse Tag :=
  return ⟨node, path, String.ofList (m.start.textTo (← observe (·.full)))⟩

/-- The text of an identifier. -/
def textOf (n : Node) : String := n.identifierText?.getD ""

/-- A name with hyphens. -/
def hyphenatedName : Parse Node := do
  reread .hyphenatedName
  name

/-- A tag that is missing before the present token. -/
def missingTag : Parse Tag := return ⟨← missingIdentifier, .plain "", ""⟩

/-- One member in a dotted name of a tag. -/
def tagTurn (m : Mark) (tag : Tag) : Parse (Turn Tag) := do
  unless ← accept .dotToken do return .done tag
  let member ← name
  let both ← node m (.jsxMemberName tag.node member)
  return .again (← tagSoFar m both (.member tag.path (textOf member)))

/-- A plain, namespaced or dotted name of a tag. -/
def tagName : Parse Tag := do
  let m ← mark
  reread .hyphenatedName
  unless (← token).isName do
    reportHere .identifierExpected
    return ← missingTag
  let first ← identifierToken
  if ← accept .colonToken then
    let second ← hyphenatedName
    let both ← node m (.jsxNamespacedName first second)
    return ← tagSoFar m both (.namespaced (textOf first) (textOf second))
  loop (tagTurn m) (← tagSoFar m first (.plain (textOf first)))

/-- Consumes the end of a tag. -/
def closeTag (inExpression : Bool) : Parse Unit := do
  if ← isAt .greaterThanToken then
    if inExpression then advance else advanceToChild
  else reportExpected .greaterThanToken

/-! ## Attributes -/

/-- Consumes the brace behind an expression. Text follows it among children. -/
def closeEmbedded (inChildren : Bool) : Parse Unit := do
  if inChildren then
    if ← isAt .closeBraceToken then advanceToChild else reportExpected .closeBraceToken
  else
    let _ ← expect .closeBraceToken

/-- An expression between braces, as the value of an attribute or among children. -/
def embedded (ctx : Context) (inChildren : Bool) : Parse Node := do
  let m ← mark
  let _ ← expect .openBraceToken
  let spreads ← (return inChildren) <&&> accept .dotDotDotToken
  let inner ← unlessAtAny [.closeBraceToken] (expression ctx)
  closeEmbedded inChildren
  node m (.jsxExpression spreads inner)

def spreadAttribute (ctx : Context) : Parse Node := do
  let m ← mark
  let _ ← expect .openBraceToken
  let _ ← expect .dotDotDotToken
  let inner ← expression ctx
  let _ ← expect .closeBraceToken
  node m (.jsxSpreadAttribute inner)

/-- The value of an attribute behind its equals sign. -/
def attributeValue (ctx : Context) : Parse (Option Node) := do
  unless ← isAt .equalsToken do return none
  consume .attributeValue
  match ← token with
  | .stringLiteral => some <$> literal
  | .openBraceToken => some <$> embedded ctx false
  | .lessThanToken => some <$> recur (.element ctx true)
  | _ =>
    reportHere .expressionExpected
    return none

/-- The name of an attribute, which may be namespaced. -/
def attributeName : Parse Node := do
  let m ← mark
  reread .hyphenatedName
  let first ← identifierToken
  unless ← accept .colonToken do return first
  let second ← hyphenatedName
  node m (.jsxNamespacedName first second)

def namedAttribute (ctx : Context) : Parse Node := do
  let m ← mark
  let name ← attributeName
  let value ← attributeValue ctx
  node m (.jsxAttribute name value)

def tagAttribute (ctx : Context) : Parse Node := do
  if ← isAt .openBraceToken then spreadAttribute ctx else namedAttribute ctx

/-- One turn through the attributes of a tag. The list ends before what is no attribute. -/
def attributeTurn (ctx : Context) (found : Array Node) : Parse (Turn (Array Node)) := do
  if ← isAtAny [.greaterThanToken, .slashToken, .endOfFileToken] then return .done found
  let start ← tokenStart
  if !(← token).isName && !(← isAt .openBraceToken) then
    reportHere .identifierExpected
    return .done found
  let found := found.push (← tagAttribute ctx)
  return if (← tokenStart) == start then .done found else .again found

def attributes (ctx : Context) : Parse Node := do
  let m ← mark
  let found ← collect (attributeTurn ctx)
  node m (.jsxAttributes found)

/-! ## Children -/

/-- A token as text among children. -/
def textForm (r : Reading) : Form Node :=
  .jsxText r.text (r.spelling.all Text.isWhiteSpace && r.flags.has .precedingJsxTextLineBreak)

/-- Text among children. -/
def childText : Parse Node := leaf .child textForm

/-- One child; a token that begins none is skipped. -/
def childTurn (ctx : Context) (found : Array Node) : Parse (Turn (Array Node)) := do
  match ← token with
  | .jsxText => return .again (found.push (← childText))
  | .openBraceToken => return .again (found.push (← embedded ctx true))
  | .lessThanToken => return .again (found.push (← recur (.element ctx false)))
  | .lessThanSlashToken | .endOfFileToken => return .done found
  | _ =>
    advanceToChild
    return .again found

/-- Children up to a closing tag. -/
def children (ctx : Context) : Parse Node := do
  let m ← mark
  let found ← collect (childTurn ctx)
  node m (.jsxChildren found)

/-- Reports a closing tag whose name is not the one of the opening tag. -/
def checkClosing (opening tag : Tag) : Parse Unit := do
  if tag.path != opening.path then
    reportAt tag.node.range.toSpan .mismatchedJsxClosing opening.spelling

/-- The closing tag that belongs to an opening one. -/
def closingElement (opening : Tag) (inExpression : Bool) : Parse Node := do
  let m ← mark
  unless ← isAt .lessThanSlashToken do
    reportAt opening.node.range.toSpan .unclosedJsxElement opening.spelling
    return ← missing (.jsxClosing (← missingIdentifier))
  advance
  let tag ← tagName
  checkClosing opening tag
  closeTag inExpression
  node m (.jsxClosing tag.node)

/-- Reports a name in the closing tag of a fragment, and skips it. -/
def checkFragment : Parse Unit := do
  unless ← isAt .greaterThanToken do
    reportMissing "</>"
    if (← token).isName then
      let _ ← tagName

/-- Consumes the closing tag of a fragment. -/
def closeFragment (inExpression : Bool) : Parse Unit := do
  unless ← isAt .lessThanSlashToken do return ← reportMissing "</>"
  advance
  checkFragment
  closeTag inExpression

/-- An element or a fragment. -/
def element (ctx : Context) (inExpression : Bool) : Parse Node := do
  let ctx := ctx.enclosed
  let m ← mark
  let _ ← expect .lessThanToken
  if ← isAt .greaterThanToken then
    advanceToChild
    let children ← children ctx
    closeFragment inExpression
    return ← node m (.jsxFragment children)
  let tag ← tagName
  let typeArguments ← whenAt .lessThanToken (typeArguments ctx)
  let attributes ← attributes ctx
  if ← accept .slashToken then
    closeTag inExpression
    return ← node m (.jsxOpening true tag.node typeArguments attributes)
  closeTag false
  let opening ← node m (.jsxOpening false tag.node typeArguments attributes)
  let children ← children ctx
  let closing ← closingElement tag inExpression
  node m (.jsxElement opening children closing)

end EcmaSyntax.Grammar
