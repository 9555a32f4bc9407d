import EcmaSyntax.Grammar.Literal
import EcmaSyntax.Grammar.Parameter

/-! # Variables

Lists of variable declarations, from behind their keyword on. -/
namespace EcmaSyntax.Grammar
open Parse
variable [Recursion]

/-- Consumes the mark of a name that is certain to be assigned. -/
def assertedMark (name : Node) : Parse Bool := do
  if name.isIdentifier && !(← afterLineBreak) then accept .exclamationToken else return false

/-- A name or pattern with its type and its initial value. -/
def variableDeclaration (ctx : Context) : Parse Node := do
  let m ← mark
  let name ← bindingName ctx
  let definite ← assertedMark name
  let ascription ← typeAscription ctx
  let value ← initializer ctx
  node m (.variableDeclaration name definite ascription value)

/-- One declaration, and whether another one follows. -/
def variableTurn (ctx : Context) (found : Array Node) : Parse (Turn (Array Node)) := do
  let found := found.push (← variableDeclaration ctx)
  return if ← accept .commaToken then .again found else .done found

/-- Declarations between commas, at least one. The mark stands at the keyword. -/
def variableDeclarations (ctx : Context) (keyword : Mark) (flags : NodeFlags) : Parse Node := do
  let found ← collect (variableTurn ctx)
  node (keyword.withFlags flags) (.variableDeclarations found)

def variableStatement (ctx : Context) (m keyword : Mark) (flags : NodeFlags) : Parse Node := do
  let declarations ← variableDeclarations ctx keyword flags
  expectSemicolon
  node m (.variableStatement (flags.meets NodeFlag.blockScoped) declarations)

/-- Whether a token can begin the declarations behind `let`. -/
def mayFollowLet (ctx : Context) : Kind → Bool
  | .yieldKeyword => !ctx.has .yieldOperator
  | .awaitKeyword => !ctx.has .awaitOperator
  | k => k.isIdentifierOrPatternStart

/-- Consumes `let` where it begins a declaration. -/
def acceptLet (ctx : Context) : Parse Bool := advanceIf (tokenIs (mayFollowLet ctx))

end EcmaSyntax.Grammar
