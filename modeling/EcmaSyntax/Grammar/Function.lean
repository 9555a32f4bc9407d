import EcmaSyntax.Grammar.Type

/-! # Functions

Functions, methods and arrow functions from their type parameters to their bodies, and the members
of object literals. -/
namespace EcmaSyntax.Grammar
open Parse
variable [Recursion]

/-- What stands for a body that is missing: a semicolon, unless the body is required. -/
def missingBody (required : Bool) : Parse Unit :=
  if required then reportExpected .openBraceToken else expectSemicolon

/-- A body between braces. -/
def functionBody (ctx : Context) (required : Bool) : Parse (Option Node) := do
  if ← isAt .openBraceToken then return some (← functionBlock ctx)
  missingBody required
  return none

/-- What has been read of a function before its type parameters. -/
structure FunctionHead where
  m : Mark
  placement : Placement
  name : Option Node
  isAsync : Bool
  isGenerator : Bool

/-- A function from its type parameters on. Only a declaration may lack its body. -/
def functionRest (ctx : Context) (head : FunctionHead) : Parse Node := do
  let inner := ctx.functionBody head.isAsync head.isGenerator
  let typeParameters ← typeParameters? ctx
  let parameters ← formalParameters (inner.excluding [.returnStatement])
  let result ← returnType ctx
  let body ← functionBody inner (head.placement == .expression)
  node head.m (.function head.placement head.name head.isAsync head.isGenerator typeParameters
    parameters result body)

/-- The name of a function that is a statement. It may be left out in a default export. -/
def declaredName (ctx : Context) (m : Mark) : Parse (Option Node) := do
  if m.modifiers.has .default && !(← isIdentifier ctx) then return none
  some <$> identifier ctx

/-- A function that is a statement. -/
def functionDeclaration (ctx : Context) (m : Mark) : Parse Node := do
  let isAsync ← accept .asyncKeyword
  let _ ← expect .functionKeyword
  let isGenerator ← accept .asteriskToken
  let name ← declaredName ctx m
  functionRest ctx ⟨m, .declaration, name, isAsync, isGenerator⟩

def functionExpression (ctx : Context) : Parse Node := do
  let m ← mark
  let isAsync ← accept .asyncKeyword
  let _ ← expect .functionKeyword
  let isGenerator ← accept .asteriskToken
  let name ← identifier? (ctx.functionBody isAsync isGenerator)
  functionRest ctx ⟨m, .expression, name, isAsync, isGenerator⟩

/-- Whether the word `function` follows on the same line. -/
def isBeforeFunction : Parse Bool := nextIs (onSameLine (· == .functionKeyword))

/-! ## Methods -/

/-- What has been read of a method before its type parameters. -/
structure MethodHead where
  m : Mark
  sort : MethodSort
  decorators : List Node
  name : Node
  optional : Bool
  isAsync : Bool
  isGenerator : Bool

/-- A method from its type parameters on. -/
def methodRest (ctx : Context) (head : MethodHead) (bodyRequired : Bool) : Parse Node := do
  let inner := ctx.functionBody head.isAsync head.isGenerator
  let typeParameters ← typeParameters? ctx
  let parameters ← formalParameters (inner.excluding [.returnStatement])
  let result ← returnType ctx
  let body ← functionBody inner bodyRequired
  node head.m (.method head.sort head.decorators head.name head.optional head.isAsync
    head.isGenerator typeParameters parameters result body)

/-- The sort of accessor that a word introduces. -/
def accessorOf? : Kind → Option MethodSort
  | .getKeyword => some .getter
  | .setKeyword => some .setter
  | _ => none

/-- Consumes `get` or `set` where it introduces an accessor. -/
def accessorSort? : Parse (Option MethodSort) := do
  match accessorOf? (← token) with
  | none => return none
  | some sort =>
    unless ← nextIs isBeforePropertyName do return none
    advance
    return some sort

/-- Consumes `async` where it introduces an asynchronous method. -/
def acceptAsyncMethod : Parse Bool := advanceWhen <|
  isAt .asyncKeyword <&&> nextIs (onSameLine fun k => isPropertyNameStart k || k == .asteriskToken)

/-- A property whose name may stand alone, from behind the name on. -/
def shorthandRest (m : Mark) (ctx : Context) (name : Node) : Parse Node := do
  let value ← initializer ctx
  node m (.shorthandProperty name value)

/-- A member of an object literal. -/
def objectElement (ctx : Context) : Parse Node := do
  let m ← mark
  if ← isAt .dotDotDotToken then return ← spread ctx
  let isAsync ← acceptAsyncMethod
  let isGenerator ← accept .asteriskToken
  let accessor ← accessorSort?
  let isPlain := !isAsync && !isGenerator && accessor.isNone
  let canStandAlone := isPlain && (← isIdentifier ctx)
  let name ← propertyName ctx
  if !isPlain || (← atSignature) then
    let sort := accessor.getD .method
    return ← methodRest ctx ⟨m, sort, [], name, false, isAsync, isGenerator⟩ true
  if canStandAlone && !(← isAt .colonToken) then return ← shorthandRest m ctx name
  let _ ← expect .colonToken
  let value ← recur (.assignment ctx)
  node m (.propertyAssignment name value)

/-! ## Arrow functions -/

/-- A single name as the parameters of an arrow function. -/
def simpleParameters (parameter : Node) : Node :=
  .mk { range := parameter.range, flags := .when parameter.hasErrors NodeFlag.hasErrors }
    (.arrowParameters none [parameter] none false)

/-- The context of a body of an arrow function that is an expression. -/
def arrowContext (ctx : Context) (isAsync : Bool) : Context :=
  ctx.excluding [.yieldOperator, .awaitOperator] ∪ .when isAsync Mode.awaitOperator

/-- A block, or an expression. -/
def arrowBody (ctx : Context) (isAsync : Bool) : Parse Node := do
  if ← isAt .openBraceToken then functionBlock (ctx.functionBody isAsync false)
  else recur (.assignment (arrowContext ctx isAsync))

/-- Consumes an arrow. It may not stand on a line of its own. -/
def expectArrow : Parse Unit := do
  reportWhen ((← isAt .equalsGreaterThanToken) && (← afterLineBreak)) .lineBreakBeforeArrow
  let _ ← expect .equalsGreaterThanToken

/-- An arrow function from its arrow on. -/
def arrowFunction (ctx : Context) (m : Mark) (isAsync : Bool) (parameters : Node) : Parse Node := do
  expectArrow
  let body ← arrowBody ctx isAsync
  node m (.arrowFunction isAsync parameters body)

/-- Whether `async`, a name on the same line and an arrow follow. -/
def startsAsyncArrow (ctx : Context) : Parse Bool :=
  isAt .asyncKeyword <&&> lookAhead do
    advance
    if ← afterLineBreak then return false
    unless ← isIdentifier (ctx.including [.awaitOperator]) do return false
    advance
    isAt .equalsGreaterThanToken

end EcmaSyntax.Grammar
