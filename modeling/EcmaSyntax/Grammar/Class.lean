import EcmaSyntax.Grammar.Function

/-! # Classes

Class declarations and expressions with their heritage and members. All code of a class is
strict. -/
namespace EcmaSyntax.Grammar
open Parse
variable [Recursion]

/-- Modifiers of a member of a class. -/
def isClassModifier : Kind → Bool
  | .publicKeyword | .privateKeyword | .protectedKeyword | .staticKeyword | .readonlyKeyword
  | .abstractKeyword | .overrideKeyword | .declareKeyword | .accessorKeyword => true
  | _ => false

/-- Whether a token of this kind continues a member behind its modifiers. -/
def continuesMember : Kind → Bool
  | .asteriskToken | .dotDotDotToken => true
  | k => isPropertyNameStart k

/-- Whether a modifier is followed by the rest of a member. Only `static` may stand on a line of
its own. -/
def isBeforeMember (modifier : Kind) : Parse Bool :=
  if modifier == .staticKeyword then tokenIs continuesMember else onSameLine continuesMember

def classModifiers : Parse ModifierFlags := modifiers isClassModifier isBeforeMember

/-- Whether a property name is the one of a constructor. -/
def isConstructorName (n : Node) : Bool :=
  match n.form with
  | .identifier false text _ => text == "constructor"
  | .literal .stringLiteral text _ => holdsExactly "constructor" text
  | _ => false

/-- A block of statements that runs when the class is set up. -/
def staticBlock (m : Mark) (ctx : Context) : Parse Node := do
  advance
  node m (.staticBlock (← block ctx.classInitializer))

/-- Consumes the mark of a property that is certain to have a value. -/
def definiteMark (optional : Bool) : Parse Bool :=
  if optional then return false else accept .exclamationToken

/-- A property from behind its name on. -/
def propertyRest (m : Mark) (ctx : Context) (decorators : List Node) (name : Node)
    (optional : Bool) : Parse Node := do
  let definite ← definiteMark optional
  let ascription ← typeAscription ctx
  let value ← initializer ctx.classInitializer
  expectSemicolon
  node m (.propertyDefinition decorators name optional definite ascription value)

/-- A member of a class; none if no member begins at the present token. -/
def classElement (ctx : Context) : Parse (Option Node) := do
  let m ← mark
  let decorators ← decorators ctx
  if ← isAt .staticKeyword <&&> nextIs (isAt .openBraceToken) then
    return some (← staticBlock m ctx)
  let modifiers ← classModifiers
  let marked := m.withModifiers modifiers
  if ← isAt .openBracketToken <&&> opensIndexSignature then
    let signature ← indexSignature marked ctx
    expectSemicolon
    return some signature
  let isAsync ← acceptAsyncMethod
  let isGenerator ← accept .asteriskToken
  let accessor ← accessorSort?
  let isPlain := !isAsync && !isGenerator && accessor.isNone
  if isPlain && decorators.isEmpty && modifiers.isEmpty && !isPropertyNameStart (← token) then
    return none
  let name ← propertyName ctx
  let optional ← accept .questionToken
  if !isPlain || (← atSignature) then
    let sort := accessor.getD (if isConstructorName name then .constructor else .method)
    let head : MethodHead := ⟨marked, sort, decorators, name, optional, isAsync, isGenerator⟩
    return some (← methodRest ctx head false)
  return some (← propertyRest marked ctx decorators name optional)

/-- One turn through the members of a class. A token that begins no member is skipped. -/
def classTurn (ctx : Context) (found : Array Node) : Parse (Turn (Array Node)) := do
  if ← atListEnd .closeBraceToken then return .done found
  if ← isAt .semicolonToken then
    let m ← mark
    advance
    return .again (found.push (← node m .semicolonElement))
  let start ← tokenStart
  match ← recur (.classElement ctx) with
  | none => return .done found
  | some none =>
    reportHere .classMemberExpected
    advance
    ifUnmoved start (skip .plain)
    return .again found
  | some (some member) =>
    ifUnmoved start (skip .plain)
    return .again (found.push member)

def classMembers (ctx : Context) : Parse (List Node) :=
  within .openBraceToken .closeBraceToken [] (collect (classTurn ctx))

/-- The name of a class. A declaration may lack it in a default export only. -/
def className (ctx : Context) (m : Mark) (placement : Placement) : Parse (Option Node) := do
  if !(← isAt .implementsKeyword) && (← isIdentifier ctx) then return some (← identifier ctx)
  reportWhen (placement == .declaration && !m.modifiers.has .default) .identifierExpected
  return none

/-- The base class. Its type arguments are read but not kept. -/
def baseClass (ctx : Context) : Parse Node := do
  let base ← recur (.leftHandSide ctx)
  let _ ← whenAt .lessThanToken (typeArguments ctx)
  return base

def classLike (placement : Placement) (ctx : Context) (m : Mark) : Parse Node := do
  let decorators ← decorators ctx
  let _ ← expect .classKeyword
  let ctx := ctx.including [.strict]
  let name ← className ctx m placement
  let typeParameters ← typeParameters? ctx
  let base ← behind .extendsKeyword (baseClass ctx)
  let interfaces ← typeReferencesBehind .implementsKeyword ctx
  let members ← classMembers (ctx.including [.classBody])
  node m (.classLike placement decorators name typeParameters base interfaces members)

end EcmaSyntax.Grammar
