import EcmaSyntax.Grammar.Literal

/-! # Parameters

Lists of formal parameters with their decorators, modifiers, types and defaults. -/
namespace EcmaSyntax.Grammar
open Parse
variable [Recursion]

/-- A type behind a colon, if there is one. -/
def typeAscription (ctx : Context) : Parse (Option Node) := behind .colonToken (recur (.type ctx))

/-- An expression behind an equals sign, if there is one. -/
def initializer (ctx : Context) : Parse (Option Node) :=
  behind .equalsToken (recur (.assignment ctx))

def decorator (ctx : Context) : Parse Node := do
  let m ← mark
  advance
  let inner ← recur (.leftHandSide (ctx.including [.decorator]))
  node m (.decorator inner)

/-- One turn through decorators. -/
def decoratorTurn (ctx : Context) (found : Array Node) : Parse (Turn (Array Node)) := do
  unless ← isAt .atToken do return .done found
  return .again (found.push (← decorator ctx))

def decorators (ctx : Context) : Parse (List Node) := collect (decoratorTurn ctx)

/-- Whether a modifier of a parameter is followed by the binding on the same line. -/
def isBeforeBinding : Parse Bool := onSameLine Kind.isIdentifierOrPatternStart

/-- One turn through modifiers, each of them with a test of what follows it. -/
def modifierTurn (isModifier : Kind → Bool) (isBefore : Kind → Parse Bool)
    (found : ModifierFlags) : Parse (Turn ModifierFlags) := do
  let k ← token
  unless isModifier k do return .done found
  unless ← nextIs (isBefore k) do return .done found
  advance
  return .again (found ∪ ModifierFlag.ofKind k)

def modifiers (isModifier : Kind → Bool) (isBefore : Kind → Parse Bool) : Parse ModifierFlags :=
  loop (modifierTurn isModifier isBefore) ∅

def parameterModifiers : Parse ModifierFlags :=
  modifiers Kind.isAccessModifier fun _ => isBeforeBinding

/-- What has been read of a parameter before its type. -/
structure ParameterHead where
  m : Mark
  binding : Node
  decorators : List Node := []
  rest : Bool := false
  optional : Bool := false

/-- The type and the default of a parameter. -/
def parameterTail (ctx : Context) (head : ParameterHead) : Parse Node := do
  let ascription ← typeAscription ctx
  let value ← initializer (ctx.excluding [.withoutIn])
  node head.m
    (.formalParameter head.decorators head.rest head.binding head.optional ascription value)

/-- The name or pattern of a parameter, or the word `this`. -/
def parameterBinding (ctx : Context) : Parse Node := do
  if ← isAt .thisKeyword then identifierToken else bindingName ctx

def formalParameter (ctx : Context) : Parse Node := do
  let m ← mark
  let decorators ← decorators ctx
  let modifiers ← parameterModifiers
  let rest ← accept .dotDotDotToken
  let binding ← parameterBinding ctx
  let optional ← accept .questionToken
  parameterTail ctx ⟨m.withModifiers modifiers, binding, decorators, rest, optional⟩

def isParameterStart : Kind → Bool
  | .dotDotDotToken | .atToken | .thisKeyword => true
  | k => k.isIdentifierOrPatternStart || k.isAccessModifier

/-- Whether a node is a rest parameter. -/
def isRest (n : Node) : Bool :=
  match n.form with
  | .formalParameter _ rest .. => rest
  | _ => false

/-- Reports a rest parameter that another parameter follows. -/
def checkRestLast (before : Array Node) : Parse Unit := do
  match before.back? with
  | none => return ()
  | some previous => if isRest previous then reportAt previous.range.toSpan .restNotLast

/-- Reports a comma behind a rest parameter. -/
def checkTrailingComma (l : Listed) : Parse Unit := do
  match l.trailingComma with
  | none => return ()
  | some comma => if l.items.back?.any isRest then reportAt comma .commaAfterRest

/-- One parameter of a list; a rest parameter before it is reported. -/
def listedParameter (ctx : Context) (before : Array Node) : Parse (Option Node) := do
  unless isParameterStart (← token) do
    reportHere .parameterExpected
    return none
  checkRestLast before
  return some (← formalParameter ctx)

def parameterList (ctx : Context) : Parse Listed := do
  let l ← commaList .closeParenToken (listedParameter ctx)
  checkTrailingComma l
  return l

/-- Formal parameters between parentheses. -/
def formalParameters (ctx : Context) : Parse Node := do
  let m ← mark
  let l ← within .openParenToken .closeParenToken {} (parameterList ctx)
  node m (.formalParameters l.toList l.hasTrailingComma)

end EcmaSyntax.Grammar
