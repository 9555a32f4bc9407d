import EcmaSyntax.Grammar.Parameter

/-! # Types

Type ascriptions from conditional types down to references, with type parameters, type arguments
and the members of object types. -/
namespace EcmaSyntax.Grammar
open Parse
variable [Recursion]

/-- The context between brackets of types, where conditional types are allowed again. -/
def withConditionalTypes (ctx : Context) : Context := ctx.including [.conditionalTypes]

/-! ## Type parameters and arguments -/

def typeArguments (ctx : Context) : Parse (List Node) :=
  between .lessThanToken .greaterThanToken
    (commaItems .greaterThanToken (recur (.type (withConditionalTypes ctx))))

/-- Type arguments before a call or a template, if they are read without a diagnostic. -/
def typeArgumentsOfCall (ctx : Context) : Parse (Option (List Node)) := do
  let before ← reported
  let arguments ← typeArguments ctx
  let follows ← isAtAny [.openParenToken, .noSubstitutionTemplateLiteral, .templateHead]
  return if follows && (← reported) == before then some arguments else none

/-- Type arguments in an expression. If they are not taken, the angle bracket stays an operator. -/
def callTypeArguments? (ctx : Context) : Parse (Option (List Node)) := do
  if ← isAt .lessThanToken then attempt (typeArgumentsOfCall ctx) else return none

def typeParameter (ctx : Context) : Parse Node := do
  let m ← mark
  let _ ← accept .constKeyword
  let name ← identifier ctx
  let bound ← behind .extendsKeyword (recur (.type (withConditionalTypes ctx)))
  let default ← behind .equalsToken (recur (.type (withConditionalTypes ctx)))
  node m (.typeParameter name bound default)

def typeParameters (ctx : Context) : Parse (List Node) :=
  between .lessThanToken .greaterThanToken (commaItems .greaterThanToken (typeParameter ctx))

def typeParameters? (ctx : Context) : Parse (Option (List Node)) :=
  whenAt .lessThanToken (typeParameters ctx)

/-! ## References -/

/-- The first part of a dotted name, keywords of the language included. -/
def entityHead (ctx : Context) : Parse Node := do
  if (← token).isIdentifierLike then identifierToken else identifier ctx

/-- One part of a dotted name behind those before it. -/
def entityTurn (m : Mark) (left : Node) : Parse (Turn Node) := do
  if ← accept .dotToken then
    let right ← name
    return .again (← node m (.qualifiedName left right))
  return .done left

/-- A dotted name. -/
def entityName (ctx : Context) : Parse Node := do
  let m ← mark
  loop (entityTurn m) (← entityHead ctx)

/-- Type arguments on the same line. -/
def referenceArguments? (ctx : Context) : Parse (Option (List Node)) := do
  if ← afterLineBreak then return none
  whenAt .lessThanToken (typeArguments ctx)

def typeReference (ctx : Context) : Parse Node := do
  let m ← mark
  let name ← entityName ctx
  let arguments ← referenceArguments? ctx
  node m (.typeReference name arguments)

/-- References between commas, at least one. -/
def typeReferences (ctx : Context) : Parse (List Node) := do
  let first ← typeReference ctx
  let others ← more .commaToken (typeReference ctx)
  return first :: others

/-- References behind a word, if it is there. -/
def typeReferencesBehind (word : Kind) (ctx : Context) : Parse (List Node) := do
  if ← accept word then typeReferences ctx else return []

/-! ## Signatures -/

/-- Whether a predicate can be about a token of this kind. -/
def isSubject (k : Kind) : Bool := k.isIdentifierLike || k == .thisKeyword

/-- Whether the word `asserts` and the subject of a predicate follow on the same line. -/
def startsAssertion : Parse Bool := isAt .assertsKeyword <&&> nextIs (onSameLine isSubject)

/-- Whether the subject of a predicate and the word `is` follow on the same line. -/
def startsPredicate : Parse Bool := tokenIs isSubject <&&> nextIs (onSameLine (· == .isKeyword))

/-- A type, or an assertion about the type of a parameter. -/
def typeOrPredicate (ctx : Context) : Parse Node := do
  let m ← mark
  if ← startsAssertion then
    advance
    let parameter ← identifierToken
    let type ← behind .isKeyword (recur (.type ctx))
    return ← node m (.typePredicate true parameter type)
  if ← startsPredicate then
    let parameter ← identifierToken
    advance
    let type ← recur (.type ctx)
    return ← node m (.typePredicate false parameter (some type))
  recur (.type ctx)

/-- The type of a result behind a colon, if there is one. -/
def returnType (ctx : Context) : Parse (Option Node) := behind .colonToken (typeOrPredicate ctx)

/-- The type of a result behind an arrow, which has to be there. -/
def arrowResult (ctx : Context) : Parse (Option Node) := do
  if ← expect .equalsGreaterThanToken then some <$> typeOrPredicate ctx else return none

/-- A call or construct signature from its type parameters on. -/
def signature (m : Mark) (sort : SignatureSort) (ctx : Context) : Parse Node := do
  let typeParameters ← typeParameters? ctx
  let parameters ← formalParameters ctx
  let result ← returnType ctx
  node m (.signature sort typeParameters parameters result)

def functionType (ctx : Context) : Parse Node := do
  let m ← mark
  let sort := if ← accept .newKeyword then .constructorType else .functionType
  let typeParameters ← typeParameters? ctx
  let parameters ← formalParameters ctx
  let result ← arrowResult ctx
  node m (.signature sort typeParameters parameters result)

/-- One turn through modifiers, whatever follows them. -/
def skipModifierTurn (_ : Unit) : Parse (Turn Unit) := do
  if (← token).isAccessModifier then
    advance
    return .again ()
  return .done ()

def skipModifiers : Parse Unit := loop skipModifierTurn ()

/-- Moves over the start of a parameter, and answers whether there is one. -/
def skipParameterStart : Parse Bool := do
  skipModifiers
  let k ← token
  if k.isIdentifierLike || k == .thisKeyword then
    advance
    return true
  if k.isPatternStart then
    let before ← reported
    let _ ← bindingName ∅
    return (← reported) == before
  return false

/-- Whether an opening parenthesis begins the parameters of a function type. -/
def opensParameters : Parse Bool := do
  advance
  if ← isAtAny [.closeParenToken, .dotDotDotToken] then return true
  if ← skipParameterStart then
    if ← isAtAny [.colonToken, .commaToken, .questionToken, .equalsToken] then return true
    if ← accept .closeParenToken then return ← isAt .equalsGreaterThanToken
  return false

def startsFunctionType : Parse Bool := do
  match ← token with
  | .lessThanToken | .newKeyword => return true
  | .openParenToken => lookAhead opensParameters
  | _ => return false

/-! ## Members of object types -/

/-- Whether an opening bracket begins an index signature rather than a computed name. -/
def opensIndexSignature : Parse Bool := lookAhead do
  advance
  if ← isAtAny [.dotDotDotToken, .closeBracketToken] then return true
  let _ ← advanceWhen (tokenIs Kind.isAccessModifier)
  unless (← token).isIdentifierLike do return false
  advance
  if ← accept .questionToken then return ← isAtAny [.colonToken, .commaToken, .closeBracketToken]
  isAtAny [.colonToken, .commaToken]

/-- The key of an index signature. -/
def indexParameter (ctx : Context) : Parse Node := do
  let m ← mark
  let modifiers ← parameterModifiers
  let binding ← identifier ctx
  parameterTail ctx { m := m.withModifiers modifiers, binding }

/-- One turn through the keys of an index signature. The list ends where a comma is missing. -/
def indexParameterTurn (ctx : Context) (found : Array Node) : Parse (Turn (Array Node)) := do
  if ← atListEnd .closeBracketToken then return .done found
  let found := found.push (← indexParameter ctx)
  return if ← accept .commaToken then .again found else .done found

def indexParameters (ctx : Context) : Parse Node := do
  let m ← mark
  let keys ← between .openBracketToken .closeBracketToken (collect (indexParameterTurn ctx))
  node m (.formalParameters keys false)

def indexSignature (m : Mark) (ctx : Context) : Parse Node := do
  let parameters ← indexParameters ctx
  let ascription ← typeAscription ctx
  node m (.indexSignature parameters ascription)

/-- Whether the present token opens the parameters of a signature. -/
def atSignature : Parse Bool := isAtAny [.openParenToken, .lessThanToken]

/-- A property or method of an object type, from its name on. -/
def namedMember (m : Mark) (ctx : Context) : Parse Node := do
  let name ← propertyName ctx
  let optional ← accept .questionToken
  if ← atSignature then
    let typeParameters ← typeParameters? ctx
    let parameters ← formalParameters ctx
    let result ← returnType ctx
    node m (.methodSignature name optional typeParameters parameters result)
  else
    let ascription ← typeAscription ctx
    node m (.propertySignature name optional ascription)

/-- Whether the present token starts the name of a property on the same line. -/
def isBeforePropertyName : Parse Bool := onSameLine isPropertyNameStart

def typeMember (ctx : Context) : Parse Node := do
  let m ← mark
  if ← atSignature then return ← signature m .call ctx
  if ← isAt .newKeyword <&&> nextIs atSignature then
    advance
    return ← signature m .construct ctx
  let isReadonly ← advanceWhen (isAt .readonlyKeyword <&&> nextIs isBeforePropertyName)
  let m := m.withModifiers (.when isReadonly ModifierFlag.readonly)
  if ← isAt .openBracketToken <&&> opensIndexSignature then return ← indexSignature m ctx
  namedMember m ctx

def isTypeMemberStart : Kind → Bool
  | .openParenToken | .lessThanToken => true
  | k => isPropertyNameStart k

/-- The comma or semicolon behind a member. -/
def endTypeMember : Parse Unit := do
  unless ← accept .commaToken do expectSemicolon

/-- One turn through the members of an object type. A token that starts no member is skipped. -/
def typeMemberTurn (ctx : Context) (found : Array Node) : Parse (Turn (Array Node)) := do
  if ← atListEnd .closeBraceToken then return .done found
  unless isTypeMemberStart (← token) do
    reportHere .typeMemberExpected
    advance
    return .again found
  let start ← tokenStart
  match ← recur (.typeMember (withConditionalTypes ctx)) with
  | none => return .done found
  | some member =>
    endTypeMember
    ifUnmoved start advance
    return .again (found.push member)

/-- Members between braces. -/
def typeMembers (ctx : Context) : Parse (List Node) :=
  within .openBraceToken .closeBraceToken [] (collect (typeMemberTurn ctx))

/-! ## Types -/

/-- Whether a name and a colon follow, with or without a question mark between them. -/
def startsLabel : Parse Bool := tokenIs Kind.isIdentifierLike <&&> lookAhead do
  advance
  let _ ← accept .questionToken
  isAt .colonToken

/-- Consumes the label of a tuple element, and answers whether it has a question mark. -/
def tupleLabel : Parse (Option Bool) := do
  unless ← advanceWhen startsLabel do return none
  let optional ← accept .questionToken
  let _ ← expect .colonToken
  return some optional

/-- Whether a tuple element is optional: its label says so, or else a question mark behind it. -/
def isOptionalElement (label : Option Bool) : Parse Bool :=
  match label with
  | some optional => return optional
  | none => accept .questionToken

/-- A type as it is or with a mark around it. -/
def wrappedIf (c : Bool) (m : Mark) (sort : WrapperSort) (inner : Node) : Parse Node := do
  if c then node m (.wrappedType sort inner) else return inner

/-- A type with the marks of a tuple element around it. -/
def tupleElement (ctx : Context) : Parse Node := do
  let m ← mark
  let rest ← accept .dotDotDotToken
  let label ← tupleLabel
  let inner ← recur (.type ctx)
  let optional ← isOptionalElement label
  wrappedIf rest m .rest (← wrappedIf optional m .optional inner)

def tupleType (ctx : Context) : Parse Node := do
  let m ← mark
  let elements ← between .openBracketToken .closeBracketToken
    (commaItems .closeBracketToken (tupleElement (withConditionalTypes ctx)))
  node m (.tupleType elements)

/-- A negated number. -/
def negativeNumber : Parse Node := do
  let m ← mark
  advance
  node m (.prefixUnary .minusToken (← literal))

/-- Whether a minus sign and a number follow. -/
def startsNegativeNumber : Parse Bool :=
  isAt .minusToken <&&> nextIs (isAtAny [.numericLiteral, .bigIntLiteral])

/-- A keyword that names a type, unless it is the first part of a dotted name. -/
def isKeywordType (k : Kind) : Parse Bool := do
  if k.isKeywordType then return !(← nextIs (isAt .dotToken))
  return false

/-- A type without postfix brackets. -/
def primaryType (ctx : Context) : Parse Node := do
  let m ← mark
  let k ← token
  if ← isKeywordType k then
    advance
    return ← node m (.keywordType k)
  match k with
  | .thisKeyword =>
    advance
    node m .thisType
  | .typeOfKeyword =>
    advance
    node m (.typeQuery (← entityName ctx))
  | .trueKeyword | .falseKeyword => node m (.literalType (← keywordExpression))
  | .stringLiteral | .numericLiteral | .bigIntLiteral | .noSubstitutionTemplateLiteral =>
    node m (.literalType (← literal))
  | .openBraceToken => node m (.typeLiteral (← typeMembers ctx))
  | .openBracketToken => tupleType ctx
  | .openParenToken =>
    advance
    let inner ← recur (.type (withConditionalTypes ctx))
    let _ ← expect .closeParenToken
    node m (.wrappedType .parenthesized inner)
  | _ =>
    if k.isIdentifierLike then return ← typeReference ctx
    if ← startsNegativeNumber then return ← node m (.literalType (← negativeNumber))
    reportHere .typeExpected
    missingType

/-- One pair of brackets behind a type. -/
def postfixTurn (ctx : Context) (m : Mark) (left : Node) : Parse (Turn Node) := do
  if ← afterLineBreak then return .done left
  unless ← accept .openBracketToken do return .done left
  if ← accept .closeBracketToken then return .again (← node m (.arrayType left))
  let index ← recur (.type (withConditionalTypes ctx))
  let _ ← expect .closeBracketToken
  return .again (← node m (.indexedAccessType left index))

/-- A type with the brackets of arrays and of indexed access behind it. -/
def postfixType (ctx : Context) : Parse Node := do
  let m ← mark
  loop (postfixTurn ctx m) (← primaryType ctx)

/-- The bound of an inferred type. Within the bound of a conditional type it is taken only if no
question mark follows. -/
def inferredBound (ctx : Context) : Parse (Option Node) := attempt do
  unless ← accept .extendsKeyword do return none
  let bound ← recur (.type (ctx.excluding [.conditionalTypes]))
  if !ctx.has .conditionalTypes && (← isAt .questionToken) then return none
  return some bound

/-- The type parameter that an inferred type declares. -/
def inferredParameter (ctx : Context) : Parse Node := do
  let m ← mark
  let name ← identifier ctx
  let bound ← inferredBound ctx
  node m (.typeParameter name bound none)

def inferType (ctx : Context) : Parse Node := do
  let m ← mark
  advance
  node m (.inferType (← inferredParameter ctx))

/-- A type with its prefix operators. -/
def typeOperator (ctx : Context) : Parse Node := do
  let m ← mark
  match ← token with
  | .inferKeyword => inferType ctx
  | .keyOfKeyword | .uniqueKeyword | .readonlyKeyword =>
    let operator ← token
    advance
    let operand ← recur (.typeOperator ctx)
    node m (.typeOperator operator operand)
  | _ => postfixType ctx

/-- Types joined by an operator, which may also stand in front. -/
def combinedType (operator : Kind) (sort : CombinationSort) (member : Parse Node) : Parse Node := do
  let m ← mark
  let _ ← accept operator
  let first ← member
  unless ← isAt operator do return first
  let others ← more operator member
  node m (.combinedType sort (first :: others))

/-- A part of an intersection. -/
def intersectionMember (ctx : Context) : Parse Node := do
  if ← startsFunctionType then functionType ctx else recur (.typeOperator ctx)

def intersectionType (ctx : Context) : Parse Node :=
  combinedType .ampersandToken .intersection (intersectionMember ctx)

def unionType (ctx : Context) : Parse Node :=
  combinedType .barToken .union (intersectionType ctx)

def type (ctx : Context) : Parse Node := do
  if ← startsFunctionType then return ← functionType ctx
  let m ← mark
  let check ← unionType ctx
  if !ctx.has .conditionalTypes || (← afterLineBreak) then return check
  unless ← accept .extendsKeyword do return check
  let bound ← recur (.type (ctx.excluding [.conditionalTypes]))
  let _ ← expect .questionToken
  let whenTrue ← recur (.type (withConditionalTypes ctx))
  let _ ← expect .colonToken
  let whenFalse ← recur (.type (withConditionalTypes ctx))
  node m (.conditionalType check bound whenTrue whenFalse)

end EcmaSyntax.Grammar
