import EcmaSyntax.Grammar.Class
import EcmaSyntax.Grammar.Variable

/-! # Declarations

Interfaces, type aliases, enumerations, imports and exports, and the choice among all
declarations. A mark carries what a prefix such as `declare` or `export` contributes to the
declaration behind it. -/
namespace EcmaSyntax.Grammar
open Parse
variable [Recursion]

/-! ## Types and enumerations -/

/-- An interface, from its name on. -/
def interfaceDeclaration (ctx : Context) (m : Mark) : Parse Node := do
  let name ← identifier ctx
  let typeParameters ← typeParameters? ctx
  let bases ← typeReferencesBehind .extendsKeyword ctx
  let members ← typeMembers ctx
  node m (.interfaceDeclaration name typeParameters bases members)

/-- A type alias, from its name on. -/
def typeAlias (ctx : Context) (m : Mark) : Parse Node := do
  let name ← identifier ctx
  let typeParameters ← typeParameters? ctx
  let _ ← expect .equalsToken
  let type ← recur (.type ctx)
  expectSemicolon
  node m (.typeAlias name typeParameters type)

def enumMember (ctx : Context) : Parse Node := do
  let m ← mark
  let name ← propertyName ctx
  let value ← initializer (ctx.excluding [.withoutIn])
  node m (.enumMember name value)

/-- One turn through the members of an enumeration. The list ends where a member or a comma is
missing. -/
def enumTurn (ctx : Context) (found : Array Node) : Parse (Turn (Array Node)) := do
  if ← atListEnd .closeBraceToken then return .done found
  unless isPropertyNameStart (← token) do
    reportHere .enumMemberExpected
    return .done found
  let found := found.push (← enumMember ctx)
  if ← isAt .closeBraceToken then return .done found
  return if ← expect .commaToken then .again found else .done found

/-- An enumeration, from its name on. -/
def enumDeclaration (ctx : Context) (m : Mark) : Parse Node := do
  let name ← identifier ctx
  let members ← within .openBraceToken .closeBraceToken [] (collect (enumTurn ctx))
  node m (.enumDeclaration name members)

/-! ## Imports -/

/-- The text that names a module. -/
def moduleName : Parse Node := do
  if ← isAt .stringLiteral then return ← literal
  reportHere .stringExpected
  missingIdentifier

/-- Whether an imported or exported name may follow the word `type`. -/
def isBeforeSpecifier : Parse Bool := tokenIs fun k => k.isName && k != .asKeyword

/-- One name of a list, and the name that it is given. -/
def specifier (direction : Direction) : Parse Node := do
  let m ← mark
  let isTypeOnly ← advanceWhen (isAt .typeKeyword <&&> nextIs isBeforeSpecifier)
  let first ← name
  if ← accept .asKeyword then
    let second ← name
    node m (.specifier direction isTypeOnly (some first) second)
  else node m (.specifier direction isTypeOnly none first)

/-- Names between braces. -/
def specifiers (direction : Direction) : Parse Node := do
  let m ← mark
  let elements ← between .openBraceToken .closeBraceToken
    (commaItems .closeBraceToken (specifier direction))
  node m (.namedSpecifiers direction elements)

/-- A name for all that a module exports. -/
def namespaceImport (ctx : Context) : Parse Node := do
  let m ← mark
  advance
  let _ ← expect .asKeyword
  let given ← identifier ctx
  node m (.namespaceBinding .imported (some given))

/-- The bindings behind the default one, or in its place. -/
def importBindings (ctx : Context) (isOnly : Bool) : Parse (Option Node) := do
  match ← token with
  | .asteriskToken => some <$> namespaceImport ctx
  | .openBraceToken => some <$> specifiers .imported
  | _ =>
    reportWhen isOnly .identifierExpected
    return none

/-- The bindings of an import. With a default one they follow a comma, if they are there. -/
def importedBindings (ctx : Context) (hasDefault : Bool) : Parse (Option Node) := do
  if ← (return !hasDefault) <||> accept .commaToken then importBindings ctx !hasDefault
  else return none

/-- Whether the word `type` before the present token makes an import one of types. -/
def isBeforeTypeImport : Parse Bool := tokenIs fun
  | .openBraceToken | .asteriskToken => true
  | k => k.isIdentifierLike && k != .fromKeyword

def importClause (ctx : Context) : Parse Node := do
  let m ← mark
  let isTypeOnly ← advanceWhen (isAt .typeKeyword <&&> nextIs isBeforeTypeImport)
  let name ← identifier? ctx
  let bindings ← importedBindings ctx name.isSome
  let _ ← expect .fromKeyword
  node m (.importClause isTypeOnly name bindings)

def importDeclaration (ctx : Context) (m : Mark) : Parse Node := do
  let _ ← expect .importKeyword
  let clause ← unlessAtAny [.stringLiteral] (importClause ctx)
  let source ← moduleName
  expectSemicolon
  node m (.importDeclaration clause source)

/-- Whether the word `import` begins a declaration rather than an expression. -/
def isBeforeImport : Parse Bool := nextIs (tokenIs (!·.isMemberOrCallStart))

/-! ## Exports -/

/-- An export of named bindings. -/
def exportNames (m : Mark) (isTypeOnly : Bool) : Parse Node := do
  let clause ← specifiers .exported
  let source ← behind .fromKeyword moduleName
  expectSemicolon
  node m (.exportDeclaration isTypeOnly (some clause) source none)

/-- An asterisk with the name that is given to the whole. -/
def exportedNamespace : Parse Node := do
  let m ← mark
  advance
  let given ← behind .asKeyword name
  node m (.namespaceBinding .exported given)

/-- An export of all that another module exports. -/
def exportAll (m : Mark) : Parse Node := do
  let clause ← exportedNamespace
  let _ ← expect .fromKeyword
  let source ← moduleName
  expectSemicolon
  node m (.exportDeclaration false (some clause) (some source) none)

/-- An export of one value. -/
def exportValue (ctx : Context) (m : Mark) (isEquals : Bool) : Parse Node := do
  let value ← recur (.assignment ctx)
  expectSemicolon
  node m (.exportAssignment isEquals value)

/-- A declaration as the default export, if one begins at the present token. -/
def defaultDeclaration? (ctx : Context) : Parse (Option Node) := do
  let m := (← mark).withModifiers (.ofList [.exported, .default])
  match ← token with
  | .functionKeyword => some <$> functionDeclaration ctx m
  | .asyncKeyword =>
    if ← isBeforeFunction then some <$> functionDeclaration ctx m else return none
  | .classKeyword | .atToken => some <$> classLike .declaration ctx m
  | .abstractKeyword =>
    unless ← nextIs (isAt .classKeyword) do return none
    advance
    some <$> classLike .declaration ctx
      ((m.withFlags NodeFlag.abstract).withModifiers ModifierFlag.abstract)
  | _ => return none

def exportDefault (ctx : Context) (m : Mark) : Parse Node := do
  advance
  match ← defaultDeclaration? ctx with
  | some declaration =>
    node (m.withModifiers ModifierFlag.default) (.exportDeclaration false none none declaration)
  | none => exportValue ctx m false

/-- An export of a declaration. -/
def exportDeclared (ctx : Context) (m : Mark) : Parse Node := do
  let inner := (← mark).withModifiers ModifierFlag.exported
  let declaration ← recur (.declaration ctx inner)
  node m (.exportDeclaration false none none (some declaration))

def exportDeclaration (ctx : Context) (m : Mark) : Parse Node := do
  let _ ← expect .exportKeyword
  let m := m.withModifiers ModifierFlag.exported
  match ← token with
  | .defaultKeyword => exportDefault ctx m
  | .equalsToken =>
    advance
    exportValue ctx m true
  | .asteriskToken => exportAll m
  | .openBraceToken => exportNames m false
  | .typeKeyword =>
    if ← nextIs (isAt .openBraceToken) then
      advance
      exportNames m true
    else exportDeclared ctx m
  | _ => exportDeclared ctx m

/-! ## The choice among declarations -/

/-- Consumes a word where an identifier follows on the same line. -/
def acceptBeforeName : Parse Bool := advanceIf (onSameLine Kind.isIdentifierLike)

/-- Consumes `declare` or `abstract` where a declaration follows on the same line. -/
def acceptPrefix : Parse Bool := advanceIf (onSameLine Kind.canFollowDeclareOrAbstract)

/-- A statement in a place where a declaration could stand. -/
def plainStatement (ctx : Context) : Parse Node := recur (.statement ctx .plain)

/-- A declaration behind the word `abstract`, which is meant for classes. -/
def abstractDeclaration (ctx : Context) (m : Mark) : Parse Node := do
  let word ← tokenSpan
  unless ← acceptPrefix do return ← plainStatement ctx
  let m := (m.withFlags NodeFlag.abstract).withModifiers ModifierFlag.abstract
  if ← isAt .classKeyword then return ← classLike .declaration ctx m
  reportAt word .misplacedAbstract
  recur (.declaration ctx m)

/-- A constant enumeration, or constants. -/
def constDeclaration (ctx : Context) (m : Mark) : Parse Node := do
  if ← nextIs (isAt .enumKeyword) then
    advance
    advance
    return ← enumDeclaration ctx (m.withFlags NodeFlag.constBinding)
  let keyword ← mark
  advance
  variableStatement ctx m keyword NodeFlag.constBinding

/-- A declaration, or a statement where none begins. -/
def declaration (ctx : Context) (m : Mark) : Parse Node := do
  match ← token with
  | .functionKeyword => functionDeclaration ctx m
  | .asyncKeyword =>
    if ← isBeforeFunction then functionDeclaration ctx m else plainStatement ctx
  | .atToken | .classKeyword => classLike .declaration ctx m
  | .constKeyword => constDeclaration ctx m
  | .letKeyword =>
    let keyword ← mark
    if ← acceptLet ctx then variableStatement ctx m keyword NodeFlag.letBinding
    else plainStatement ctx
  | .varKeyword =>
    let keyword ← mark
    advance
    variableStatement ctx m keyword ∅
  | .interfaceKeyword =>
    if ← acceptBeforeName then interfaceDeclaration ctx m else plainStatement ctx
  | .enumKeyword => if ← acceptBeforeName then enumDeclaration ctx m else plainStatement ctx
  | .typeKeyword => if ← acceptBeforeName then typeAlias ctx m else plainStatement ctx
  | .abstractKeyword => abstractDeclaration ctx m
  | .declareKeyword =>
    if ← acceptPrefix then
      recur (.declaration ctx (m.withFlags (.ofList [.declared, .ambient])))
    else plainStatement ctx
  | .importKeyword =>
    if ← isBeforeImport then
      reportHere .importOutsideModule
      importDeclaration ctx m
    else plainStatement ctx
  | .exportKeyword =>
    reportHere .exportOutsideModule
    exportDeclaration ctx m
  | _ => plainStatement ctx

/-- An item at the top of a module, where imports and exports stand. -/
def moduleItem (ctx : Context) : Parse Node := do
  let m ← mark
  if ← isAt .exportKeyword then return ← exportDeclaration ctx m
  if ← isAt .importKeyword <&&> isBeforeImport then return ← importDeclaration ctx m
  declaration ctx m

/-- An item of a list of statements. -/
def item (inModule : Bool) (ctx : Context) : Parse Node := do
  if inModule then moduleItem ctx else declaration ctx (← mark)

end EcmaSyntax.Grammar
