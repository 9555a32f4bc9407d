import EcmaSyntax.Tree.Node

/-! # Questions about single nodes

What a node is, as far as it decides how its surroundings are read. -/
namespace EcmaSyntax.Node

/-- A plain identifier, not a private one. -/
def isIdentifier (n : Node) : Bool :=
  match n.form with
  | .identifier isPrivate _ _ => !isPrivate
  | _ => false

def isArrayOrObjectLiteral (n : Node) : Bool :=
  match n.form with
  | .arrayLiteral .. | .objectLiteral .. => true
  | _ => false

/-- An expression that can be read as a binding. -/
def isIdentifierOrPattern (n : Node) : Bool := n.isIdentifier || n.isArrayOrObjectLiteral

def isParameter (n : Node) : Bool :=
  match n.form with
  | .formalParameter .. => true
  | _ => false

def isSpread (n : Node) : Bool :=
  match n.form with
  | .spread .. => true
  | _ => false

/-- Arrow parameters that no arrow function has taken up yet. -/
def isArrowParameters (n : Node) : Bool :=
  match n.form with
  | .arrowParameters .. => true
  | _ => false

def isArrowFunction (n : Node) : Bool :=
  match n.form with
  | .arrowFunction .. => true
  | _ => false

/-- Whether an expression may stand on the left of an assignment. -/
def isLeftHandSide (n : Node) : Bool :=
  match n.form with
  | .prefixUnary .. | .postfixUnary .. | .binary .. | .assignment .. | .conditional .. | .yield ..
  | .await .. | .typeAssertion .. | .arrowFunction .. | .arrowParameters .. => false
  | _ => true

/-- The text of an identifier. -/
def identifierText? (n : Node) : Option String :=
  match n.form with
  | .identifier _ text _ => some text
  | _ => none

/-- The spelling of a property name, unless it is computed. -/
def propertyNameText? (n : Node) : Option String :=
  match n.form with
  | .identifier _ text _ | .literal _ text _ => some text
  | _ => none

/-- The text of an expression statement that consists of a string literal. -/
def directiveText? (n : Node) : Option (String × Range) :=
  match n.form with
  | .expressionStatement e =>
    match e.form with
    | .literal .stringLiteral text _ => some (text, e.range)
    | _ => none
  | _ => none

/-- The dotted, namespaced or plain path of a tag name. -/
inductive TagPath
  | plain (name : String)
  | namespaced (space name : String)
  | member (object : TagPath) (name : String)
deriving DecidableEq

/-- The names of the properties and methods of a class body, in order. -/
def memberNames (members : List Node) : List (Option String) :=
  members.filterMap fun m =>
    match m.form with
    | .propertyDefinition _ name .. | .method _ _ name .. => some name.propertyNameText?
    | _ => none

/-- The elements between the parentheses of an arrow function or of a call. -/
def parenthesizedElements (n : Node) : List Node :=
  match n.form with
  | .arrowFunction _ parameters _ =>
    match parameters.form with
    | .arrowParameters _ elements _ _ => elements
    | _ => []
  | .call _ _ _ arguments =>
    match arguments.form with
    | .argumentList elements _ => elements
    | _ => []
  | _ => []

end EcmaSyntax.Node
