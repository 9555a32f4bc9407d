import EcmaSyntax.Proofs.Edges

/-! # Places for statements and names

Some statements, declarations and names may stand in some places only: a `return` in a function, a
`with` in sloppy code, a private name in a class, a function as a branch of sloppy code. What the
place of a node is follows from the edges above it. -/
namespace EcmaSyntax

/-! ## Fields -/

namespace Form
variable {α : Type}

/-- The fields that hold what a call runs. -/
def functionBodies : Form α → List String
  | .function .. | .method .. | .arrowFunction .. => ["body"]
  | _ => []

/-- The fields that hold what runs while a class is set up. -/
def setups : Form α → List String
  | .staticBlock .. => ["body"]
  | .propertyDefinition .. => ["initializer"]
  | _ => []

/-- The fields of a class, apart from its own decorators. -/
def classParts : Form α → List String
  | .classLike .. =>
    ["name", "type_parameters", "extends_clause", "implements_clause", "members"]
  | _ => []

/-- The fields that hold the members of a class. -/
def memberFields : Form α → List String
  | .classLike .. => ["members"]
  | _ => []

/-- The fields that hold the body of a loop or of a `with`. -/
def loopBodies : Form α → List String
  | .doStatement .. | .whileStatement .. | .forStatement .. | .forEach .. | .withStatement .. =>
    ["statement"]
  | _ => []

/-- The fields that hold a branch or the body of a label. -/
def branches : Form α → List String
  | .ifStatement .. => ["then_statement", "else_statement"]
  | .labeled .. => ["statement"]
  | _ => []

def isFunctionDeclaration : Form α → Bool
  | .function .declaration .. => true
  | _ => false

/-- Whether a form declares what a block alone may hold. -/
def isScopedDeclaration : Form α → Bool
  | .classLike .declaration .. => true
  | .variableStatement lexical _ => lexical
  | _ => false

/-- Whether a form passes names into a module or out of it. -/
def isPort : Form α → Bool
  | .importDeclaration .. | .exportDeclaration .. | .exportAssignment .. => true
  | _ => false

/-- Whether a form is a list of statements that may begin with directives. -/
def isBody : Form α → Bool
  | .block .. | .sourceBody .. => true
  | _ => false

end Form

/-! ## Places -/

/-- What is known of the place of a node. -/
structure Place where
  /-- The node is strict code. -/
  strict : Bool
  /-- The node lies in the body of a function, and what is set up in that body is elsewhere. -/
  returns : Bool
  /-- The node lies beneath a member of a class. -/
  inMember : Bool
  /-- The node is the source or the body of a function, so that directives count in it. -/
  directed : Bool

/-- Whether a statement is a directive that asks for strict code. -/
def Node.asksForStrict (statement : Node) : Bool :=
  statement.directiveText?.any fun (text, _) => text ∈ ["'use strict'", "\"use strict\""]

/-- Whether the directives at the start of a list of statements ask for strict code. -/
def startsStrict (statements : List Node) : Bool :=
  (statements.takeWhile fun s => s.directiveText?.isSome).any (·.asksForStrict)

namespace Place

/-- The place of a whole source. -/
def ofOptions (options : ParseOptions) : Place where
  strict := options.goal == .module || options.impliedStrict
  returns := false
  inMember := false
  directed := true

/-- The place behind an edge. -/
def across (place : Place) (n : Node) (name : String) (before : List Node) : Place where
  strict := place.strict || name ∈ n.form.classParts ||
    place.directed && n.form.isBody && startsStrict before
  returns := name ∈ n.form.functionBodies || place.returns && name ∉ n.form.setups
  inMember := place.inMember || name ∈ n.form.memberFields
  directed := name ∈ n.form.functionBodies

end Place

/-- A node is in place. -/
structure Node.InPlace (options : ParseOptions) (place : Place) (n : Node) : Prop where
  returned : ∀ e, n.form = .returnStatement e → place.returns = true
  sloppy : ∀ e body, n.form = .withStatement e body → place.strict = false
  functions : ∀ name before c, n.Edge name before c → c.form.isFunctionDeclaration = true →
    name ∉ n.form.loopBodies ∧
      (name ∈ n.form.branches → place.strict = false ∧ options.webCompat = true)
  declarations : ∀ name before c, n.Edge name before c → c.form.isScopedDeclaration = true →
    name ∉ n.form.loopBodies ∧ name ∉ n.form.branches
  privateNames : ∀ text word, n.form = .identifier true text word → place.inMember = true
  ports : ∀ name before c, n.Edge name before c → c.form.isPort = true →
    ∃ statements, n.form = .sourceBody .module statements

/-- A tree in which every node is in place. -/
inductive Node.Placed (options : ParseOptions) : Place → Node → Prop
  | intro {place : Place} {n : Node} : n.InPlace options place →
      (∀ name before c, n.Edge name before c → Placed options (place.across n name before) c) →
      Placed options place n

theorem Node.Walk.placed {options : ParseOptions} {place : Place} {root n : Node}
    (h : root.Walk Place.across (.ofOptions options) place n)
    (hroot : root.Placed options (.ofOptions options)) : n.Placed options place := by
  induction h with
  | root => exact hroot
  | edge _ he ih =>
    obtain ⟨_, hinner⟩ := ih
    exact hinner _ _ _ he

end EcmaSyntax
