import EcmaSyntax.Tree.Transform

/-! # Listing a tree

The nodes of a tree in the order in which a reader of the source meets their beginnings: a node
before its children, the children in order. Each node is listed with its depth, the name of the
field of its parent that holds it, and what is known of its subtree. -/
namespace EcmaSyntax

/-- A node in a listing. -/
structure Entry where
  depth : Nat
  role : String
  node : Node
  features : TransformFlags
  size : Nat

namespace Node

/-- The names of the fields that hold the children of a node, one name for each child. -/
def childRoles (n : Node) : List String :=
  n.form.fields.flatMap fun field => field.children.map fun _ => field.name

/-- A subtree that has been measured, ready to be listed behind the entries so far. -/
structure Measured where
  features : TransformFlags
  size : Nat
  list : String → Nat → Array Entry → Array Entry

/-- Measures a node whose children have been measured. -/
def measure (n : Node) (below : List Measured) : Measured :=
  let features := n.ownFeatures ∪ .unionOf (below.map (·.features))
  let size := (below.map (·.size)).foldr (· + ·) 1
  { features := features
    size := size
    list := fun role depth entries =>
      (n.childRoles.zip below).foldl (fun entries (childRole, child) =>
          child.list childRole (depth + 1) entries)
        (entries.push ⟨depth, role, n, features, size⟩) }

/-- All nodes of a tree. -/
def entries (n : Node) : Array Entry := (gather measure n).list "root" 0 #[]

end Node
end EcmaSyntax
