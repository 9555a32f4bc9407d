import EcmaSyntax.Proofs.Edges

/-! # Lists that are read once

A parenthesized list is read before the token that decides what it is. The decision wraps the
elements and changes none of them; a last element behind three dots is a rest parameter or a spread
of the same binding, in the same range. But what an element is may depend on the decision after all:
to find out whether a colon begins a return type, the grammar looks ahead without the words that are
operators at that place, and so may look past the end of the list. -/
namespace EcmaSyntax

namespace Grammar
open Parse ParseState
section Lists
variable [Recursion] {W : Nat} [Lawful W] {s : ParseState} [s.Ready] {ctx : Context}

end Lists

end Grammar

/-- The kinds of the nodes of a tree, each before those below it. -/
def Node.kinds : Node → List Kind := Node.gather fun n below => n.kind :: below.flatten

end EcmaSyntax
