import EcmaSyntax.Proofs.Grammar.Operation
import EcmaSyntax.Proofs.Parse.Reads

/-! # Lawful grammars

What the routines of the grammar may take for granted of the rules they meet: a rule that weighs
less than a bound has an answer, and the answer is derived. -/
namespace EcmaSyntax
open Parse

/-- An element of a list, read as a phrase and for what its certainty says. -/
structure ReadElement (ph : Phrase) (ctx : Context) (s : ParseState) (a : Node × Certainty)
    (t : ParseState) : Prop where
  built : Built s ⟨ph, ctx, a.1⟩ t
  shaped : a.2.isPossible = true → a.1.endsParameters = true

namespace ReadElement
variable {ph : Phrase} {ctx : Context} {s t u : ParseState} {a : Node × Certainty}

theorem shallower (hdepth : s.depth < nestingLimit) (h : ReadElement ph.body ctx s.deeper a t) :
    ReadElement ph ctx s a t.shallower :=
  ⟨h.built.shallower hdepth, h.shaped⟩

theorem after [s.Ready] (h : ReadElement ph ctx t a u) (hm : Moves s t)
    (hexact : ph.isExact = false) : ReadElement ph ctx s a u :=
  ⟨h.built.after hm fun hp => Bool.noConfusion (hexact.symm.trans hp), h.shaped⟩

end ReadElement

/-- Markup that has been read as a phrase. Behind a child of an element the next token is read as a
child too. -/
structure ReadMarkup (ph : Phrase) (ctx : Context) (isChild : Bool) (s : ParseState) (n : Node)
    (t : ParseState) : Prop where
  built : Built s ⟨ph, ctx, n⟩ t
  consumed : t.left < s.left
  no_text : n.childText? = none
  atChild : isChild = true → t.Faulty ∨ t.AtChild

namespace Rule

/-- What a rule has read between two states. A declaration may have begun before, with its
prefix. -/
def Meets (s : ParseState) : {α : Type} → Rule α → α → ParseState → Prop
  | _, .item inModule ctx, n, t => Built s ⟨.item inModule, ctx, n⟩ t
  | _, .statement ctx site, n, t => Built s ⟨.statement site, ctx, n⟩ t
  | _, .declaration ctx m, n, t =>
    ∀ (r : ParseState) [r.Ready], m.At r → Moves r s → Built r ⟨.declaration, ctx, n⟩ t
  | _, .coverElement ctx, answer, t => ∀ a ∈ answer, ReadElement .coverElement ctx s a t
  | _, .assignment ctx, n, t => Built s ⟨.assignment, ctx, n⟩ t
  | _, .operand ctx precedence, n, t =>
    Built s ⟨.operand precedence, ctx, n⟩ t ∧ Grammar.Settled ctx precedence t
  | _, .unary ctx, n, t => Built s ⟨.unary, ctx, n⟩ t
  | _, .leftHandSide ctx, n, t => Built s ⟨.suffixed true, ctx, n⟩ t
  | _, .newExpression ctx, n, t => Built s ⟨.newExpression, ctx, n⟩ t
  | _, .objectElement ctx, answer, t => ∀ n ∈ answer, Built s ⟨.objectElement, ctx, n⟩ t
  | _, .classElement ctx, answer, t =>
    ∀ member ∈ answer, ∀ n ∈ member, Built s ⟨.classElement, ctx, n⟩ t
  | _, .type ctx, n, t => Built s ⟨.type, ctx, n⟩ t
  | _, .typeOperator ctx, n, t => Built s ⟨.typeOperator, ctx, n⟩ t
  | _, .typeMember ctx, answer, t => ∀ n ∈ answer, Built s ⟨.typeMember, ctx, n⟩ t
  | _, .element ctx inExpression, n, t => ReadMarkup .element ctx (!inExpression) s n t

/-- What a rule makes at its own level. -/
def Makes (s : ParseState) : {α : Type} → Rule α → α → ParseState → Prop
  | _, .coverElement ctx, answer, t => ∀ a ∈ answer, ReadElement .covered ctx s a t
  | _, .assignment ctx, n, t => Built s ⟨.assigned, ctx, n⟩ t
  | _, rule, a, t => rule.Meets s a t

/-- Where a rule may be met. -/
def Fits (s : ParseState) : {α : Type} → Rule α → Prop
  | _, .declaration _ m => ∃ r : ParseState, r.Ready ∧ m.At r ∧ Moves r s
  | _, .newExpression _ => s.token = .newKeyword
  | _, .element .. => s.token = .lessThanToken
  | _, _ => True

end Rule

/-- Rules that weigh less than `W` are read as the grammar says. -/
class Lawful [Recursion] (W : outParam Nat) : Prop where
  recur_reads {α : Type} (rule : Rule α) (s : ParseState) [s.Ready] :
    rule.weight s < W → rule.Fits s → (recur rule).Reads s (rule.Meets s)

section Rules
variable [Recursion] {W : Nat} [Lawful W] {s : ParseState} [s.Ready] {ctx : Context}

theorem item_rule {inModule : Bool} (hb : s.left * 8 + 8 ≤ W) :
    (recur (.item inModule ctx)).Reads s fun n t => Built s ⟨.item inModule, ctx, n⟩ t :=
  Lawful.recur_reads (.item inModule ctx) s hb trivial

theorem statement_rule {site : StatementSite} (hb : s.left * 8 + 6 ≤ W) :
    (recur (.statement ctx site)).Reads s fun n t => Built s ⟨.statement site, ctx, n⟩ t :=
  Lawful.recur_reads (.statement ctx site) s hb trivial

theorem declaration_rule {m : Mark} {r : ParseState} [r.Ready] (hb : s.left * 8 + 7 ≤ W)
    (hm : m.At r) (hr : Moves r s) :
    (recur (.declaration ctx m)).Reads s fun n t => Built r ⟨.declaration, ctx, n⟩ t :=
  (Lawful.recur_reads (.declaration ctx m) s hb ⟨r, ‹_›, hm, hr⟩).mono fun _ _ h => h r hm hr

theorem coverElement_rule (hb : s.left * 8 + 6 ≤ W) :
    (recur (.coverElement ctx)).Reads s fun answer t =>
      ∀ a ∈ answer, ReadElement .coverElement ctx s a t :=
  Lawful.recur_reads (.coverElement ctx) s hb trivial

theorem assignment_rule (hb : s.left * 8 + 5 ≤ W) :
    (recur (.assignment ctx)).Reads s fun n t => Built s ⟨.assignment, ctx, n⟩ t :=
  Lawful.recur_reads (.assignment ctx) s hb trivial

theorem operand_rule {precedence : Precedence} (hb : s.left * 8 + 4 ≤ W) :
    (recur (.operand ctx precedence)).Reads s fun n t =>
      Built s ⟨.operand precedence, ctx, n⟩ t ∧ Grammar.Settled ctx precedence t :=
  Lawful.recur_reads (.operand ctx precedence) s hb trivial

theorem unary_rule (hb : s.left * 8 + 3 ≤ W) :
    (recur (.unary ctx)).Reads s fun n t => Built s ⟨.unary, ctx, n⟩ t :=
  Lawful.recur_reads (.unary ctx) s hb trivial

theorem leftHandSide_rule (hb : s.left * 8 + 2 ≤ W) :
    (recur (.leftHandSide ctx)).Reads s fun n t => Built s ⟨.suffixed true, ctx, n⟩ t :=
  Lawful.recur_reads (.leftHandSide ctx) s hb trivial

theorem newExpression_rule (hb : s.left * 8 + 1 ≤ W) (ht : s.token = .newKeyword) :
    (recur (.newExpression ctx)).Reads s fun n t => Built s ⟨.newExpression, ctx, n⟩ t :=
  Lawful.recur_reads (.newExpression ctx) s hb ht

theorem objectElement_rule (hb : s.left * 8 + 6 ≤ W) :
    (recur (.objectElement ctx)).Reads s fun answer t =>
      ∀ n ∈ answer, Built s ⟨.objectElement, ctx, n⟩ t :=
  Lawful.recur_reads (.objectElement ctx) s hb trivial

theorem classElement_rule (hb : s.left * 8 + 1 ≤ W) :
    (recur (.classElement ctx)).Reads s fun answer t =>
      ∀ member ∈ answer, ∀ n ∈ member, Built s ⟨.classElement, ctx, n⟩ t :=
  Lawful.recur_reads (.classElement ctx) s hb trivial

theorem type_rule (hb : s.left * 8 + 2 ≤ W) :
    (recur (.type ctx)).Reads s fun n t => Built s ⟨.type, ctx, n⟩ t :=
  Lawful.recur_reads (.type ctx) s hb trivial

theorem typeOperator_rule (hb : s.left * 8 + 1 ≤ W) :
    (recur (.typeOperator ctx)).Reads s fun n t => Built s ⟨.typeOperator, ctx, n⟩ t :=
  Lawful.recur_reads (.typeOperator ctx) s hb trivial

theorem typeMember_rule (hb : s.left * 8 + 1 ≤ W) :
    (recur (.typeMember ctx)).Reads s fun answer t =>
      ∀ n ∈ answer, Built s ⟨.typeMember, ctx, n⟩ t :=
  Lawful.recur_reads (.typeMember ctx) s hb trivial

theorem element_rule {inExpression : Bool} (hb : s.left * 8 + 1 ≤ W)
    (ht : s.token = .lessThanToken) :
    (recur (.element ctx inExpression)).Reads s (ReadMarkup .element ctx (!inExpression) s) :=
  Lawful.recur_reads (.element ctx inExpression) s hb ht

end Rules

end EcmaSyntax
