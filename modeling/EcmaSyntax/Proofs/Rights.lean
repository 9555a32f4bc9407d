import EcmaSyntax.Proofs.Errors
import EcmaSyntax.Proofs.Features
import Mathlib.Data.List.MinMax
import Mathlib.Order.Nat

/-! # Right operands

How often a way through a tree goes into the right operand of an operator. Behind an operator the
grammar meets itself without a new level, so the guard of nesting does not see such a step. Where
the operators bind tighter and tighter there are no more of these steps than levels of precedence;
then a level of nesting must follow, and these are limited. Only the power operator takes an operand
of its own precedence on its right. -/
namespace EcmaSyntax
open ParseState

namespace Form
variable {α : Type}

/-- Whether a form is an operation on two operands. -/
def isBinary : Form α → Bool
  | binary .. => true
  | _ => false

/-- Whether a form is made of a left operand and what stands behind an operator. -/
def isOperation : Form α → Bool
  | binary .. | typeAssertion .. => true
  | _ => false

/-- Whether a form is a list of arguments. -/
def isArguments : Form α → Bool
  | argumentList .. => true
  | _ => false

end Form

/-! ## Depth -/

namespace Node
variable (counts : Kind → Bool)

/-- Counts a step into the right operand of an operator. -/
def rightStep (k : Nat) (n : Node) (name : String) (_ : List Node) : Nat :=
  match n.form with
  | .binary _ operator _ => if name == "right" && counts operator then k + 1 else k
  | _ => k

/-- The most steps into right operands on a way from a node downwards. -/
def rightDepth : Node → Nat := gather fun n depths =>
  match n.form, depths with
  | .binary _ operator _, [left, right] => max left (right + (counts operator).toNat)
  | _, _ => depths.foldr max 0

theorem rightDepth_binary (header : Header) (left right : Node) (operator : Kind) :
    (Node.mk header (.binary left operator right)).rightDepth counts =
      max (left.rightDepth counts) (right.rightDepth counts + (counts operator).toNat) :=
  gather_eq _ _

variable {counts} {n : Node} {b : Nat}

/-- What is no operation is as deep as its children. -/
theorem rightDepth_le_iff (h : n.form.isBinary = false) :
    n.rightDepth counts ≤ b ↔ ∀ c ∈ n.children, c.rightDepth counts ≤ b := by
  obtain ⟨header, form⟩ := n
  have hdepth : (Node.mk header form).rightDepth counts =
      (form.children.map (rightDepth counts)).foldr max 0 := by
    refine (gather_eq _ _).trans ?_
    cases form <;> first | rfl | cases h
  rw [hdepth]
  constructor
  · exact fun h c hc => (List.le_max_of_le (List.mem_map_of_mem hc) (Nat.le_refl _)).trans h
  · exact fun h => List.max_le_of_forall_le _ b (List.forall_mem_map.mpr h)

theorem rightDepth_of_child {c : Node} (hc : c ∈ n.children) :
    c.rightDepth counts ≤ n.rightDepth counts := by
  by_cases h : n.form.isBinary = true
  · obtain ⟨header, form⟩ := n
    cases form with
    | binary left operator right =>
      have hmax := rightDepth_binary counts header left right operator
      have hc : c = left ∨ c = right := by
        simpa [children, form, Form.children, Form.fields, Field.children] using hc
      rcases hc with rfl | rfl <;> omega
    | _ => cases h
  · exact (rightDepth_le_iff (Bool.eq_false_iff.mpr h)).mp (Nat.le_refl _) c hc

theorem rightDepth_of_childless (h : n.children = []) : n.rightDepth counts ≤ b := by
  obtain ⟨header, form⟩ := n
  cases form with
  | binary => cases h
  | _ => exact (rightDepth_le_iff rfl).mpr (h ▸ nofun)

theorem Within.rightDepth_le {root : Node} (h : n.Within root) :
    n.rightDepth counts ≤ root.rightDepth counts := by
  induction h with
  | root => exact Nat.le_refl _
  | child _ hc ih => exact (rightDepth_of_child hc).trans ih

/-- A step is counted in the depth of the node where it begins. -/
theorem rightStep_add {k : Nat} {name : String} {before : List Node} {c : Node}
    (h : n.Edge name before c) :
    rightStep counts k n name before + c.rightDepth counts ≤ k + n.rightDepth counts := by
  have hc : c ∈ n.children := by
    rw [children, Form.children_eq_edges]
    exact List.mem_map_of_mem h.mem_edges
  have hdepth : c.rightDepth counts ≤ n.rightDepth counts := rightDepth_of_child hc
  obtain ⟨header, form⟩ := n
  cases form with
  | binary left operator right =>
    have hmax := rightDepth_binary counts header left right operator
    have hedge := h.mem_edges
    simp only [form, Form.edges, Form.fields, Field.children, Field.name, List.flatMap_cons,
      List.flatMap_nil, List.map_cons, List.map_nil, List.cons_append, List.nil_append,
      List.append_nil, List.mem_cons, List.not_mem_nil, or_false, Prod.mk.injEq] at hedge
    rcases hedge with ⟨rfl, rfl⟩ | ⟨rfl, rfl⟩
    · exact Nat.add_le_add_left hdepth k
    · cases hcounts : counts operator <;>
        simp [rightStep, form, hcounts] at hmax ⊢ <;> omega
  | _ => exact Nat.add_le_add_left hdepth k

/-- No walk goes into more right operands than the depth tells. -/
theorem Walk.le_rightDepth {root : Node} {k : Nat} (h : root.Walk (rightStep counts) 0 k n) :
    k + n.rightDepth counts ≤ root.rightDepth counts := by
  induction h with
  | root => exact Nat.le_of_eq (Nat.zero_add _)
  | edge _ hedge ih => exact Nat.le_trans (rightStep_add hedge) ih

end Node

/-! ## Ceilings -/

namespace Phrase

/-- The most right operands that one level adds: one for each level of precedence above the lowest,
and one for a comma. -/
def levelRights : Nat := 1 + Precedence.exponentiation.level

/-- How many right operands may be added at the level where a phrase is read. -/
def ceiling : Phrase → Nat
  | identifier | assignment | coverElement => 0
  | assigned | covered | coverArgument => levelRights
  | operand p => 1 + (Precedence.exponentiation.level - p.level)
  | _ => 1

/-- An operand without an operator adds no more than what it is made of, and a list of arguments
none. -/
def ceilingOf (ph : Phrase) (form : Form Node) : Nat :=
  match ph with
  | operand _ => if form.isOperation then ph.ceiling else 1
  | coverList => if form.isArguments then 0 else 1
  | _ => ph.ceiling

theorem ceilingOf_le (ph : Phrase) (form : Form Node) : ph.ceilingOf form ≤ ph.ceiling := by
  cases ph with
  | operand p =>
    change (if form.isOperation then _ else 1) ≤ _
    split
    · exact Nat.le_refl _
    · exact Nat.le_add_right 1 _
  | coverList =>
    change (if form.isArguments then 0 else 1) ≤ _
    split <;> decide
  | _ => exact Nat.le_refl _

theorem ceiling_le (ph : Phrase) : ph.ceiling ≤ levelRights := by
  cases ph with
  | operand p => exact Nat.add_le_add_left (Nat.sub_le _ _) 1
  | _ => exact Nat.le_of_ble_eq_true rfl

/-- A level deeper makes up for what a phrase adds at its own level. -/
theorem ceilingOf_body (ph : Phrase) (form : Form Node) :
    ph.body.ceilingOf form ≤ levelRights + ph.ceilingOf form := by
  cases ph with
  | assignment | coverElement => exact Nat.le_refl _
  | _ => exact Nat.le_add_left _ _

end Phrase

section Cases
variable {faulty : Prop} {ph ph' : Phrase} {ctx ctx' : Context} {form : Form Node} {n : Node}

/-- What may stand for a phrase adds no more. -/
theorem Phrase.ceiling_of_choice (h : ph ∈ ph'.choices) : ph.ceiling ≤ ph'.ceilingOf form := by
  revert ph
  cases ph'
  case operand p =>
    intro ph h
    obtain rfl := List.mem_singleton.mp h
    change 1 ≤ if form.isOperation then (operand p).ceiling else 1
    split
    · exact Nat.le_add_right 1 _
    · exact Nat.le_refl 1
  case item inModule => cases inModule <;> simp [choices, ceilingOf, ceiling]
  all_goals simp [choices, ceilingOf, ceiling, levelRights]

theorem Part.ceiling_all {ns : List Node} {b : Nat} (h : ph.ceiling ≤ b) :
    ∀ p ∈ Part.all ph ctx ns, p.phrase.ceiling ≤ b :=
  List.forall_mem_map.mpr fun _ _ => h

theorem Part.ceiling_body {inModule : Bool} {body : Grammar.Body} {ns : List Node} {b : Nat}
    (h : 1 ≤ b) : ∀ p ∈ Part.body inModule body ns, p.phrase.ceiling ≤ b := by
  induction ns generalizing body with
  | nil => exact nofun
  | cons n rest ih => exact List.forall_mem_cons.mpr ⟨h, ih⟩

/-- The parts of what is no operation add no more than the whole. -/
theorem Production.ceiling_le {ps : List Part} (h : Production faulty ph ctx form ps)
    (hform : form.isBinary = false) : ∀ p ∈ ps, p.phrase.ceiling ≤ ph.ceilingOf form := by
  cases h
  case comma | binary => cases hform
  case signature sort _ _ _ =>
    cases sort <;> simp only [List.forall_mem_append, List.forall_mem_singleton] <;>
      exact ⟨⟨Part.ceiling_all (Nat.le_refl 1), Nat.le_refl 1⟩, Part.ceiling_all (Nat.le_refl 1)⟩
  case combinedType sort _ _ _ =>
    cases sort <;> exact List.forall_mem_cons.mpr ⟨Nat.le_refl 1, Part.ceiling_all (Nat.le_refl 1)⟩
  all_goals
    try simp only [List.forall_mem_append, List.forall_mem_singleton]
    repeat' apply And.intro
    all_goals
      first
      | exact Nat.le_of_ble_eq_true rfl
      | exact Part.ceiling_all (Nat.le_of_ble_eq_true rfl)
      | exact Part.ceiling_body (Nat.le_refl 1)
      | exact Nat.le_refl _
      | exact Nat.le_add_right 1 _
      | exact nofun

theorem Serves.ceilingOf_le (h : Serves faulty n ph ctx ph' ctx') :
    ph.ceilingOf n.form ≤ ph'.ceilingOf n.form := by
  cases h with
  | choice h => exact (ph.ceilingOf_le _).trans (Phrase.ceiling_of_choice h)
  | operand | coverOperand => exact (Phrase.ceilingOf_le _ _).trans (Phrase.ceiling_le _)
  | binding h | arrow h | parameter h =>
    have hform : n.form.isOperation = false := by
      obtain ⟨_, form⟩ := n
      cases form <;> first | rfl | cases h
    exact Nat.le_of_eq (if_neg (Bool.eq_false_iff.mp hform))
  | coveredArrow => exact Phrase.ceilingOf_le _ _
  | _ => exact Nat.le_of_ble_eq_true rfl

/-- An operation is a list of two expressions, or its operator binds. -/
theorem Production.of_binary {left right : Node} {operator : Kind} {ps : List Part}
    (h : Production faulty ph ctx (.binary left operator right) ps) :
    ph = .expression ∧ ps = [⟨.expression, ctx, left⟩, ⟨.assignment, ctx, right⟩] ∨
    ∃ p : Precedence, ph = .operand p ∧ p.binds operator = true ∧
      ps = [⟨.operand p, ctx, left⟩, ⟨.operand (.ofOperator operator), ctx, right⟩] := by
  cases h with
  | comma => exact .inl ⟨rfl, rfl⟩
  | binary hbinds _ => exact .inr ⟨_, rfl, hbinds, rfl⟩

theorem Absence.plain {ps : List Part} (h : Absence form ps) :
    form.isBinary = false ∧ ∀ p ∈ ps, p.phrase = .identifier := by
  cases h <;> exact ⟨rfl, by simp⟩

end Cases

/-! ## Derivations -/

/-- The operators whose right operands bind tighter than themselves. -/
def groupsLeft (operator : Kind) : Bool := operator != .asteriskAsteriskToken

/-- An operator but the power operator binds tighter than the one before it. -/
theorem Phrase.ceiling_operator {p : Precedence} {operator : Kind}
    (h : p.binds operator = true) :
    (operand (.ofOperator operator)).ceiling + (groupsLeft operator).toNat ≤
      (operand p).ceiling := by
  change 1 + (Precedence.exponentiation.level - (Precedence.ofOperator operator).level) + _ ≤
    1 + (Precedence.exponentiation.level - p.level)
  by_cases hpower : operator = .asteriskAsteriskToken
  · subst hpower
    exact Nat.le_add_right 1 _
  · have hcounts : groupsLeft operator = true := bne_iff_ne.mpr hpower
    simp only [Precedence.binds, Precedence.isBinary, Bool.and_eq_true, decide_eq_true_eq,
      beq_iff_eq, if_neg hpower] at h
    rw [hcounts, Bool.toNat_true]
    omega

/-- No part is deeper than the levels that are left allow, and what it adds at its own. -/
def Part.Shallow (s : ParseState) (p : Part) : Prop :=
  p.node.rightDepth groupsLeft ≤
    Phrase.levelRights * (Parse.nestingLimit - s.depth) + p.phrase.ceilingOf p.node.form

/-- What one level adds is gone one level deeper. -/
theorem ParseState.levelRights_deeper {s : ParseState} (h : s.depth < Parse.nestingLimit) :
    Phrase.levelRights * (Parse.nestingLimit - s.depth) =
      Phrase.levelRights * (Parse.nestingLimit - s.deeper.depth) + Phrase.levelRights := by
  have hsub : Parse.nestingLimit - s.depth = Parse.nestingLimit - s.deeper.depth + 1 := by
    change _ = Parse.nestingLimit - (s.depth + 1) + 1
    omega
  rw [hsub, Nat.mul_succ]

namespace Grammar
variable {b : Nat} {arguments inner : Node}

/-- Elements that are joined by commas are deeper by one step than the deepest of them. -/
theorem rightDepth_joined {first : Node} {rest : List Node}
    (hfirst : first.rightDepth groupsLeft ≤ b + 1)
    (hrest : ∀ e ∈ rest, e.rightDepth groupsLeft ≤ b) :
    (rest.foldl commaJoined first).rightDepth groupsLeft ≤ b + 1 := by
  induction rest generalizing first with
  | nil => exact hfirst
  | cons e rest ih =>
    obtain ⟨he, hrest⟩ := List.forall_mem_cons.mp hrest
    refine ih ?_ hrest
    rw [commaJoined, Node.rightDepth_binary]
    exact Nat.max_le.mpr ⟨hfirst, Nat.succ_le_succ he⟩

theorem Regrouped.rightDepth_le {u : ParseState} (hr : Regrouped u arguments inner)
    (h : arguments.rightDepth groupsLeft ≤ b + Phrase.ceilingOf .coverList arguments.form) :
    inner.rightDepth groupsLeft ≤ b + 1 := by
  cases hr with
  | missing => exact Node.rightDepth_of_childless rfl
  | @joined first rest hmap _ =>
    have hform : arguments.form.isArguments = true := by
      obtain ⟨_, form⟩ := arguments
      cases form <;> first | rfl | cases hmap
    have hlist : arguments.rightDepth groupsLeft ≤ b := by
      rwa [Phrase.ceilingOf, if_pos hform] at h
    have helements : ∀ n ∈ first :: rest, n.rightDepth groupsLeft ≤ b := by
      rw [← hmap, List.forall_mem_map]
      intro e he
      have hin := (elementExpression_within e).trans (within_of_argumentElements he)
      exact hin.rightDepth_le.trans hlist
    obtain ⟨hfirst, hrest⟩ := List.forall_mem_cons.mp helements
    exact rightDepth_joined (Nat.le_succ_of_le hfirst) hrest

end Grammar

/-- An operation is no deeper than its level allows if its operands are not. -/
theorem Production.shallow_binary {faulty : Prop} {ph : Phrase} {ctx : Context} {s : ParseState}
    {header : Header} {left right : Node} {operator : Kind} {ps : List Part}
    (h : Production faulty ph ctx (.binary left operator right) ps) (hps : ∀ p ∈ ps, p.Shallow s) :
    Part.Shallow s ⟨ph, ctx, .mk header (.binary left operator right)⟩ := by
  rw [Part.Shallow, Node.rightDepth_binary, Nat.max_le]
  rcases h.of_binary with ⟨rfl, rfl⟩ | ⟨p, rfl, hbinds, rfl⟩
  · simp only [List.forall_mem_cons] at hps
    obtain ⟨hleft, hright, -⟩ := hps
    exact ⟨hleft, Nat.add_le_add hright (Bool.toNat_le _)⟩
  · simp only [List.forall_mem_cons] at hps
    obtain ⟨hleft, hright, -⟩ := hps
    have hleft := hleft.trans (Nat.add_le_add_left (Phrase.ceilingOf_le _ _) _)
    have hright := hright.trans (Nat.add_le_add_left (Phrase.ceilingOf_le _ _) _)
    refine ⟨hleft, (Nat.add_le_add_right hright _).trans ?_⟩
    rw [Nat.add_assoc]
    exact Nat.add_le_add_left (Phrase.ceiling_operator hbinds) _

theorem Derived.shallow {s t : ParseState} {ps : List Part} (h : Derived s ps t) :
    ∀ p ∈ ps, p.Shallow s := by
  induction h with
  | nil => exact nofun
  | append hd _ _ ih ih' =>
    intro p hp
    rcases List.mem_append.mp hp with hp | hp
    · exact ih p hp
    · have hshallow := ih' p hp
      rwa [Part.Shallow, hd.moves.depth_eq] at hshallow
  | @node s t m ph ctx form ps _ _ hp _ ih =>
    rw [List.forall_mem_singleton]
    cases hform : form.isBinary with
    | true =>
      cases form with
      | binary => exact hp.shallow_binary ih
      | _ => cases hform
    | false =>
      refine (Node.rightDepth_le_iff (n := .mk _ form) hform).mpr fun c hc => ?_
      have hc : c ∈ ps.map Part.node := hp.children_eq ▸ hc
      obtain ⟨p, hmem, rfl⟩ := List.mem_map.mp hc
      have hceiling := (p.phrase.ceilingOf_le p.node.form).trans (hp.ceiling_le hform p hmem)
      exact (ih p hmem).trans (Nat.add_le_add_left hceiling _)
  | leaf _ hl =>
    exact List.forall_mem_singleton.mpr (Node.rightDepth_of_childless hl.children_eq)
  | @missing s ph ctx form ps _ _ ha ih =>
    obtain ⟨hform, hphrase⟩ := ha.plain
    rw [List.forall_mem_singleton]
    refine (Node.rightDepth_le_iff (n := .mk _ form) hform).mpr fun c hc => ?_
    have hc : c ∈ ps.map Part.node := ha.children_eq ▸ hc
    obtain ⟨p, hmem, rfl⟩ := List.mem_map.mp hc
    have hshallow := ih p hmem
    rw [Part.Shallow, hphrase p hmem] at hshallow
    exact hshallow.trans (Nat.add_le_add_left (Nat.zero_le _) _)
  | serve _ hs ih =>
    have hn := List.forall_mem_singleton.mp ih
    exact List.forall_mem_singleton.mpr (hn.trans (Nat.add_le_add_left hs.ceilingOf_le _))
  | simple _ ih =>
    have hn := List.forall_mem_singleton.mp ih
    refine List.forall_mem_singleton.mpr ((Node.rightDepth_le_iff rfl).mpr fun c hc => ?_)
    exact List.mem_singleton.mp hc ▸ hn
  | parenthesized _ _ hr ih =>
    have harguments : Part.Shallow _ _ := List.forall_mem_singleton.mp ih
    have hinner := hr.rightDepth_le harguments
    refine List.forall_mem_singleton.mpr ((Node.rightDepth_le_iff rfl).mpr fun c hc => ?_)
    exact List.mem_singleton.mp hc ▸ hinner
  | @deeper s t n ph ctx hdepth _ ih =>
    have hn := List.forall_mem_singleton.mp ih
    refine List.forall_mem_singleton.mpr (hn.trans ?_)
    rw [ParseState.levelRights_deeper hdepth, Nat.add_assoc]
    exact Nat.add_le_add_left (ph.ceilingOf_body n.form) _

/-! ## Sources -/

/-- On the way from the root of a tree to a node, the steps into the right operands of operators
that group to the left are limited by the limit of nesting. -/
theorem parse_rights_bounded (source : String) (options : ParseOptions) {k : Nat} {n : Node}
    (h : (parse source options).root.Walk (Node.rightStep groupsLeft) 0 k n) :
    k ≤ Phrase.levelRights * (Parse.nestingLimit + 1) := by
  obtain ⟨statements, ps, t, hroot, -, hchildren, hparts⟩ := parse_derived source options
  refine (Nat.le_of_add_right_le h.le_rightDepth).trans ?_
  refine (Node.rightDepth_le_iff (hroot ▸ rfl)).mpr fun c hc => ?_
  obtain ⟨p, hp, rfl⟩ := List.mem_map.mp (hchildren ▸ hc)
  have hceiling := (p.phrase.ceilingOf_le p.node.form).trans p.phrase.ceiling_le
  exact (hparts.shallow p hp).trans (Nat.add_le_add_left hceiling _)

/-- A product on the right of a sum, in parentheses. -/
theorem product_rights_bounded : ∃ n : Node,
    (parse "a + (b * c);" {}).root.Walk (Node.rightStep groupsLeft) 0 2 n ∧
      2 ≤ Phrase.levelRights * (Parse.nestingLimit + 1) := by
  have hfollow : ((parse "a + (b * c);" {}).root.follow (Node.rightStep groupsLeft) 0
      [("statements", 0), ("expression", 0), ("right", 0), ("expression", 0), ("right", 0)]).any
      (fun last => last.1 == 2) = true := by decide +kernel
  obtain ⟨k, n, hwalk, hk⟩ := Node.Walk.exists_of_follow hfollow
  obtain rfl := eq_of_beq hk
  exact ⟨n, hwalk, parse_rights_bounded _ _ hwalk⟩

end EcmaSyntax
