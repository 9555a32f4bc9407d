import EcmaSyntax.Proofs.Spans

/-! # Grouping of operators

How operations lie within each other without parentheses. The left operand of an operator binds at
least as tight as the operator itself, and its right operand binds tighter; only the power operator
groups to the right. No operand that an operator of one operand has is an operation. -/
namespace EcmaSyntax

/-- The operand of a form with one operand. -/
def Form.operand? {α : Type} : Form α → Option α
  | .prefixUnary _ operand | .postfixUnary operand _ | .await operand | .nonNull operand =>
    some operand
  | _ => none

/-- Whether an operation can stand to the right of an operator. -/
def Precedence.FollowsOn (operator inner : Kind) : Prop :=
  (ofOperator operator).level < (ofOperator inner).level ∨
    operator = .asteriskAsteriskToken ∧ (ofOperator operator).level = (ofOperator inner).level

/-- The operands of a node are grouped by the precedence of operators. -/
structure Node.Grouped (n : Node) : Prop where
  left : ∀ l operator r, n.form = .binary l operator r → operator ≠ .commaToken →
    ∀ l' inner r', l.form = .binary l' inner r' → inner ≠ .commaToken ∧
      operator ≠ .asteriskAsteriskToken ∧
        (Precedence.ofOperator operator).level ≤ (Precedence.ofOperator inner).level
  right : ∀ l operator r, n.form = .binary l operator r → operator ≠ .commaToken →
    ∀ inner ∈ r.operator?, inner ≠ .commaToken ∧ Precedence.FollowsOn operator inner
  operand : ∀ e ∈ n.form.operand?, e.operator? = none

namespace Precedence

theorem ne_comma_of_binds {p : Precedence} {operator : Kind} (h : p.binds operator = true) :
    operator ≠ .commaToken := by
  rintro rfl
  exact absurd (binds_iff.mp h).1 (by decide)

theorem level_lt_exponentiation {operator : Kind} (h : (ofOperator operator).isBinary = true)
    (hpower : operator ≠ .asteriskAsteriskToken) :
    (ofOperator operator).level < exponentiation.level := by
  revert h
  unfold ofOperator
  split <;> first | decide | exact absurd rfl hpower

/-- What an operand behind an operator takes may stand to the right of that operator. -/
theorem followsOn_of_binds {p : Precedence} {operator inner : Kind}
    (h : p.binds operator = true) (hinner : (ofOperator operator).binds inner = true) :
    FollowsOn operator inner := by
  obtain ⟨hbinary, -⟩ := binds_iff.mp h
  obtain ⟨-, hle⟩ := binds_iff.mp hinner
  by_cases hpower : inner = .asteriskAsteriskToken
  · subst hpower
    by_cases hsame : operator = .asteriskAsteriskToken
    · exact .inr ⟨hsame, by rw [hsame]⟩
    · exact .inl (level_lt_exponentiation hbinary hsame)
  · rw [if_neg hpower] at hle
    exact .inl hle

end Precedence

section Cases
variable {faulty : Prop} {ph : Phrase} {ctx : Context} {form : Form Node} {n : Node}

/-- What stands for a phrase that takes no operation is none. -/
theorem Parsed.operator?_eq_none {p : Part} (h : Parsed faulty p)
    (hph : ∀ k, p.phrase.takesOperation k = false) : p.node.operator? = none :=
  Option.eq_none_iff_forall_not_mem.mpr fun k hk =>
    Bool.eq_false_iff.mp (hph k) (h.takesOperation hk)

theorem Production.grouped {header : Header} {ps : List Part}
    (hp : Production faulty ph ctx form ps) (hparts : ∀ p ∈ ps, Parsed faulty p) :
    (Node.mk header form).Grouped := by
  refine ⟨fun l operator r heq hcomma l' inner r' hl => ?_,
    fun l operator r heq hcomma inner hinner => ?_, fun e he => ?_⟩
  · obtain rfl : form = _ := heq
    cases hp with
    | comma => exact absurd rfl hcomma
    | binary _ hcomplete =>
      have hleft := hparts _ (List.mem_append_left _ (List.mem_singleton_self _))
      have hinner : inner ∈ l.operator? := by simp [Node.operator?, hl]
      exact ⟨Precedence.ne_comma_of_binds (hleft.takesOperation hinner), hcomplete l' inner r' hl⟩
  · obtain rfl : form = _ := heq
    cases hp with
    | comma => exact absurd rfl hcomma
    | binary hbinds _ =>
      have hright := hparts _ (List.mem_append_right _ (List.mem_singleton_self _))
      have htakes := hright.takesOperation hinner
      exact ⟨Precedence.ne_comma_of_binds htakes, Precedence.followsOn_of_binds hbinds htakes⟩
  · cases hp
    case prefixUnary | await | postfixUnary | nonNull | negativeNumber =>
      cases he
      exact (hparts _ (List.mem_singleton_self _)).operator?_eq_none fun _ => rfl
    all_goals cases he

/-- A node that is no operation and has no operand either. -/
theorem Node.Grouped.of_plain (hoperator : n.operator? = none) (hoperand : n.form.operand? = none) :
    n.Grouped := by
  refine ⟨fun _ _ _ heq => ?_, fun _ _ _ heq => ?_, hoperand ▸ nofun⟩ <;>
    simp [Node.operator?, heq] at hoperator

theorem Leaf.grouped {header : Header} {r : Reading} (hl : Leaf faulty r ph ctx form) :
    (Node.mk header form).Grouped := by
  refine .of_plain hl.operator?_eq_none ?_
  have hname : (Grammar.nameForm r).operand? = none := by
    unfold Grammar.nameForm
    split <;> rfl
  cases hl <;> first | exact hname | rfl

theorem Grammar.grouped_joined (left right : Node) : (commaJoined left right).Grouped := by
  refine ⟨fun _ _ _ heq hcomma => ?_, fun _ _ _ heq hcomma => ?_, nofun⟩ <;>
  · cases heq
    exact absurd rfl hcomma

theorem Parsed.grouped {p : Part} (h : Parsed faulty p) : ∀ n : Node, n.Within p.node → n.Grouped :=
  h.forall_within Production.grouped Leaf.grouped (fun ha => by cases ha <;> exact .of_plain rfl rfl)
    (fun _ => .of_plain rfl rfl) (fun _ _ => .of_plain rfl rfl) Grammar.grouped_joined

end Cases

/-! ## Sources -/

/-- In every tree, operations are grouped by the precedence of their operators. -/
theorem parse_grouped (source : String) (options : ParseOptions) {n : Node}
    (hn : n.Within (parse source options).root) : n.Grouped := by
  rcases parse_within hn with ⟨header, statements, rfl⟩ | ⟨p, hp, hin⟩
  · exact .of_plain rfl rfl
  · exact hp.grouped n hin

/-- A product of a negated sum and a power, on the left of a comparison. -/
theorem compared_product_grouped : ∃ n : Node,
    n.Within (parse "-(a + b) * c ** d ** e < f + g;" {}).root ∧
      n.operator? = some .lessThanToken ∧ n.Grouped := by
  have hpath : ((parse "-(a + b) * c ** d ** e < f + g;" {}).root.at?
      [("statements", 0), ("expression", 0)]).any (·.operator? == some .lessThanToken) = true := by
    decide +kernel
  obtain ⟨n, hwithin, hn⟩ := Node.within_of_any hpath
  exact ⟨n, hwithin, eq_of_beq hn, parse_grouped _ _ hwithin⟩

end EcmaSyntax
