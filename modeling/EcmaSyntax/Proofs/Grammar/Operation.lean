import EcmaSyntax.Proofs.Grammar.Parsed

/-! # Operations

An operation is made of a left operand and of what stands behind its operator. It stands for an
operand where its operator binds, and wherever any expression may stand. An operand ends before an
operator that it does not take, and the operators around it leave that operator alone for the same
reason. -/
namespace EcmaSyntax

/-- The operator of an operation, which may be an assertion about a type. -/
def Node.operator? (n : Node) : Option Kind :=
  match n.form with
  | .binary _ operator _ => some operator
  | .typeAssertion sort _ _ => some sort.operator
  | _ => none

/-- Whether an operation with an operator can stand for a phrase. -/
def Phrase.takesOperation (operator : Kind) : Phrase → Bool
  | .operand p => p.binds operator
  | .assigned | .assignment | .expression | .arrayElement | .coverArgument | .covered
  | .coverElement | .argument | .forInitializer => true
  | _ => false

section Cases
variable {faulty : Prop} {ph ph' : Phrase} {ctx ctx' : Context} {form : Form Node} {n : Node}
variable {k : Kind}

theorem Phrase.takesOperation_of_choice (h : ph ∈ ph'.choices) (hph : ph.takesOperation k = true) :
    ph'.takesOperation k = true := by
  revert ph
  cases ph'
  case item inModule => cases inModule <;> simp [choices, takesOperation]
  all_goals simp [choices, takesOperation]

theorem Node.operator?_of_pattern (h : n.isIdentifierOrPattern = true) : n.operator? = none := by
  obtain ⟨_, form⟩ := n
  cases form <;> first | rfl | cases h

theorem Node.operator?_of_head (h : n.isArrowParameters = true) : n.operator? = none := by
  obtain ⟨_, form⟩ := n
  cases form <;> first | rfl | cases h

theorem Production.takesOperation {h : Header} {ps : List Part}
    (hp : Production faulty ph ctx form ps) (hk : k ∈ (Node.mk h form).operator?) :
    ph.takesOperation k = true := by
  cases hp
  case comma => rfl
  case binary hbinds _ _ | typeAssertion hbinds =>
    cases hk
    exact hbinds
  all_goals cases hk

theorem Leaf.operator?_eq_none {h : Header} {r : Reading} (hl : Leaf faulty r ph ctx form) :
    (Node.mk h form).operator? = none := by
  have hname : (Node.mk h (Grammar.nameForm r)).operator? = none := by
    unfold Grammar.nameForm
    split <;> rfl
  cases hl <;> first | exact hname | rfl

theorem Serves.takesOperation (hs : Serves faulty n ph ctx ph' ctx')
    (hph : ph.takesOperation k = true) (hk : k ∈ n.operator?) : ph'.takesOperation k = true := by
  cases hs with
  | choice h => exact Phrase.takesOperation_of_choice h hph
  | operand | coverOperand => rfl
  | binding h => cases Node.operator?_of_pattern h ▸ hk
  | arrow h => cases Node.operator?_of_head h ▸ hk
  | parameter h =>
    have hpattern : n.isIdentifierOrPattern = true := by simp [Node.isIdentifierOrPattern, h]
    cases Node.operator?_of_pattern hpattern ▸ hk
  | _ => cases hph

/-- An operation stands only for what takes it. -/
theorem Parsed.takesOperation {p : Part} (h : Parsed faulty p) (hk : k ∈ p.node.operator?) :
    p.phrase.takesOperation k = true := by
  induction h with
  | node hp => exact hp.takesOperation hk
  | leaf _ hl => cases hl.operator?_eq_none ▸ hk
  | missing _ ha => cases ha <;> cases hk
  | serve _ hs ih => exact hs.takesOperation (ih hk) hk
  | simple | parenthesized => cases hk
  | @deeper n ph ctx _ ih => cases ph <;> exact ih hk

end Cases

/-! ## Ends of operands -/

theorem Lexeme.greaterThan_alone {text : List Char}
    (h : (greaterThan text).1 = .greaterThanToken) : greaterThan text = (.greaterThanToken, 0) := by
  unfold greaterThan at h ⊢
  split at h <;> first | rfl | cases h

/-- An operator that has been read as a whole is read in the same way again. -/
theorem Scanner.rescanGreaterThan_idem (s : Scanner) :
    s.rescanGreaterThan.rescanGreaterThan = s.rescanGreaterThan := by
  by_cases hs : s.token = .greaterThanToken
  · by_cases hk : (Lexeme.greaterThan s.stop.rest).1 = .greaterThanToken
    · have halone : s.rescanGreaterThan = s := by
        rw [rescanGreaterThan, if_pos (beq_iff_eq.mpr hs), Lexeme.greaterThan_alone hk, ← hs]
        rfl
      rw [halone, halone]
    · have hnew : s.rescanGreaterThan.token ≠ .greaterThanToken := by
        rwa [rescanGreaterThan, if_pos (beq_iff_eq.mpr hs)]
      rw [rescanGreaterThan, if_neg (by simpa using hnew)]
  · have hsame : s.rescanGreaterThan = s := by
      rw [rescanGreaterThan, if_neg (by simpa using hs)]
    rw [hsame, hsame]

theorem ParseState.reread_greaterThan_idem (s : ParseState) :
    (s.reread .greaterThan).reread .greaterThan = s.reread .greaterThan :=
  congrArg (fun scanner => { s with scanner }) s.scanner.rescanGreaterThan_idem

theorem Precedence.binds_iff {p : Precedence} {operator : Kind} :
    p.binds operator = true ↔ (ofOperator operator).isBinary = true ∧
      if operator = .asteriskAsteriskToken then p.level ≤ (ofOperator operator).level
      else p.level < (ofOperator operator).level := by
  by_cases h : operator = .asteriskAsteriskToken <;> simp [binds, h]

namespace Grammar

/-- An operand at a level ends at the present token: the token binds no tighter, or it is not taken
for an operator. -/
def Stops (ctx : Context) (p : Precedence) (s : ParseState) : Prop :=
  p.binds s.token = true → s.token = .inKeyword ∧ ctx.has .withoutIn = true ∨
    (assertionSort? s.token).isSome = true ∧ s.reading.hasPrecedingLineBreak = true

/-- An operand ends before the present token, read as an operator. -/
def Settled (ctx : Context) (p : Precedence) (s : ParseState) : Prop :=
  Stops ctx p (s.reread .greaterThan)

/-- Where the operators behind an operand end, it is settled. -/
theorem Stops.settled {ctx : Context} {p : Precedence} {s : ParseState}
    (h : Stops ctx p (s.reread .greaterThan)) : Settled ctx p (s.reread .greaterThan) := by
  rwa [Settled, s.reread_greaterThan_idem]

/-- The right operand of an operation has come to its end. -/
def SettledFor (ctx : Context) (n : Node) (s : ParseState) : Prop :=
  ∀ left operator right, n.form = .binary left operator right →
    (Precedence.ofOperator operator).isBinary = true ∧ Settled ctx (.ofOperator operator) s

theorem SettledFor.of_operator? {ctx : Context} {n : Node} {s : ParseState}
    (h : n.operator? = none) : SettledFor ctx n s := by
  intro left operator right heq
  simp [Node.operator?, heq] at h

/-- An operation is complete before an operator that its right operand has left. -/
theorem SettledFor.completeBefore {ctx : Context} {p : Precedence} {n : Node} {s : ParseState}
    (h : SettledFor ctx n s) (hbinds : p.binds (s.reread .greaterThan).token = true)
    (hin : ¬((s.reread .greaterThan).token = .inKeyword ∧ ctx.has .withoutIn = true))
    (hsort : assertionSort? (s.reread .greaterThan).token = none) :
    n.CompleteBefore (s.reread .greaterThan).token := by
  intro left operator right heq
  obtain ⟨hbinary, hsettled⟩ := h left operator right heq
  generalize hk : (s.reread .greaterThan).token = k at *
  have hloose : (Precedence.ofOperator operator).binds k ≠ true := by
    intro htight
    rcases hsettled (hk ▸ htight) with hstop | ⟨hstop, -⟩
    · exact hin (hk ▸ hstop)
    · rw [hk, hsort] at hstop
      cases hstop
  have htight := (Precedence.binds_iff.mp hbinds).1
  by_cases hpower : k = .asteriskAsteriskToken
  · subst hpower
    simp only [Precedence.isBinary, Bool.and_eq_true, decide_eq_true_eq] at hbinary
    exact absurd (Precedence.binds_iff.mpr ⟨htight, hbinary.2⟩) hloose
  · refine ⟨hpower, Nat.le_of_not_lt fun hlt => hloose (Precedence.binds_iff.mpr ⟨htight, ?_⟩)⟩
    rwa [if_neg hpower]

end Grammar
end EcmaSyntax
