import EcmaSyntax.Proofs.Transparency

/-! # Names and statements of operators

A name behind which neither an access nor a call follows is an operand. An operand that a semicolon
follows is a statement, and nothing of what is around it asks for more than the operand itself. -/
namespace EcmaSyntax
open Parse Grammar ParseState

/-- Whether a token behind an expression belongs to an access, a call or a template. -/
def Kind.continuesExpression (k : Kind) : Bool :=
  [.dotToken, .questionDotToken, .openBracketToken, .exclamationToken,
    .noSubstitutionTemplateLiteral, .templateHead, .openParenToken, .lessThanToken].contains k

/-- A name or an operation. -/
def Node.IsPlainOperand (n : Node) : Prop := 
  n.isIdentifier = true ∨ ∃ left operator right, n.form = .binary left operator right

namespace Node.IsPlainOperand
variable {n : Node}

theorem not_arrowParameters (h : n.IsPlainOperand) : n.isArrowParameters = false := by
  obtain ⟨header, form⟩ := n
  cases form with
  | identifier | binary => rfl
  | _ => rcases h with h | ⟨_, _, _, h⟩ <;> cases h

theorem no_directive (h : n.IsPlainOperand) (header : Header) :
    (Node.mk header (.expressionStatement n)).directiveText? = none := by
  obtain ⟨inner, form⟩ := n
  cases form with
  | identifier | binary => rfl
  | _ => rcases h with h | ⟨_, _, _, h⟩ <;> cases h

end Node.IsPlainOperand

/-- Where a name or a keyword stands first, no slash is read anew. -/
theorem ParseState.firstToken_eq {text : List Char}
    (h : ((ParseState.ofText text).consume .plain).token.isName = true) :
    ParseState.firstToken text = (ParseState.ofText text).consume .plain := by
  have hslash : ((ParseState.ofText text).consume .plain).scanner.atSlash = false := by
    refine Bool.eq_false_iff.mpr fun hslash => ?_
    rw [Scanner.atSlash, Bool.or_eq_true, beq_iff_eq, beq_iff_eq] at hslash
    rcases hslash with htoken | htoken
    all_goals
      rw [ParseState.token, htoken] at h
      cases h
  change ((ParseState.ofText text).consume .plain).reread .slash = _
  rw [ParseState.reread, Scanner.reread, Scanner.rescanSlash, hslash]
  rfl

section Suffix
variable [Recursion] {ctx : Context} {m : Mark} {calls : Bool} {base : Node} {s : ParseState}

theorem suffix_stops (h : s.token.continuesExpression = false) :
    (suffix ctx m calls base).run s = some (.done base, s) := by
  refine run_bind.mpr ⟨s.token, s, rfl, ?_⟩
  split
  case h_9 => rfl
  all_goals
    rename_i hk
    rw [hk] at h
    cases h

end Suffix

section Statements
variable {ctx : Context} {s t : ParseState} {n : Node}

variable (ctx) in
/-- A name that nothing continues is an operand. -/
theorem unary_name [s.Ready] (hname : s.token = .identifier) (hdepth : s.depth < nestingLimit)
    (hsuffix : ∀ m n, (@suffix (below (s.left * 8 + 2) top.recur) ctx m true n).run
      (s.deeper.consume .plain) = some (.done n, s.deeper.consume .plain))
    (hplus : (s.consume .plain).token ≠ .plusPlusToken)
    (hminus : (s.consume .plain).token ≠ .minusMinusToken) :
    ∃ n : Node, n.form = .identifier false s.reading.text none ∧
      (top.recur (.unary ctx)).run s = some (n, s.consume .plain) := by
  have hform : nameForm s.reading = .identifier false s.reading.text none := by
    rw [nameForm, show s.reading.token = .identifier from hname]
  let n : Node := .mk ((s.deeper.consume .plain).header s.deeper.mark) (nameForm s.reading)
  refine ⟨n, hform, ?_⟩
  rw [top_run]
  refine nested_run (u := s.deeper.consume .plain) hdepth ?_
  let _ := below (s.left * 8 + 2) top.recur
  have hadmits : admits ctx s.token = true := by
    rw [hname]
    rfl
  have hprimary : (primary ctx).run s.deeper = some (n, s.deeper.consume .plain) := by
    refine run_bind.mpr ⟨s.token, s.deeper, rfl, ?_⟩
    rw [hname]
    exact run_bind.mpr ⟨true, s.deeper, congrArg (fun b => some (b, s.deeper)) hadmits, rfl⟩
  have hbase : (memberBase ctx).run s.deeper = some (n, s.deeper.consume .plain) := by
    refine run_bind.mpr ⟨false, s.deeper, isAt_run_ne (s := s.deeper) ?_, hprimary⟩
    exact fun h => absurd (hname.symm.trans h) (by decide)
  refine run_bind.mpr ⟨_, s.deeper, rfl, run_bind.mpr ⟨s.token, s.deeper, rfl, ?_⟩⟩
  rw [hname]
  refine run_bind.mpr ⟨n, s.deeper.consume .plain, ?_, ?_⟩
  · exact run_bind.mpr ⟨_, _, rfl, run_bind.mpr ⟨n, _, hbase, suffixes_done (hsuffix _ n)⟩⟩
  · refine run_bind.mpr ⟨(s.consume .plain).token, _, rfl, ?_⟩
    rw [beq_eq_false_iff_ne.mpr hplus, beq_eq_false_iff_ne.mpr hminus]
    rfl

/-- What begins with a name is a statement with an expression. -/
theorem statement_run [Recursion] {site : StatementSite} (hs : s.OnName) :
    (statement ctx site).run s = (expressionStatement ctx).run s := by
  have htoken {f : Mark → Kind → Parse Node} :
      (do f (← mark) (← token) : Parse Node).run s = (f s.mark s.token).run s := rfl
  rw [statement, htoken]
  rcases hs with h | ⟨h, hflush, hopen⟩
  · rw [h]
  · rw [h]
    refine Option.ext fun ⟨n, t⟩ => ?_
    rw [run_bind, isBeforeFunction_run hflush (by simp [hopen])]
    exact ⟨fun ⟨_, _, heq, hrun⟩ => by cases heq; exact hrun, fun hrun => ⟨_, _, rfl, hrun⟩⟩

/-- An operand before a semicolon, as an item of a list of statements. -/
theorem item_of_operand (inModule : Bool) [hs : s.Ready] (hname : s.OnName)
    (hdepth : s.depth + 2 < nestingLimit) (hsemicolon : t.token = .semicolonToken)
    (hn : n.isArrowParameters = false)
    (hoperand : (@operand (below (s.left * 8 + 4) top.recur) ctx .comma).run
      s.deeper.deeper.deeper = some (n, t)) :
    ∃ header, (top.recur (.item inModule ctx)).run s =
      some (.mk header (.expressionStatement n),
        (t.shallower.consume .plain).shallower.shallower) := by
  have hready : t.Ready := (Parse.moves _ hoperand).ready inferInstance
  have hassignment : (top.recur (.assignment ctx)).run s.deeper.deeper =
      some (n, t.shallower) := by
    rw [top_run]
    refine nested_run hdepth ?_
    let _ := below (s.left * 8 + 4) top.recur
    refine assignment_of_operand (.inr hname.deeper.deeper.deeper) hoperand ?_
    have hassigns : t.token.isAssignmentOperator = false := by
      rw [hsemicolon]
      rfl
    exact assignmentRest_done hn (by simp [hsemicolon]) hassigns (by simp [hsemicolon])
  let _ := below (s.left * 8 + 5) top.recur
  have hexpression : (expression ctx).run s.deeper.deeper = some (n, t.shallower) := by
    refine expression_single (t := t.shallower) (fun h => by cases hsemicolon.symm.trans h) ?_
    exact (below_run (Nat.add_lt_add_left (show 4 < 5 by decide) _)).trans hassignment
  have hstatement : (expressionStatement ctx).run s.deeper.deeper = some
      (.mk ((t.shallower.consume .plain).header s.deeper.deeper.mark) (.expressionStatement n),
        t.shallower.consume .plain) := by
    refine run_bind.mpr ⟨_, _, rfl, run_bind.mpr ⟨_, _, rfl, ?_⟩⟩
    refine run_bind.mpr ⟨n, _, hexpression, run_bind.mpr ⟨t.token, _, rfl, ?_⟩⟩
    rw [hsemicolon, if_neg (by simp)]
    refine run_bind.mpr ⟨_, _, rfl, ?_⟩
    rw [show Kind.isIdentifierLike .semicolonToken = false from rfl, Bool.and_false]
    refine run_bind.mpr ⟨(), _, rfl, run_bind.mpr ⟨(), t.shallower.consume .plain, ?_, rfl⟩⟩
    exact run_bind.mpr ⟨true, _, accept_run (s := t.shallower) hsemicolon, rfl⟩
  have hitem : (statement ctx .plain).run s.deeper.deeper = _ :=
    (statement_run hname.deeper.deeper).trans hstatement
  exact ⟨_, item_statement (.inr hname) (Nat.lt_of_succ_lt hdepth) hitem⟩

end Statements
end EcmaSyntax
