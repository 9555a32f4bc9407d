import EcmaSyntax.Proofs.Grammar.Primary

/-! # Reading operators

An operator has a token of its own, so that the turns through the operators behind an operand move
on. The leftmost operand of an assignment is read before it is known what it belongs to; what comes
of it begins where the operand does. -/
namespace EcmaSyntax

theorem Precedence.not_binds_end (p : Precedence) : p.binds .endOfFileToken = false := by
  rfl

namespace Grammar
open Parse ParseState Part
variable [Recursion] {W : Nat} [Lawful W] {r s t : ParseState} [s.Ready] {ctx : Context}
variable {p : Precedence}

/-! ## Unary and binary operators -/

omit [Recursion] in
theorem constType_reads (ht : s.token = .constKeyword) :
    constType.Reads s fun n t => Built s ⟨.assertedType, ctx, n⟩ t := by
  refine .look ((word_reads ctx (by simp [ht])).bind fun word t _ _ _ hword => ?_)
  exact node_built (.mark s) hword.1.toExtends .constType (.inl hword.2) (fun _ => rfl) rfl

theorem assertedType_reads {sort : AssertionSort} (hb : s.left * 8 + 2 ≤ W) :
    (assertedType ctx sort).Reads s fun n t => Built s ⟨.assertedType, ctx, n⟩ t := by
  refine .look (.ite (fun h => ?_) fun _ => (type_rule hb).mono fun _ _ hn => hn.choose (by simp))
  exact constType_reads (eq_of_beq (Bool.and_eq_true_iff.mp h).2)

omit [Recursion] in
theorem assertionSort?_eq_some {k : Kind} {sort : AssertionSort}
    (h : assertionSort? k = some sort) : sort.operator = k := by
  unfold assertionSort? at h
  split at h <;> cases h <;> rfl

/-- An operand that is being read: its last operation, if any, has come to its end. -/
structure Operand (p : Precedence) (ctx : Context) (s : ParseState) (n : Node) (t : ParseState) :
    Prop where
  built : Built s ⟨.operand p, ctx, n⟩ t
  settled : SettledFor ctx n t

theorem operation_reads {m : Mark} {left : Node} [r.Ready] (hb : s.left * 8 ≤ W) (hm : m.At r)
    (h : Operand p ctx r left s) :
    (operation ctx p m left).Reads s (AfterTurn (fun n t => Operand p ctx r n t)
      (fun n t => Built r ⟨.operand p, ctx, n⟩ t ∧ Settled ctx p t) s) := by
  refine (reread_run .greaterThan).bind fun _ t _ hmt _ heq => .look ?_
  subst heq
  have hreread := Scanner.reread_reread (s := s.scanner) .greaterThan (‹s.Ready›).token
  have hleft := h.built.move hmt fun _ => .inr hreread.full_eq
  have hl : (s.reread .greaterThan).left = s.left :=
    congrArg Cursor.left hreread.start_eq
  refine .ite (fun hbinds => ?_) fun hloose => .pure ⟨hleft, Stops.settled fun h => absurd h hloose⟩
  have hne : (s.reread .greaterThan).token ≠ .endOfFileToken := fun h => by
    rw [h, Precedence.not_binds_end] at hbinds
    cases hbinds
  refine .ite (fun hin => .pure ⟨hleft, Stops.settled fun _ => .inl ?_⟩) fun hin => ?_
  · simpa using hin
  split
  case h_1 sort hsort =>
    refine .look (.ite (fun hline => .pure ⟨hleft, Stops.settled fun _ => .inr ?_⟩) fun hline => ?_)
    · exact ⟨by rw [hsort]; rfl, hline⟩
    refine (advance_reads hne).bind fun _ u _ hmu _ hlt => ?_
    refine (assertedType_reads (by omega)).bind fun type v _ hmv hl htype => ?_
    have hc := (hleft.toExtends.move hmu).part htype
    have hoperator := assertionSort?_eq_some hsort
    have hlined : v.Faulty ∨ (Form.typeAssertion sort left type).Lined r v :=
      ((hleft.stop_eq rfl).imp_left (hmu.trans hmv).faulty).imp_right fun hstop =>
        .of_trails ⟨_, hleft.moves, hoperator.symm, hstop.symm, Bool.eq_false_iff.mpr hline⟩
          rfl rfl rfl rfl
    refine (lined_reads hm hc (.typeAssertion (hoperator.symm ▸ hbinds)) (hc.fruitful (by simp))
      (fun _ => rfl) hlined).bind fun n w _ _ hl' hn => ?_
    refine .pure ⟨by omega, hn.2.2, fun _ _ _ hform => ?_⟩
    rw [hn.2.1] at hform
    cases hform
  case h_2 hsort =>
    refine (advance_reads hne).bind fun _ u _ hmu _ hlt => ?_
    refine (operand_rule (by omega)).bind fun right v _ _ hl hright => ?_
    have hc := (hleft.toExtends.move hmu).part hright.1
    have hin : ¬ ((s.reread .greaterThan).token = .inKeyword ∧ ctx.has .withoutIn = true) := by
      simpa using hin
    have hcomplete := h.settled.completeBefore hbinds hin hsort
    refine (node_reads hm hc (.binary hbinds hcomplete hin) (hc.fruitful (by simp))
      (fun _ => rfl) rfl).bind fun n w _ _ hl' hn => ?_
    obtain ⟨rfl, hnew, hn⟩ := hn
    refine .pure ⟨by omega, hn, fun _ _ _ hform => ?_⟩
    rw [hnew] at hform
    cases hform
    exact ⟨(Precedence.binds_iff.mp hbinds).1, hright.2⟩

theorem operand_reads (hb : s.left * 8 + 3 ≤ W) :
    (operand ctx p).Reads s fun n t => Built s ⟨.operand p, ctx, n⟩ t ∧ Settled ctx p t := by
  refine .look ((unary_rule hb).bind fun first t _ _ hl hfirst => ?_)
  have hplain : first.operator? = none := by
    refine Option.eq_none_iff_forall_not_mem.mpr fun k hk => ?_
    have hparsed := hfirst.derived.parsed ‹s.Ready› id _ (List.mem_singleton_self _)
    cases hparsed.takesOperation hk
  exact loop_reads (fun n t => Operand p ctx s n t)
    ⟨hfirst.choose (by simp), .of_operator? hplain⟩
    fun n u _ _ hl' hn => operation_reads (by omega) (.mark s) hn

theorem unary_reads (hb : s.left * 8 + 2 ≤ W) :
    (unary ctx).Reads s fun n t => Built s ⟨.unary, ctx, n⟩ t := by
  refine .look (.look (.ite (fun hk => ?_) fun _ => .ite (fun hk => ?_) fun _ => ?_))
  · have hne : s.token ≠ .endOfFileToken := fun h => by
      rw [h] at hk
      cases hk
    refine (advance_reads hne).bind fun _ t _ hmt _ hlt => ?_
    refine (unary_rule (by omega)).bind fun inner u _ _ hl hinner => ?_
    exact node_built (.mark s) (hinner.toExtends.after hmt) (.prefixUnary hk) (.inl (by omega)) (fun _ => rfl) rfl
  · obtain ⟨hk, hawait⟩ := Bool.and_eq_true_iff.mp hk
    refine (advance_reads (eq_of_beq hk ▸ by decide)).bind fun _ t _ hmt _ hlt => ?_
    refine (unary_rule (by omega)).bind fun inner u _ _ hl hinner => ?_
    exact node_built (.mark s) (hinner.toExtends.after hmt) (.await hawait) (.inl (by omega)) (fun _ => rfl) rfl
  · refine (leftHandSide_reads (by omega)).bind fun inner t _ _ _ hinner => .look (.look ?_)
    refine .ite (fun hpostfix => ?_) fun _ => .pure (hinner.choose (by simp))
    refine advance_run.bind fun _ u _ hmu _ _ => ?_
    have hc := hinner.toExtends.move hmu
    obtain ⟨hk, hline⟩ := Bool.and_eq_true_iff.mp hpostfix
    have hk : t.token = .plusPlusToken ∨ t.token = .minusMinusToken := by simpa using hk
    have hline : t.OnLine := (Bool.not_eq_true' _).mp hline
    have hlined : u.Faulty ∨ (Form.postfixUnary inner t.token).Lined s u :=
      ((hinner.stop_eq rfl).imp_left hmu.faulty).imp_right fun hstop =>
        .of_trails ⟨t, hinner.moves, rfl, hstop.symm, hline⟩ rfl rfl rfl rfl
    exact lined_built (.mark s) hc (.postfixUnary hk) (hc.fruitful nofun) (fun _ => rfl) hlined

/-! ## Conditionals and assignments -/

theorem falseBranch_reads (hb : s.left * 8 + 5 ≤ W) :
    (falseBranch ctx).Reads s fun n t => Extends s [⟨.assignment, ctx, n⟩] t := by
  refine (expect_reads (by decide)).bind fun b t _ hm _ h => ?_
  rcases h with ⟨rfl, -, hlt⟩ | ⟨rfl, -, hr⟩
  · exact (assignment_rule (by omega)).mono fun _ _ hn => hn.toExtends.after hm
  · exact (missingIdentifier_reads .assignment ctx hr.faulty).mono
      fun _ _ hn => hn.toExtends.after hm

section Rest
variable {m : Mark} {left : Node} [r.Ready]

theorem conditionalRest_reads (hb : s.left * 8 ≤ W) (ht : s.token = .questionToken)
    (hm : m.At r) (hplain : left.isArrowParameters = false)
    (hc : Extends r [⟨.operand .comma, ctx, left⟩] s) :
    (conditionalRest ctx m left).Reads s fun n t => Built r ⟨.assigned, ctx, n⟩ t := by
  refine (advance_reads (ht ▸ by decide)).bind fun _ t _ hmt _ hlt => ?_
  refine (assignment_rule (by omega)).bind fun whenTrue u _ _ hl hwhenTrue => ?_
  refine (falseBranch_reads (by omega)).bind fun whenFalse v _ _ _ hwhenFalse => ?_
  have hc' := ((hc.move hmt).part hwhenTrue).append hwhenFalse
  exact node_built hm hc' (.conditional hplain) (hc'.fruitful (by simp)) (fun _ => rfl) rfl

/-- An assignment behind its operator. -/
theorem assigned_reads (hb : s.left * 8 ≤ W) (hk : s.token.isAssignmentOperator = true)
    (hlhs : left.isLeftHandSide = true) (hm : m.At r)
    (hleft : Built r ⟨.operand .comma, ctx, left⟩ s) :
    (do
      advance
      let right ← recur (.assignment ctx)
      node m (.assignment left s.token right) : Parse Node).Reads s fun n t =>
        (∃ right, n.form = .assignment left s.token right) ∧ Built r ⟨.assigned, ctx, n⟩ t := by
  have hne : s.token ≠ .endOfFileToken := fun heq => by
    rw [heq] at hk
    cases hk
  refine (advance_reads hne).bind fun _ t _ hmt _ hlt => ?_
  refine (assignment_rule (by omega)).bind fun right u _ _ _ hright => ?_
  have hc := (hleft.toExtends.move hmt).part hright
  exact (node_reads hm hc (.assignment hlhs) (hc.fruitful (by simp)) (fun _ => rfl) rfl).mono
    fun _ _ hn => ⟨⟨right, hn.2.1⟩, hn.2.2⟩

/-- An assignment whose leftmost operand has been read since its mark. -/
theorem assignmentRest_reads (hb : s.left * 8 ≤ W)
    (hb' : left.isArrowParameters = true → s.left * 8 + 5 ≤ W) (hm : m.At r)
    (hleft : Built r ⟨.operand .comma, ctx, left⟩ s) :
    (assignmentRest ctx m left).Reads s fun n t => Built r ⟨.assigned, ctx, n⟩ t := by
  refine .look (.ite (fun h => ?_) fun _ => .ite (fun h => ?_) fun hplain => .ite (fun h => ?_) ?_)
  · obtain ⟨hid, htok⟩ := Bool.and_eq_true_iff.mp h
    have hparameter : Built r ⟨.parameterName, ctx, left⟩ s := hleft.serve (.parameter hid)
    exact (arrowFunction_reads (.inl ⟨eq_of_beq htok, hb⟩) hm
      (Extends.simple hparameter.toExtends) (hleft.stop_eq rfl)
      fun h => absurd h Bool.false_ne_true).mono
      fun _ _ hn => hn.2.choose (by simp)
  · have hparameters : Built r ⟨.arrowParameters, ctx, left⟩ s := hleft.serve (.arrow h)
    exact (arrowFunction_reads (.inr (hb' h)) hm hparameters.toExtends (hleft.stop_eq rfl)
      fun h => absurd h Bool.false_ne_true).mono
      fun _ _ hn => hn.2.choose (by simp)
  · obtain ⟨hk, hlhs⟩ := Bool.and_eq_true_iff.mp h
    exact (assigned_reads hb hk hlhs hm hleft).mono fun _ _ hn => hn.2
  · have hplain := Bool.eq_false_iff.mpr hplain
    refine fun _ => .ite (fun h => ?_) fun _ => .pure (hleft.serve (.operand hplain))
    exact conditionalRest_reads hb (eq_of_beq h) hm hplain hleft.toExtends

/-- A name or a pattern before an equals sign gets a default. -/
theorem assignmentRest_default (hb : s.left * 8 ≤ W) (ht : s.token = .equalsToken)
    (hpattern : left.isIdentifierOrPattern = true) (hm : m.At r)
    (hleft : Built r ⟨.operand .comma, ctx, left⟩ s) :
    (assignmentRest ctx m left).Reads s fun n t =>
      Built r ⟨.assigned, ctx, n⟩ t ∧ n.isParameterShaped = true := by
  have hk : s.token.isAssignmentOperator = true := ht ▸ by decide
  have hlhs := Node.isLeftHandSide_of_pattern hpattern
  refine .look (.ite (fun h => ?_) fun _ => .ite (fun h => ?_) fun _ => .ite (fun _ => ?_) ?_)
  · rw [ht] at h
    exact absurd (Bool.and_eq_true_iff.mp h).2 (by decide)
  · rw [Node.isArrowParameters_of_pattern hpattern] at h
    cases h
  · refine (assigned_reads hb hk hlhs hm hleft).mono fun n _ hn => ⟨hn.2, ?_⟩
    obtain ⟨right, hform⟩ := hn.1
    rw [ht] at hform
    simpa [Node.isParameterShaped, hform] using hpattern
  · exact fun hnot => absurd (Bool.and_eq_true_iff.mpr ⟨hk, hlhs⟩) hnot

end Rest

theorem yieldExpression_reads (hb : s.left * 8 ≤ W) (ht : s.token = .yieldKeyword)
    (hyield : ctx.has .yieldOperator = true) :
    (yieldExpression ctx).Reads s fun n t => Built s ⟨.assigned, ctx, n⟩ t := by
  refine .look (advance_run.bind fun _ t _ hmt _ ht' => .look (.look ?_))
  subst ht'
  have hlt := consume_left_lt .plain (s := s) (ht ▸ by decide)
  refine .ite (fun hline => ?_) fun _ => ?_
  · refine accept_takes.bind fun delegate u _ hmu hl hu => ?_
    refine (assignment_rule (by omega)).bind fun inner v _ _ hl' hinner => ?_
    have hc := hinner.opt.after (hmt.trans hmu)
    have hline : (s.consume .plain).OnLine :=
      (Bool.not_eq_true' _).mp (Bool.and_eq_true_iff.mp hline).1
    have hjoins : s.Joins s.start.offset .yieldKeyword (s.consume .plain).start.offset :=
      ⟨s, .refl s, ht, rfl, hline, rfl⟩
    have hlined : v.Faulty ∨ (Form.yield delegate (some inner)).Lined s v := by
      rcases hu with ⟨rfl, -, -⟩ | ⟨rfl, -, rfl⟩
      · exact .inr (.of_joins hjoins (fun _ hn => by cases hn) rfl rfl rfl rfl)
      · exact (hinner.pos_eq rfl).imp_right fun hpos =>
          .of_joins hjoins (fun n hn => by cases hn; exact hpos) rfl rfl rfl rfl
    exact lined_built (.mark s) hc (.yield hyield) (.inl (by omega)) (fun _ => rfl) hlined
  · have hc : Extends s (opt .assignment ctx none) (s.consume .plain) := .nil hmt
    exact node_built (.mark s) hc (.yield hyield) (.inl hlt) (fun _ => rfl) rfl

theorem genericArrow?_reads (hb : s.left * 8 ≤ W) :
    (genericArrow? ctx).Reads s fun answer t => (answer = none → s.Still t) ∧ ∀ n ∈ answer,
      Built s ⟨.arrowParameters, ctx, n⟩ t ∧ n.isArrowParameters = true := by
  refine (isAt_reads.and_still fun _ => mayOpenTypeParameters_reads).bind
    fun b t _ hmt hl ht => .ite (fun _ => ?_) fun _ => .pure ⟨fun _ => ht.1, nofun⟩
  have hflush : Moves t t.flush := .single (.flush t)
  have hb' : t.flush.left * 8 ≤ W := by
    change t.left * 8 ≤ W
    omega
  have hstill : s.Still t.flush := ht.1.trans (.flush t)
  refine (attempt_reads (genericParameters_reads hb')).mono fun answer u h => ?_
  rcases h with ⟨rfl, rfl⟩ | ⟨hsome, h⟩
  · exact ⟨fun _ => hstill, nofun⟩
  · refine ⟨fun hnone => by simp [hnone] at hsome, fun n hn => ?_⟩
    exact ⟨(h n hn).1.after_still (hmt.trans hflush) hstill, (h n hn).2⟩

theorem asyncArrow_reads {m : Mark} [r.Ready] (hb : s.left * 8 ≤ W) (ht : s.token = .asyncKeyword)
    (hline : (s.consume .plain).OnLine) (hm : m.At r) (hr : Moves r s)
    (hstart : s.start = r.start) :
    (asyncArrow ctx m).Reads s fun n t => Built r ⟨.assigned, ctx, n⟩ t := by
  refine (advance_reads (ht ▸ by decide)).bind fun _ t _ hmt _ hlt => ?_
  refine identifier_reads.bind fun parameter u _ _ hl hparameter => ?_
  have hc := (hparameter.serve .asyncParameter).toExtends.after (hr.trans hmt)
  have hjoins : r.Joins r.start.offset .asyncKeyword (s.consume .plain).start.offset :=
    ⟨s, hr, ht, congrArg Cursor.offset hstart, hline, rfl⟩
  exact (arrowFunction_reads (.inr (by omega)) hm (Extends.simple hc) (hparameter.stop_eq rfl)
    fun _ => ⟨_, hjoins⟩).mono fun _ _ hn => hn.2.choose (by simp)

theorem assignment_reads (hb : s.left * 8 + 4 ≤ W) :
    (assignment ctx).Reads s fun n t => Built s ⟨.assigned, ctx, n⟩ t := by
  refine .look (.ite (fun h => ?_) fun _ => .look ?_)
  · obtain ⟨htok, hyield⟩ := Bool.and_eq_true_iff.mp h
    exact yieldExpression_reads (by omega) (eq_of_beq htok) hyield
  refine (genericArrow?_reads (by omega)).bind fun answer t _ hmt hl hgeneric => ?_
  cases answer with
  | some parameters =>
    obtain ⟨hparameters, harrow⟩ := hgeneric.2 parameters rfl
    have hlt := hparameters.consumed harrow
    exact (arrowFunction_reads (.inr (by omega)) (.mark s) hparameters.toExtends
      (hparameters.stop_eq rfl) fun h => absurd h Bool.false_ne_true).mono fun _ _ hn => hn.2.choose (by simp)
  | none =>
    have ht := hgeneric.1 rfl
    refine startsAsyncArrow_reads.bind fun b u _ hmu hl' h => .ite (fun hb' => ?_) fun _ => ?_
    · obtain ⟨rfl, htok, hline⟩ := h.2 hb'
      exact asyncArrow_reads (by omega) htok hline (.mark s) (hmt.trans hmu) ht.start_eq
    · refine (operand_reads (by omega)).bind fun left v _ _ hl'' hleft => ?_
      refine assignmentRest_reads (by omega) (fun harrow => ?_) (.mark s)
        (hleft.1.after_still (hmt.trans hmu) (ht.trans h.1))
      have hlt := hleft.1.consumed harrow
      omega

end Grammar
end EcmaSyntax
