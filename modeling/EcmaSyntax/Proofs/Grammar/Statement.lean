import EcmaSyntax.Proofs.Grammar.Declaration

/-! # Reading statements

A statement that begins with a word of its own has consumed it before anything in it is read; only
an expression statement begins with what it consists of. -/
namespace EcmaSyntax.Grammar
open Parse ParseState Part
variable [Recursion] {W : Nat} [Lawful W] {r s t : ParseState} [r.Ready] [s.Ready] {ctx : Context}
variable {m : Mark} {site : StatementSite}

omit [r.Ready] in
theorem condition_reads (hb : s.left * 8 + 5 ≤ W) :
    (condition ctx).Reads s fun n t => Extends s [⟨.expression, ctx.withIn, n⟩] t := by
  refine (expect_reads (by decide)).bind fun _ t _ hmt hl _ => ?_
  refine (expression_reads (by omega)).bind fun inner u _ _ _ hinner => ?_
  refine (expect_reads (by decide)).bind fun _ v _ hmv _ _ => .pure ?_
  exact (hinner.toExtends.after hmt).move hmv

omit [r.Ready] in
theorem innerStatement_reads (hb : s.left * 8 + 6 ≤ W) :
    (innerStatement ctx).Reads s fun n t => Built s ⟨.statement .plain, ctx, n⟩ t :=
  statement_rule hb

/-! ## Branches and loops -/

omit [r.Ready] in
theorem ifStatement_reads (hb : s.left * 8 ≤ W) (ht : s.token ≠ .endOfFileToken) :
    (ifStatement ctx).Reads s fun n t => Built s ⟨.statement site, ctx, n⟩ t := by
  refine .look ((advance_reads ht).bind fun _ t _ hmt _ hlt => ?_)
  refine (condition_reads (by omega)).bind fun test u _ _ hl htest => ?_
  refine (statement_rule (by omega)).bind fun whenTrue v _ _ hl' hwhenTrue => ?_
  refine (behind_opt (by decide) fun _ _ _ _ => statement_rule (by omega)).bind
    fun whenFalse w _ _ _ hwhenFalse => ?_
  have hc := ((htest.after hmt).part hwhenTrue).append hwhenFalse
  exact node_built (.mark s) hc .ifStatement (hc.fruitful (by simp)) (fun _ => rfl) rfl

omit [r.Ready] in
theorem doStatement_reads (hb : s.left * 8 ≤ W) (ht : s.token ≠ .endOfFileToken) :
    (doStatement ctx).Reads s fun n t => Built s ⟨.statement site, ctx, n⟩ t := by
  refine .look ((advance_reads ht).bind fun _ t _ hmt _ hlt => ?_)
  refine (innerStatement_reads (by omega)).bind fun body u _ _ hl hbody => ?_
  refine (expect_reads (by decide)).bind fun _ v _ hmv hl₂ _ => ?_
  refine (condition_reads (by omega)).bind fun test w _ _ _ htest => ?_
  refine (accept_reads (by decide)).bind fun _ x _ hmx _ _ => ?_
  have hc := (((hbody.toExtends.after hmt).move hmv).append htest).move hmx
  exact node_built (.mark s) hc .doStatement (hc.fruitful (by simp)) (fun _ => rfl) rfl

omit [r.Ready] in
theorem whileStatement_reads (hb : s.left * 8 ≤ W) (ht : s.token ≠ .endOfFileToken) :
    (whileStatement ctx).Reads s fun n t => Built s ⟨.statement site, ctx, n⟩ t := by
  refine .look ((advance_reads ht).bind fun _ t _ hmt _ hlt => ?_)
  refine (condition_reads (by omega)).bind fun test u _ _ hl htest => ?_
  refine (innerStatement_reads (by omega)).bind fun body v _ _ _ hbody => ?_
  have hc := (htest.after hmt).part hbody
  exact node_built (.mark s) hc .whileStatement (hc.fruitful (by simp)) (fun _ => rfl) rfl

omit [r.Ready] in
theorem forInitializer_reads (hb : s.left * 8 + 5 ≤ W) :
    (forInitializer ctx).Reads s fun n t =>
      Extends s (opt .forInitializer (ctx.including [.withoutIn]) n) t := by
  have hexpression {t : ParseState} [t.Ready] (hmt : Moves s t) (hl : t.left ≤ s.left) :
      (some <$> expression (ctx.including [.withoutIn])).Reads t fun n u =>
        Extends s (opt .forInitializer (ctx.including [.withoutIn]) n) u :=
    .map ((expression_reads (by omega)).mono fun n u hn =>
      have hn : Built t ⟨.forInitializer, ctx.including [.withoutIn], n⟩ u := hn.choose (by simp)
      (hn.after hmt nofun).opt)
  have hvariables {t : ParseState} [t.Ready] (flags : NodeFlags) (hmt : Moves s t)
      (hlt : t.left < s.left) (hf : flags.has .hasErrors = false) :
      (some <$> variableDeclarations (ctx.including [.withoutIn]) s.mark flags).Reads t fun n u =>
        Extends s (opt .forInitializer (ctx.including [.withoutIn]) n) u :=
    .map ((variableDeclarations_reads (by omega) (.mark s) hmt hlt hf).mono fun _ _ hn =>
      (hn.choose (by simp)).opt)
  refine .look (.look ?_)
  split
  case h_1 => exact .pure (.opt_none _ _)
  case h_2 h =>
    exact (advance_reads (h ▸ by decide)).bind fun _ t _ hmt _ hlt =>
      hvariables ∅ hmt hlt (by decide)
  case h_3 h =>
    exact (advance_reads (h ▸ by decide)).bind fun _ t _ hmt _ hlt =>
      hvariables NodeFlag.constBinding hmt hlt (by decide)
  case h_4 h =>
    refine (acceptLet_reads (h ▸ by decide)).bind fun b t _ hmt hl hb' => ?_
    rcases hb' with ⟨rfl, hlt⟩ | ⟨rfl, -⟩
    · exact hvariables NodeFlag.letBinding hmt hlt (by decide)
    · exact hexpression hmt hl
  case h_5 => exact hexpression (.refl s) (Nat.le_refl _)

theorem forRest_reads {first : Option Node} (hb : s.left * 8 + 6 ≤ W) (hm : m.At r)
    (hc : Extends r (opt .forInitializer (ctx.including [.withoutIn]) first) s) :
    (forRest ctx m first).Reads s fun n t => Built r ⟨.statement site, ctx, n⟩ t := by
  refine (expect_reads (by decide)).bind fun _ t _ hmt hl _ => ?_
  refine (unlessAtAny_reads (f := fun n => opt .expression ctx.withIn n) rfl fun _ =>
    (expression_reads (by omega)).mono fun _ _ hn => hn.opt).bind fun test u _ _ hl₂ htest => ?_
  refine (expect_reads (by decide)).bind fun _ v _ hmv hl₃ _ => ?_
  refine (unlessAtAny_reads (f := fun n => opt .expression ctx.withIn n) rfl fun _ =>
    (expression_reads (by omega)).mono fun _ _ hn => hn.opt).bind fun step w _ _ hl₄ hstep => ?_
  refine (expect_reads (by decide)).bind fun _ x _ hmx hl₅ _ => ?_
  refine (innerStatement_reads (by omega)).bind fun body y _ _ _ hbody => ?_
  have hc' := ((((hc.move hmt).append htest).move hmv).append hstep).move hmx |>.part hbody
  exact node_built hm hc' .forStatement (hc'.fruitful (by simp)) (fun _ => rfl) rfl

omit [r.Ready] in
theorem iterationSubject_reads {sort : IterationSort} (hb : s.left * 8 + 5 ≤ W) :
    (iterationSubject ctx sort).Reads s fun n t => Built s ⟨.expression, ctx, n⟩ t :=
  .ite (fun _ => (assignment_rule hb).mono fun _ _ hn => hn.choose (by simp)) fun _ => expression_reads hb

theorem forEachRest_reads {sort : IterationSort} {isAwait : Bool} {first : Node}
    (hb : s.left * 8 + 6 ≤ W) (hm : m.At r)
    (hc : Extends r [⟨.forInitializer, ctx.including [.withoutIn], first⟩] s) :
    (forEachRest ctx m sort isAwait first).Reads s fun n t =>
      Built r ⟨.statement site, ctx, n⟩ t := by
  refine (iterationSubject_reads (by omega)).bind fun subject t _ _ hl hsubject => ?_
  refine (expect_reads (by decide)).bind fun _ u _ hmu hl' _ => ?_
  refine (innerStatement_reads (by omega)).bind fun body v _ _ _ hbody => ?_
  have hc' := ((hc.part hsubject).move hmu).part hbody
  exact node_built hm hc' .forEach (hc'.fruitful (by simp)) (fun _ => rfl) rfl

omit [r.Ready] in
theorem forLoop_reads (hb : s.left * 8 ≤ W) (ht : s.token ≠ .endOfFileToken) :
    (forLoop ctx).Reads s fun n t => Built s ⟨.statement site, ctx, n⟩ t := by
  refine .look ((advance_reads ht).bind fun _ t _ hmt _ hlt => ?_)
  refine (accept_reads (by decide)).bind fun isAwait u _ hmu hl _ => ?_
  refine (expect_reads (by decide)).bind fun _ v _ hmv hl₂ _ => ?_
  refine (forInitializer_reads (by omega)).bind fun first w _ _ hl₃ hfirst => ?_
  have hc := hfirst.after ((hmt.trans hmu).trans hmv)
  cases first with
  | none => exact forRest_reads (by omega) (.mark s) hc
  | some first =>
    refine .ifAccept (by decide) (fun x _ hmx _ hl₄ => ?_) fun _ => ?_
    · exact forEachRest_reads (by omega) (.mark s) (hc.move hmx)
    refine .ifAccept (by decide) (fun x _ hmx _ hl₄ => ?_) fun _ => ?_
    · exact forEachRest_reads (by omega) (.mark s) (hc.move hmx)
    · exact forRest_reads (by omega) (.mark s) hc

/-! ## Jumps -/

omit [r.Ready] [Recursion] in
theorem jumpLabel?_reads :
    (jumpLabel? ctx).Reads s fun n t =>
      BuiltIf s .identifier ctx n t ∧ (n.isSome = true → s.OnLine) := by
  refine .look (.ite (fun _ => .pure ⟨.none _ ctx, nofun⟩) fun hline => ?_)
  exact identifier?_reads.mono fun _ _ hn => ⟨hn, fun _ => Bool.eq_false_iff.mpr hline⟩

omit [r.Ready] [s.Ready] [Recursion] in
/-- A statement that consists of a word and what may follow it on the same line. -/
theorem wordStatement_lined {word : Kind} {ph : Phrase} {ctx' : Context} {operand : Option Node}
    {form : Form Node} (hr : Moves r s) (hstart : s.start = r.start) (ht : s.token = word)
    (hoperand : BuiltIf (s.consume .plain) ph ctx' operand t)
    (hline : operand.isSome = true → (s.consume .plain).OnLine)
    (hform : form.boundWord? = operand.map fun e => (word, some e))
    (htail : form.boundTail? = none) (hasync : form.asyncHead? = none) {u : ParseState}
    (hm : Moves t u) (hends : r.Ended u) : u.Faulty ∨ form.Lined r u := by
  cases operand with
  | none => exact .inr (.of_ended hends hform htail hasync)
  | some e =>
    refine ((hoperand.pos_eq e rfl).imp_left hm.faulty).imp_right fun hpos => ?_
    have hjoins : r.Joins r.start.offset word (s.consume .plain).start.offset :=
      ⟨s, hr, ht, congrArg Cursor.offset hstart, hline rfl, rfl⟩
    refine ⟨fun _ => hends, fun k n h => ?_, fun _ _ h => ?_, fun _ _ h => ?_⟩
    · cases hform.symm.trans h
      exact ⟨_, hjoins, fun n hn => by cases hn; exact hpos⟩
    · cases htail.symm.trans h
    · cases hasync.symm.trans h

omit [r.Ready] [Recursion] in
theorem jump_reads {sort : JumpSort} (ht : s.token = sort.keyword) :
    (jump ctx sort).Reads s fun n t => Built s ⟨.statement site, ctx, n⟩ t := by
  refine .look (advance_run.bind fun _ t _ hmt _ heq => ?_)
  subst heq
  have hlt := consume_left_lt .plain (s := s) (ht ▸ by cases sort <;> decide)
  refine jumpLabel?_reads.bind fun label u _ _ hl ⟨hlabel, hline⟩ => ?_
  refine closed_lined_reads (.mark s) (hlabel.toExtends.after hmt) (fun _ _ => .jump) (.inl (by omega))
    (fun _ => rfl) fun v hm hends => ?_
  refine wordStatement_lined (.refl s) rfl ht hlabel hline ?_ rfl rfl hm hends
  cases label <;> rfl

omit [r.Ready] in
theorem returnValue_reads (hb : s.left * 8 + 5 ≤ W) :
    (returnValue ctx).Reads s fun n t =>
      BuiltIf s .expression ctx.withIn n t ∧ (n.isSome = true → s.OnLine) := by
  refine canOmitSemicolon_reads.bind fun b t _ _ _ ht => ?_
  obtain ⟨rfl, -, hline⟩ := ht
  refine .ite (fun _ => .pure ⟨.none _ _, nofun⟩) fun hb' => .map ?_
  exact (expression_reads hb).mono fun _ _ hn => ⟨.some hn rfl, fun _ => hline (Bool.eq_false_iff.mpr hb')⟩

omit [r.Ready] in
theorem returnStatement_reads (hb : s.left * 8 ≤ W) (ht : s.token = .returnKeyword) :
    (returnStatement ctx).Reads s fun n t => Built s ⟨.statement site, ctx, n⟩ t := by
  refine .look (reportWhen_checks.bind fun _ t _ hmt _ ⟨hstill, hallowed⟩ => ?_)
  have hleft := hstill.left_eq
  have ht := hstill.token_eq.trans ht
  refine advance_run.bind fun _ u _ hmu _ heq => ?_
  subst heq
  have hlt := consume_left_lt .plain (s := t) (ht ▸ by decide)
  refine (returnValue_reads (by omega)).bind fun value v _ hmv hl ⟨hvalue, hline⟩ => ?_
  refine closed_lined_reads (.mark s) (hvalue.toExtends.after (hmt.trans hmu)) (fun w hmw => ?_)
    (.inl (by omega)) (fun _ => rfl) fun w hmw hends => ?_
  · exact .returnStatement
      (hallowed.imp ((hmu.trans hmv).trans hmw).faulty (Bool.not_eq_false' _).mp)
  · refine wordStatement_lined hmt hstill.start_eq ht hvalue hline ?_ rfl rfl hmw hends
    cases value <;> rfl

omit [r.Ready] in
theorem thrownValue_reads (hb : s.left * 8 + 5 ≤ W) :
    (thrownValue ctx).Reads s fun n t =>
      Built s ⟨.expression, ctx.withIn, n⟩ t ∧ (t.Faulty ∨ s.OnLine) := by
  refine .look (.ite (fun _ => ?_) fun hline => ?_)
  · refine reportHere_reads.bind fun _ t _ hm _ hr => ?_
    exact (missingIdentifier_reads .expression _ hr.faulty).last
      fun _ _ hm' _ hn => ⟨hn.after_still hm hr.still, .inl (hm'.faulty hr.faulty)⟩
  · exact (expression_reads hb).mono fun _ _ hn => ⟨hn, .inr (Bool.eq_false_iff.mpr hline)⟩

omit [r.Ready] in
theorem throwStatement_reads (hb : s.left * 8 ≤ W) (ht : s.token = .throwKeyword) :
    (throwStatement ctx).Reads s fun n t => Built s ⟨.statement site, ctx, n⟩ t := by
  refine .look (advance_run.bind fun _ t _ hmt _ heq => ?_)
  subst heq
  have hlt := consume_left_lt .plain (s := s) (ht ▸ by decide)
  refine (thrownValue_reads (by omega)).bind fun value u _ _ _ ⟨hvalue, hline⟩ => ?_
  have hc := hvalue.toExtends.after hmt
  refine closed_lined_reads (.mark s) hc (fun _ _ => .throwStatement) (hc.fruitful nofun) (fun _ => rfl)
    fun v hmv hends => ?_
  rcases hline with hf | hline
  · exact .inl (hmv.faulty hf)
  · exact wordStatement_lined (.refl s) rfl ht (.some hvalue rfl) (fun _ => hline) rfl rfl rfl hmv hends

/-! ## Compound statements -/

omit [r.Ready] in
theorem withStatement_reads (hb : s.left * 8 ≤ W) (ht : s.token ≠ .endOfFileToken) :
    (withStatement ctx).Reads s fun n t => Built s ⟨.statement site, ctx, n⟩ t := by
  refine .look (reportWhen_checks.bind fun _ t _ hmt _ ⟨hstill, hallowed⟩ => ?_)
  have hleft := hstill.left_eq
  refine (advance_reads (hstill.token_eq ▸ ht)).bind fun _ u _ hmu _ hlt => ?_
  refine (condition_reads (by omega)).bind fun subject v _ hmv hl hsubject => ?_
  refine (innerStatement_reads (by omega)).bind fun body w _ hmw _ hbody => ?_
  have hc := (hsubject.after (hmt.trans hmu)).part hbody
  have hallowed := hallowed.imp_left ((hmu.trans hmv).trans hmw).faulty
  exact node_built (.mark s) hc (.withStatement hallowed) (hc.fruitful (by simp)) (fun _ => rfl) rfl

omit [r.Ready] in
theorem caseValue_reads (hb : s.left * 8 ≤ W) (ht : s.token ≠ .endOfFileToken) :
    (caseValue ctx).Reads s fun n t =>
      Extends s (opt .expression ctx.withIn n) t ∧ t.left < s.left := by
  refine .ifAccept (by decide) (fun t _ hm _ hlt => .map ?_) fun _ => ?_
  · exact (expression_reads (by omega)).last fun n u _ hl hn => ⟨hn.opt.after hm, by omega⟩
  · exact (advance_reads ht).bind fun _ t _ hm _ hlt => .pure ⟨.nil hm, hlt⟩

omit [r.Ready] in
theorem caseClause_reads (hb : s.left * 8 ≤ W) (ht : s.token ≠ .endOfFileToken) :
    (caseClause ctx).Reads s fun n t => Built s ⟨.caseClause, ctx, n⟩ t ∧ t.left < s.left := by
  refine .look ((caseValue_reads hb ht).bind fun value t _ _ _ hvalue => ?_)
  have hlt := hvalue.2
  refine (expect_reads (by decide)).bind fun _ u _ hmu hl _ => ?_
  refine (statementList_reads (by omega)).bind fun statements v _ _ hl' hstatements => ?_
  have hv : v.left < s.left := by omega
  have hc := (hvalue.1.move hmu).append hstatements.1
  refine (node_reads (.mark s) hc .caseClause (.inl hv) (fun _ => rfl) rfl).mono fun n w hn => ?_
  obtain ⟨rfl, -, hn⟩ := hn
  exact ⟨hn, hv⟩

omit [r.Ready] in
theorem caseTurn_reads {found : Array Node} [t.Ready] (hb : t.left * 8 ≤ W)
    (h : Extends s (all .caseClause ctx found.toList) t) :
    (caseTurn ctx found).Reads t
      (AfterTurn (fun found u => Extends s (all .caseClause ctx found.toList) u)
        (fun found u => Extends s (all .caseClause ctx found.toList) u) t) := by
  refine atListEnd_reads (.pure h) fun _ hne => .ifAtAny (fun _ => ?_) fun _ => ?_
  · exact (caseClause_reads hb hne).bind fun n u _ _ _ hn => .pure ⟨hn.2, h.all_push hn.1⟩
  · refine reportHere_reads.bind fun _ u _ hmu _ hr => ?_
    have hleft := hr.still.left_eq
    refine (consume_reads .expression (hr.still.token_eq ▸ hne)).bind fun _ v _ hmv _ hlt => ?_
    exact .pure ⟨by omega, (h.move hmu).move hmv⟩

omit [r.Ready] in
theorem switchStatement_reads (hb : s.left * 8 ≤ W) (ht : s.token ≠ .endOfFileToken) :
    (switchStatement ctx).Reads s fun n t => Built s ⟨.statement site, ctx, n⟩ t := by
  refine .look ((advance_reads ht).bind fun _ t _ hmt _ hlt => ?_)
  refine (condition_reads (by omega)).bind fun subject u _ _ hl hsubject => ?_
  refine (within_reads (f := fun cs => all .caseClause ctx cs) (by decide) (by decide) rfl
    fun v _ _ _ => collect_reads .caseClause ctx fun found w _ _ _ h =>
      caseTurn_reads (by omega) h).bind fun clauses v _ _ _ hclauses => ?_
  have hc := (hsubject.after hmt).append hclauses.1
  exact node_built (.mark s) hc .switchStatement (hc.fruitful (by simp)) (fun _ => rfl) rfl

omit [r.Ready] in
theorem caughtVariable_reads (hb : s.left * 8 ≤ W) :
    (caughtVariable ctx).Reads s fun n t => Built s ⟨.variable, ctx.withIn, n⟩ t := by
  refine (variableDeclaration_reads hb).bind fun binding t _ _ _ hbinding => ?_
  exact (expect_reads (by decide)).bind fun _ u _ hm _ _ => .pure (hbinding.move hm nofun)

omit [r.Ready] in
theorem catchClause_reads (hb : s.left * 8 ≤ W) :
    (catchClause ctx).Reads s fun n t => Built s ⟨.catchClause, ctx, n⟩ t := by
  refine .look (advance_run.bind fun _ t _ hmt hl _ => ?_)
  refine (behind_opt (by decide) fun _ _ _ _ => caughtVariable_reads (by omega)).bind
    fun binding u _ _ hl' hbinding => ?_
  refine (block_reads (by omega)).bind fun body v _ _ _ hbody => ?_
  have hc := (hbinding.after hmt).part hbody
  exact node_built (.mark s) hc .catchClause (hc.fruitful (by simp)) (fun _ => rfl) rfl

omit [r.Ready] [s.Ready] [Recursion] in
theorem checkHandled_reads {isHandled : Bool} : (checkHandled isHandled).Reads s fun _ _ => True :=
  .ite (fun _ => .pure trivial) fun _ => reportExpected_reads.mono fun _ _ _ => trivial

omit [r.Ready] in
theorem tryStatement_reads (hb : s.left * 8 ≤ W) :
    (tryStatement ctx).Reads s fun n t => Built s ⟨.statement site, ctx, n⟩ t := by
  refine .look ((expect_reads (by decide)).bind fun _ t _ hmt hl _ => ?_)
  refine (block_reads (by omega)).bind fun body u _ _ hl₂ hbody => ?_
  refine (whenAt_reads (f := fun n => opt .catchClause ctx n) rfl fun _ =>
    (catchClause_reads (by omega)).mono fun _ _ hn => hn.opt).bind fun handler v _ _ hl₃ hhandler => ?_
  refine (behind_opt (by decide) fun _ _ _ _ => block_reads (by omega)).bind
    fun finalizer w _ _ _ hfinalizer => ?_
  refine checkHandled_reads.bind fun _ x _ hmx _ _ => ?_
  have hc := (((hbody.toExtends.after hmt).append hhandler).append hfinalizer).move hmx
  exact node_built (.mark s) hc .tryStatement (hc.fruitful (by simp)) (fun _ => rfl) rfl

/-! ## Functions, labels and expressions -/

omit [r.Ready] [s.Ready] [Recursion] in
theorem checkFunction_reads : (checkFunction ctx site).Reads s fun _ t =>
    t.Faulty ∨ t = s ∧ misplacedFunction? ctx site = none := by
  unfold checkFunction
  split
  case h_1 h => exact .pure (.inr ⟨rfl, h⟩)
  case h_2 => exact reportHere_reads.mono fun _ _ h => .inl h.faulty

theorem functionStatement_reads (hb : s.left * 8 ≤ W) (hr : Moves r s)
    (hline : s.token = .asyncKeyword → (s.consume .plain).OnLine) :
    (functionStatement ctx site).Reads s fun n t => Built r ⟨.statement site, ctx, n⟩ t := by
  refine .look (checkFunction_reads.bind fun _ t _ hmt hl hallowed => ?_)
  have hline (h : t.token = .asyncKeyword) : t.Faulty ∨ (t.consume .plain).OnLine := by
    refine hallowed.imp_right fun ht => ?_
    obtain ⟨rfl, -⟩ := ht
    exact hline h
  exact (functionDeclaration_reads (by omega) (.mark s) hmt hline).last fun _ _ hm _ hn =>
    (hn.serve (.functionBody (hallowed.imp hm.faulty And.right))).after hr nofun

theorem labeledRest_reads {label : Node} (hb : s.left * 8 ≤ W) (ht : s.token ≠ .endOfFileToken)
    (hm : m.At r) (hid : label.isIdentifier = true)
    (hlabel : Extends r [⟨.expression, ctx, label⟩] s) :
    (labeledRest ctx m label).Reads s fun n t => Built r ⟨.statement site, ctx, n⟩ t := by
  refine (advance_reads ht).bind fun _ t _ hmt _ hlt => ?_
  refine (statement_rule (by omega)).bind fun body u _ _ _ hbody => ?_
  have hc := (hlabel.move hmt).part hbody
  exact node_built hm hc (.labeled hid) (hc.fruitful (by simp)) (fun _ => rfl) rfl

omit [r.Ready] in
theorem expressionStatement_reads (hb : s.left * 8 + 5 ≤ W) :
    (expressionStatement ctx).Reads s fun n t => Built s ⟨.statement site, ctx, n⟩ t := by
  refine .look (.look ((expression_reads hb).bind fun inner t _ _ hl hinner => .look ?_))
  refine .ite (fun h => ?_) fun _ => .look ?_
  · obtain ⟨h, hid⟩ := Bool.and_eq_true_iff.mp h
    have htok := eq_of_beq (Bool.and_eq_true_iff.mp h).2
    exact labeledRest_reads (by omega) (htok ▸ by decide) (.mark s) hid hinner.toExtends
  · refine reportWhen_reads.bind fun _ u _ hmu _ _ => ?_
    have hc := hinner.toExtends.move hmu
    exact closed_reads (.mark s) hc (fun _ _ => .expressionStatement) (hc.fruitful nofun) (fun _ => rfl) rfl

omit [r.Ready] [Recursion] in
theorem emptyStatement_reads (ht : s.token ≠ .endOfFileToken) :
    emptyStatement.Reads s fun n t => Built s ⟨.statement site, ctx, n⟩ t :=
  .look ((advance_reads ht).bind fun _ _ _ hm _ hlt =>
    node_built (.mark s) (.nil hm) .emptyStatement (.inl hlt) (fun _ => rfl) rfl)

omit [r.Ready] [Recursion] in
theorem debuggerStatement_reads (ht : s.token ≠ .endOfFileToken) :
    debuggerStatement.Reads s fun n t => Built s ⟨.statement site, ctx, n⟩ t := by
  refine .look ((advance_reads ht).bind fun _ t _ hmt _ hlt => ?_)
  exact closed_reads (.mark s) (.nil hmt) (fun _ _ => .debuggerStatement) (.inl hlt) (fun _ => rfl) rfl

omit [r.Ready] in
theorem statement_reads (hb : s.left * 8 + 5 ≤ W) :
    (statement ctx site).Reads s fun n t => Built s ⟨.statement site, ctx, n⟩ t := by
  have hb' : s.left * 8 ≤ W := by omega
  refine .look (.look ?_)
  split
  case h_1 => exact (block_reads hb').mono fun _ _ hn => hn.choose (by simp)
  case h_2 h => exact emptyStatement_reads (h ▸ by decide)
  case h_3 h =>
    refine (advance_reads (h ▸ by decide)).bind fun _ t _ hmt _ hlt => ?_
    have hb' : t.left * 8 ≤ W := by omega
    exact (variableStatement_reads hb' (.mark s) (.refl s) (.mark s) hmt hlt (by decide)).mono
      fun _ _ hn => hn.choose (.tail _ (.head _))
  case h_4 h => exact ifStatement_reads hb' (h ▸ by decide)
  case h_5 h => exact doStatement_reads hb' (h ▸ by decide)
  case h_6 h => exact whileStatement_reads hb' (h ▸ by decide)
  case h_7 h => exact forLoop_reads hb' (h ▸ by decide)
  case h_8 h | h_9 h => exact jump_reads h
  case h_10 h => exact returnStatement_reads hb' h
  case h_11 h => exact withStatement_reads hb' (h ▸ by decide)
  case h_12 h => exact switchStatement_reads hb' (h ▸ by decide)
  case h_13 h => exact throwStatement_reads hb' h
  case h_14 | h_15 | h_16 => exact tryStatement_reads hb'
  case h_17 h => exact debuggerStatement_reads (h ▸ by decide)
  case h_18 h => exact functionStatement_reads hb' (.refl s) fun h' => nomatch h.symm.trans h'
  case h_19 =>
    refine isBeforeFunction_reads.bind fun b t _ hmt hl ht => .ite (fun hb' => ?_) fun _ => ?_
    · obtain ⟨rfl, hline⟩ := ht
      exact functionStatement_reads (by omega) hmt fun _ => hline hb'
    · exact (expressionStatement_reads (by omega)).mono fun _ _ hn => hn.after hmt nofun
  case h_20 =>
    refine reportHere_reads.bind fun _ t _ hmt hl hr' => ?_
    exact (classLike_reads (by omega) (.mark s) hmt).last
      fun _ _ hm _ hn => hn.serve (.classBody (hm.faulty hr'.faulty))
  case h_21 h =>
    refine (acceptBeforeName_reads (h ▸ by decide)).bind fun b t _ hmt hl hb'' => ?_
    rcases hb'' with ⟨rfl, hlt⟩ | ⟨rfl, -⟩
    · exact (enumDeclaration_reads (by omega) (.mark s) hmt).mono fun _ _ hn => hn.choose (by simp)
    · exact (expressionStatement_reads (by omega)).mono fun _ _ hn => hn.after hmt nofun
  case h_22 => exact expressionStatement_reads hb

end EcmaSyntax.Grammar
