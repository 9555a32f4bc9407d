import EcmaSyntax.Proofs.Transparency

/-! # What opens an expression

Some routines look at one token to tell whether an expression follows. The tokens they let through are
listed on their own, apart from the routines that read expressions. What those routines read without
a word of complaint begins with a listed token or with one of the two that the list lacks; wherever
the list is right the routines that ask for it go on to read the expression. -/
namespace EcmaSyntax
open Parse Grammar ParseState

/-- Whether a token opens an expression in a context. -/
def Kind.opensIn (ctx : Context) (k : Kind) : Bool :=
  k.canStartExpression || k == .atToken || (k == .privateIdentifier && ctx.has .classBody)

namespace Kind
variable {k : Kind} {ctx : Context}

theorem ne_of_not_opensIn {k' : Kind} (h : k.opensIn ctx = false)
    (h' : k'.canStartExpression = true) : k ≠ k' := by
  rintro rfl
  simp [opensIn, h'] at h

theorem ne_atToken_of_not_opensIn (h : k.opensIn ctx = false) : k ≠ .atToken := by
  rintro rfl
  simp [opensIn] at h

theorem opensIn_privateIdentifier : Kind.privateIdentifier.opensIn ctx = ctx.has .classBody := rfl

theorem canStartExpression_of_admits (h : admits ctx k = true) : k.canStartExpression = true := by
  unfold admits at h
  split at h
  case h_1 | h_2 => decide
  case h_3 => simp [canStartExpression, h]

theorem not_admits_of_not_opensIn (h : k.opensIn ctx = false) : ¬ admits ctx k = true := fun ha =>
  ne_of_not_opensIn h (canStartExpression_of_admits ha) rfl

theorem not_isPrefixOperator_of_not_opensIn (h : k.opensIn ctx = false) :
    ¬ isPrefixOperator k = true := by
  intro hk
  have hlisted : k.canStartExpression = true := by
    cases k <;> first | rfl | cases hk
  exact ne_of_not_opensIn h hlisted rfl

end Kind

/-! ## Reports that are added -/

/-- Whether the last diagnostic starts at the present token, where no other one is added then. -/
def ParseState.isMuted (s : ParseState) : Bool := s.sink.last?.any (·.span.start == s.start.offset)

/-- Whether the limit of nesting has been reported and leaves no level for an operand. -/
def ParseState.isExhausted (s : ParseState) : Bool :=
  s.limitReported && decide (nestingLimit ≤ s.depth + 1)

/-- More has been reported. -/
def Adds (s t : ParseState) : Prop := s.sink.size < t.sink.size

section Reports
variable {s t u : ParseState} {α β : Type} {p : Parse α}

theorem Adds.move (h : Adds s t) (hm : Moves t u) : Adds s u := by
  have hle := hm.sink_extends.length_le
  rw [Sink.length_toList, Sink.length_toList] at hle
  exact Nat.lt_of_lt_of_le h hle

theorem Sink.size_add (sink : Sink) (d : Diagnostic) : (sink.add d).size = sink.size + 1 := by
  simp [add, size]

/-- What is reported first stays reported. -/
theorem Parse.Gives.adds_bind {f : α → Parse β} (hp : p.Gives s fun _ t => Adds s t) :
    (p >>= f).Gives s fun _ t => Adds s t :=
  hp.bind fun a _ _ h => fun _ _ hrun => h.move ((f a).moves hrun)

theorem reportHere_adds {message : Message} {argument : Option String}
    {h : message.isGrammatical = true} (hs : s.isMuted = false) :
    (reportHere message argument h).Gives s fun _ t => Adds s t := by
  intro _ t hrun
  cases hrun
  have hpush : s.push (.report s.tokenSpan message argument) =
      { s with sink := s.sink.add (.report s.tokenSpan message argument) } :=
    if_neg (Bool.eq_false_iff.mp hs)
  change s.sink.size < (s.push _).sink.size
  rw [hpush, Sink.size_add]
  exact Nat.lt_succ_self _

theorem reportHere_muted {message : Message} {argument : Option String}
    {h : message.isGrammatical = true} (hs : s.isMuted = true) :
    (reportHere message argument h).run s = some ((), s) := by
  have hpush : s.push (.report s.tokenSpan message argument) = s := if_pos hs
  exact congrArg (fun u => some ((), u)) hpush

theorem nested_adds {absent : Parse α} (hs : s.limitReported = true → s.depth < nestingLimit)
    (hp : p.Gives s.deeper fun _ t => Adds s t) :
    (nested absent p).Gives s fun _ t => Adds s t := by
  refine .look (.ite (fun _ => .deeper hp) fun hdepth => ?_)
  have hlimit : reportLimit.Gives s fun _ t => Adds s t := by
    intro _ t hrun
    cases hrun
    have hreport : s.reportLimit =
        { s with
          limitReported := true
          sink := s.sink.add (.report s.tokenSpan .nestingTooDeep) } :=
      if_neg fun h => hdepth (hs h)
    change s.sink.size < s.reportLimit.sink.size
    rw [hreport, Sink.size_add]
    exact Nat.lt_succ_self _
  exact hlimit.adds_bind

theorem reportNoIdentifier_adds (hs : s.isMuted = false) :
    reportNoIdentifier.Gives s fun _ t => Adds s t :=
  .look (.ite (fun _ => .look (reportHere_adds hs)) fun _ => reportHere_adds hs)

theorem reportNoIdentifier_muted (hs : s.isMuted = true) :
    reportNoIdentifier.run s = some ((), s) := by
  refine (run_bind_of_run (a := s.token) rfl).trans ?_
  split
  · exact (run_bind_of_run (a := s.reading.text) rfl).trans (reportHere_muted hs)
  · exact reportHere_muted hs

end Reports

/-! ## Expressions that do not open -/

/-- A token that opens no expression is left to be reported as no identifier. -/
theorem primary_run_of_not_opensIn [Recursion] {s : ParseState} {ctx : Context}
    (hk : s.token.opensIn ctx = false) (hprivate : s.token ≠ .privateIdentifier) :
    (primary ctx).run s = (identifierExpression ctx).run s := by
  refine (run_bind_of_run (a := s.token) rfl).trans ?_
  split
  case h_20 ht => exact absurd ht (Kind.ne_atToken_of_not_opensIn hk)
  case h_24 ht => exact absurd ht hprivate
  case h_25 => rfl
  all_goals exact absurd ‹_› (Kind.ne_of_not_opensIn hk (by decide))

section Routines
variable {s : ParseState} {ctx : Context} (hs : s.isMuted = false)
  (hk : s.token.opensIn ctx = false)
include hs hk

theorem identifierExpression_adds : (identifierExpression ctx).Gives s fun _ t => Adds s t := by
  have hadmits := Kind.not_admits_of_not_opensIn hk
  refine .look (.ite (fun h => absurd h hadmits) fun _ => .look (.ite (fun _ => ?_) fun _ => ?_))
  · refine .look (.ite (fun h => absurd h hadmits) fun _ => ?_)
    exact (reportNoIdentifier_adds hs).adds_bind
  · exact (reportHere_adds hs).adds_bind

theorem primary_adds [Recursion] : (primary ctx).Gives s fun _ t => Adds s t := by
  by_cases hprivate : s.token = .privateIdentifier
  · have hread : (primary ctx).run s =
        (checkPrivate ctx >>= fun _ => identifierToken).run s := by
      refine (run_bind_of_run (a := s.token) rfl).trans ?_
      rw [hprivate]
    rw [hprivate, Kind.opensIn_privateIdentifier] at hk
    have hcheck : (checkPrivate ctx).Gives s fun _ t => Adds s t := by
      unfold checkPrivate reportWhen
      rw [if_pos (by rw [hk]; rfl)]
      exact reportHere_adds hs
    exact .of_eq hread hcheck.adds_bind
  · exact .of_eq (primary_run_of_not_opensIn hk hprivate) (identifierExpression_adds hs hk)

theorem leftHandSide_adds [Recursion] : (leftHandSide ctx).Gives s fun _ t => Adds s t := by
  have hbase : (memberBase ctx).Gives s fun _ t => Adds s t := by
    refine .look (.ite (fun h => ?_) fun _ => primary_adds hs hk)
    exact absurd (eq_of_beq h) (Kind.ne_of_not_opensIn hk (by decide))
  exact .look hbase.adds_bind

theorem unary_adds [Recursion] : (unary ctx).Gives s fun _ t => Adds s t := by
  refine .look (.look (.ite (fun h => ?_) fun _ => .ite (fun h => ?_) fun _ => ?_))
  · exact absurd h (Kind.not_isPrefixOperator_of_not_opensIn hk)
  · have hawait := eq_of_beq (Bool.and_eq_true_iff.mp h).1
    exact absurd hawait (Kind.ne_of_not_opensIn hk (by decide))
  · exact (leftHandSide_adds hs hk).adds_bind

theorem assignment_adds [Recursion] (hunary : (recur (.unary ctx)).Gives s fun _ t => Adds s t) :
    (assignment ctx).Gives s fun _ t => Adds s t := by
  have hyield : s.token ≠ .yieldKeyword := Kind.ne_of_not_opensIn hk (by decide)
  have hless : s.token ≠ .lessThanToken := Kind.ne_of_not_opensIn hk (by decide)
  have hasync : s.token ≠ .asyncKeyword := Kind.ne_of_not_opensIn hk (by decide)
  have hgeneric : (genericArrow? ctx).Gives s fun answer t => answer = none ∧ t = s :=
    .of_run_eq (genericArrow?_run hless) ⟨rfl, rfl⟩
  have hstarts : (startsAsyncArrow ctx).Gives s fun b t => b = false ∧ t = s :=
    .of_run_eq (run_bind.mpr ⟨false, s, isAt_run_ne hasync, rfl⟩) ⟨rfl, rfl⟩
  have hoperand : (operand ctx .comma).Gives s fun _ t => Adds s t := .look hunary.adds_bind
  refine .look (.ite (fun h => ?_) fun _ => .look (hgeneric.bind ?_))
  · exact absurd (eq_of_beq (Bool.and_eq_true_iff.mp h).1) hyield
  rintro answer t - ⟨rfl, rfl⟩
  refine hstarts.bind ?_
  rintro b u - ⟨rfl, rfl⟩
  exact hoperand.adds_bind

theorem unary_rule_adds (hlimit : s.limitReported = true → s.depth < nestingLimit) :
    (top.recur (.unary ctx)).Gives s fun _ t => Adds s t := by
  intro n t hrun
  rw [top_run] at hrun
  exact nested_adds hlimit (@unary_adds s.deeper ctx hs hk (below _ top.recur)) hrun

theorem assignment_rule_adds (hlimit : s.isExhausted = false) :
    (top.recur (.assignment ctx)).Gives s fun _ t => Adds s t := by
  intro n t hrun
  have hlevels (h : s.limitReported = true) : s.depth + 1 < nestingLimit := by
    simpa [isExhausted, h] using hlimit
  rw [top_run] at hrun
  refine nested_adds (fun h => Nat.lt_of_succ_lt (hlevels h)) ?_ hrun
  refine @assignment_adds s.deeper ctx hs hk (below _ top.recur) fun n t hunary => ?_
  exact @unary_rule_adds s.deeper ctx hs hk hlevels n t (below_run_eq_some.mp hunary).2

end Routines

/-! ## Expressions that are missing -/

section Missing
variable {s : ParseState} {ctx : Context} (hs : s.isMuted = true)
  (hk : s.token.opensIn ctx = false)
include hs hk

/-- Where a report is not added, an identifier is missing all the same. -/
theorem identifierExpression_missing :
    (identifierExpression ctx).run s = missingIdentifier.run s := by
  have hidentifier : (isIdentifier ctx).run s = some (false, s) :=
    congrArg (fun b => some (b, s)) (Bool.eq_false_iff.mpr (Kind.not_admits_of_not_opensIn hk))
  refine (run_bind_of_run hidentifier).trans ((run_bind_of_run (a := s.token) rfl).trans ?_)
  split
  · refine (run_bind_of_run hidentifier).trans ?_
    exact run_bind_of_run (reportNoIdentifier_muted hs)
  · exact run_bind_of_run (reportHere_muted hs)

theorem primary_missing [Recursion] (hprivate : s.token ≠ .privateIdentifier) :
    (primary ctx).run s = missingIdentifier.run s :=
  (primary_run_of_not_opensIn hk hprivate).trans (identifierExpression_missing hs hk)

end Missing

/-- What is read as an expression without anything reported begins with a token that opens one,
unless no report would be added there. -/
theorem opensIn_of_assignment {s t : ParseState} {ctx : Context} {n : Node}
    (hrun : (top.recur (.assignment ctx)).run s = some (n, t)) (hsink : t.sink = s.sink)
    (hs : s.isMuted = false) (hlimit : s.isExhausted = false) : s.token.opensIn ctx = true := by
  by_contra hk
  have hadds : s.sink.size < t.sink.size :=
    assignment_rule_adds hs (Bool.eq_false_iff.mpr hk) hlimit hrun
  rw [hsink] at hadds
  exact Nat.lt_irrefl _ hadds

/-! ## Gates -/

/-- The routines that look at a token to tell whether an expression follows let the present one
through: they go on to read an argument, an element of a list between parentheses, the branch of a
conditional behind its question mark, the operand of `yield`, or a statement. -/
structure LetsThrough [Recursion] (s : ParseState) : Prop where
  argument (ctx : Context) :
    (argument ctx).run s = (some <$> recur (.assignment ctx)).run s
  element (ctx : Context) (c : Cover) :
    (coverTurn ctx c).run s = (do
      match ← recur (.coverElement ctx) with
      | none => return .done c
      | some (element, certainty) =>
        return (← afterItem .closeParenToken s.start.offset (c.listed.push element)).map
          (⟨·, certainty⟩) : Parse (Turn Cover)).run s
  branch (ctx : Context) (e : ElementStart) (condition : Node) (r : ParseState)
    (behind : r.consume .plain = s) :
    (coverConditional? ctx e condition).run r =
      (attempt (coverConditional ctx e.inner condition)).run r
  operand (ctx : Context) (r : ParseState) (behind : r.consume .plain = s)
    (sameLine : s.reading.hasPrecedingLineBreak = false) :
    (yieldExpression ctx).run r = (do
      let inner ← recur (.assignment ctx)
      node r.mark (.yield false (some inner)) : Parse Node).run s
  statement (inModule : Bool) (isEnd : Kind → Bool) (b : Body) (goesOn : isEnd s.token = false) :
    (bodyTurn inModule isEnd b).run s = (do
      let statement ← recur (.item inModule b.ctx)
      b.check statement
      ifUnmoved s.start.offset (skip .expression)
      return .again (b.push statement) : Parse (Turn Body)).run s

section Through
variable {s : ParseState}

/-- A speculation begins with a flush. -/
theorem lookAhead_run_flush {α : Type} {p : Parse α} :
    (lookAhead p).run s.flush = (lookAhead p).run s := by
  simp only [lookAhead, flush_flush]

theorem attempt_run_flush {α : Type} {p : Parse (Option α)} :
    (attempt p).run s.flush = (attempt p).run s := by
  simp only [attempt, flush_flush]

variable [Recursion] (h : s.token.canStartExpression = true)
include h

theorem argument_through (ctx : Context) :
    (argument ctx).run s = (some <$> recur (.assignment ctx)).run s := by
  have hdots : s.token ≠ .dotDotDotToken := Kind.ne_of_canStartExpression h rfl
  refine (run_bind_of_run (a := s.token) rfl).trans ?_
  rw [if_neg (by simp [hdots]), if_pos h]
  rfl

theorem coverTurn_through (ctx : Context) (c : Cover) :
    (coverTurn ctx c).run s = (do
      match ← recur (.coverElement ctx) with
      | none => return .done c
      | some (element, certainty) =>
        return (← afterItem .closeParenToken s.start.offset (c.listed.push element)).map
          (⟨·, certainty⟩) : Parse (Turn Cover)).run s := by
  have hend : (atListEnd .closeParenToken).run s = some (false, s) := by
    have hclose : s.token ≠ .closeParenToken := Kind.ne_of_canStartExpression h rfl
    have hlast : s.token ≠ .endOfFileToken := Kind.ne_of_canStartExpression h rfl
    change some ([.closeParenToken, .endOfFileToken].contains s.token, s) = _
    simp [hclose, hlast]
  refine (run_bind_of_run hend).trans ((run_bind_of_run (a := s.start.offset) rfl).trans ?_)
  refine (run_bind_of_run (a := s.token) rfl).trans ?_
  exact congrArg (fun p : Parse (Turn Cover) => p.run s) (if_pos (Kind.canStartCoverElement_of h))

omit h in
theorem coverConditional?_through (h : (s.consume .plain).token.canStartExpression = true)
    (ctx : Context) (e : ElementStart) (condition : Node) :
    (coverConditional? ctx e condition).run s =
      (attempt (coverConditional ctx e.inner condition)).run s := by
  have hnext : nextToken.run s = some ((s.consume .plain).token, s.flush) := by
    have hflush := nextToken_run (s := s.flush) flush_flush
    rw [consume_flush] at hflush
    exact lookAhead_run_flush.symm.trans hflush
  refine (run_bind_of_run hnext).trans ?_
  rw [if_pos (Kind.mayOpenBranch_of h), attempt_run_flush]

omit h in
theorem yieldExpression_through (h : (s.consume .plain).token.canStartExpression = true)
    (ctx : Context) (hline : (s.consume .plain).reading.hasPrecedingLineBreak = false) :
    (yieldExpression ctx).run s = (do
      let inner ← recur (.assignment ctx)
      node s.mark (.yield false (some inner)) : Parse Node).run (s.consume .plain) := by
  have hasterisk : (s.consume .plain).token ≠ .asteriskToken := Kind.ne_of_canStartExpression h rfl
  refine (run_bind_of_run (a := s.mark) (t := s) rfl).trans ?_
  refine (run_bind_of_run (a := ()) (t := s.consume .plain) rfl).trans ?_
  refine (run_bind_of_run (a := (s.consume .plain).token) rfl).trans ?_
  refine (run_bind_of_run (a := (s.consume .plain).reading.hasPrecedingLineBreak) rfl).trans ?_
  rw [if_pos (by simp [hline, h])]
  exact run_bind_of_run (accept_run_ne hasterisk)

theorem bodyTurn_through (inModule : Bool) (isEnd : Kind → Bool) (b : Body)
    (goesOn : isEnd s.token = false) :
    (bodyTurn inModule isEnd b).run s = (do
      let statement ← recur (.item inModule b.ctx)
      b.check statement
      ifUnmoved s.start.offset (skip .expression)
      return .again (b.push statement) : Parse (Turn Body)).run s := by
  have hlast : s.token ≠ .endOfFileToken := Kind.ne_of_canStartExpression h rfl
  have hstart : s.token.canStartStatement = true := by simp [Kind.canStartStatement, h]
  refine (run_bind_of_run (a := s.token) (t := s) rfl).trans ?_
  rw [if_neg (by simp [hlast, goesOn]), if_pos hstart]
  rfl

end Through

theorem LetsThrough.of_canStartExpression [Recursion] {s : ParseState}
    (h : s.token.canStartExpression = true) : LetsThrough s where
  argument := argument_through h
  element := coverTurn_through h
  branch ctx e condition r behind := by
    subst behind
    exact coverConditional?_through h ctx e condition
  operand ctx r behind sameLine := by
    subst behind
    exact yieldExpression_through h ctx sameLine
  statement := bodyTurn_through h

/-! ## The list of tokens that open an expression -/

/-- What is read as an expression without anything added to the diagnostics begins with a token of
the list, so that every routine that asks for the list lets it through, or with a decorator, or with
a private name, which the list lacks. It may also be that no expression begins there: where the last
diagnostic starts at the same token, an operand can be missing without another one, and behind the
limit of nesting, once it has been reported, nothing is read. -/
theorem assignment_opens_listed {s t : ParseState} {ctx : Context} {n : Node}
    (hrun : (top.recur (.assignment ctx)).run s = some (n, t)) (hsink : t.sink = s.sink) :
    (s.token.canStartExpression = true ∧ ∀ R : Recursion, @LetsThrough R s) ∨
      s.token = .atToken ∨
      (s.token = .privateIdentifier ∧ (ctx.has .classBody = true ∨ s.isMuted = true)) ∨
      (s.isMuted = true ∧ ∀ R : Recursion, (@primary R ctx).run s = missingIdentifier.run s) ∨
      s.isExhausted = true := by
  by_cases hlimit : s.isExhausted = true
  · exact .inr (.inr (.inr (.inr hlimit)))
  by_cases hopens : s.token.opensIn ctx = true
  · simp only [Kind.opensIn, Bool.or_eq_true, Bool.and_eq_true, beq_iff_eq] at hopens
    rcases hopens with (hlisted | hat) | ⟨hprivate, hclass⟩
    · exact .inl ⟨hlisted, fun R => @LetsThrough.of_canStartExpression R s hlisted⟩
    · exact .inr (.inl hat)
    · exact .inr (.inr (.inl ⟨hprivate, .inl hclass⟩))
  have hmuted : s.isMuted = true := by
    by_contra hs
    exact hopens (opensIn_of_assignment hrun hsink (Bool.eq_false_iff.mpr hs)
      (Bool.eq_false_iff.mpr hlimit))
  by_cases hprivate : s.token = .privateIdentifier
  · exact .inr (.inr (.inl ⟨hprivate, .inr hmuted⟩))
  · have hk := Bool.eq_false_iff.mpr hopens
    exact .inr (.inr (.inr (.inl ⟨hmuted, fun R => @primary_missing s ctx hmuted hk R hprivate⟩)))

/-- The type parameters of an arrow function begin with a token of the list. -/
theorem genericArrow_opens_listed :
    let s := ParseState.firstToken "<T>(x: T) => x;".toList
    ∃ n t, (top.recur (.assignment {})).run s = some (n, t) ∧ t.sink = s.sink ∧
      n.isArrowFunction = true ∧
        s.token.canStartExpression = true ∧ ∀ R : Recursion, @LetsThrough R s := by
  intro s
  have hread : ((top.recur (.assignment {})).run s).any (fun a =>
      a.2.sink == s.sink && a.1.isArrowFunction) = true := by
    decide +kernel
  obtain ⟨⟨n, t⟩, hrun, hread⟩ := (Option.any_eq_true _ _).mp hread
  obtain ⟨hsink, harrow⟩ := (Bool.and_eq_true _ _).mp hread
  have hsink : t.sink = s.sink := eq_of_beq hsink
  refine ⟨n, t, hrun, hsink, harrow, ?_⟩
  rcases assignment_opens_listed hrun hsink with hlisted | hat | ⟨hprivate, -⟩ | ⟨hmuted, -⟩ | hlimit
  · exact hlisted
  · exact absurd hat (by decide +kernel)
  · exact absurd hprivate (by decide +kernel)
  · exact absurd hmuted (by decide +kernel)
  · exact absurd hlimit (by decide +kernel)

/-- A decorated class is read as an expression, and kept out of a list of arguments. -/
theorem decoratedClass_kept_out :
    let s := ParseState.firstToken "@d class {};".toList
    ((top.recur (.assignment {})).run s).any (fun a =>
        a.2.sink == s.sink && decide (a.2.left < s.left)) = true ∧
      s.token.canStartExpression = false ∧ s.isMuted = false ∧ s.isExhausted = false ∧
      (parse "x = @d class {};" {}).diagnostics = ∅ ∧
      (parse "f(@d class {});" {}).diagnostics.toList.head?.any (·.isOf .argumentExpected) = true := by
  decide +kernel

end EcmaSyntax
