import EcmaSyntax.Proofs.Extents
import EcmaSyntax.Proofs.Parse.Clean
import EcmaSyntax.Proofs.Termination

/-! # Operands and elements

What stands between the parentheses of a statement is read as operands of the comma operator; what
stands between parentheses in an expression is read as elements that may turn out to be parameters.
An element has a grammar of its own, which follows that of an operand as long as nothing begins like
a parameter. -/
namespace EcmaSyntax
open Parse Grammar ParseState

/-! ## Contexts -/

theorem FlagSet.testBit_ofList {α : Type} [FlagFamily α] (as : List α) (i : Nat) :
    (FlagSet.ofList as).bits.testBit i = as.any (FlagFamily.bit · == i) := by
  have hfold (s : FlagSet α) :
      (as.foldl (fun s a => s ∪ .one a) s).bits.testBit i =
        (s.bits.testBit i || as.any (FlagFamily.bit · == i)) := by
    induction as generalizing s with
    | nil => simp
    | cons a as ih =>
      simp only [List.foldl_cons, ih, bits_union, Nat.testBit_or, List.any_cons, Bool.or_assoc]
      congr 2
      simp [FlagSet.one, Nat.one_shiftLeft, Nat.testBit_two_pow, Bool.beq_eq_decide_eq]
  simpa [FlagSet.ofList] using hfold ∅

/-- Taking modes away that are not there changes nothing. -/
theorem Context.excluding_eq_self {ctx : Context} {modes : List Mode}
    (h : ∀ m ∈ modes, ctx.has m = false) : ctx.excluding modes = ctx := by
  obtain ⟨bits⟩ := ctx
  refine congrArg FlagSet.mk (Nat.eq_of_testBit_eq fun i => ?_)
  rw [Nat.testBit_xor, Nat.testBit_and, FlagSet.testBit_ofList]
  cases hany : modes.any (FlagFamily.bit · == i) with
  | false => simp
  | true =>
    obtain ⟨m, hm, hbit⟩ := List.any_eq_true.mp hany
    have hmissing : bits.testBit i = false := eq_of_beq hbit ▸ h m hm
    simp [hmissing]

/-! ## Lines -/

section Lines
variable {s t : ParseState} {kind : Kind}

theorem isAt_run (h : s.token = kind) : (isAt kind).run s = some (true, s) :=
  congrArg (fun b => some (b, s)) (beq_iff_eq.mpr h)

theorem isAt_run_ne (h : s.token ≠ kind) : (isAt kind).run s = some (false, s) :=
  congrArg (fun b => some (b, s)) (beq_eq_false_iff_ne.mpr h)

theorem accept_run (h : s.token = kind) : (accept kind).run s = some (true, s.consume .plain) :=
  run_bind.mpr ⟨true, s, isAt_run h, rfl⟩

theorem accept_run_ne (h : s.token ≠ kind) : (accept kind).run s = some (false, s) :=
  run_bind.mpr ⟨false, s, isAt_run_ne h, rfl⟩

theorem expect_run (h : s.token = kind) : (expect kind).run s = some (true, s.consume .plain) :=
  run_bind.mpr ⟨true, _, accept_run h, rfl⟩

/-- Where a token is expected, it is there or it is reported. -/
theorem expect_gives : (expect kind).Gives s fun b t =>
    t.Faulty ∨ b = true ∧ s.token = kind ∧ t = s.consume .plain := by
  by_cases h : s.token = kind
  · intro b t hrun
    rw [expect_run h] at hrun
    cases hrun
    exact .inr ⟨rfl, h, rfl⟩
  · intro b t hrun
    obtain ⟨_, u, haccept, hrun⟩ := run_bind.mp hrun
    rw [accept_run_ne h] at haccept
    cases haccept
    obtain ⟨_, v, hreport, hrun⟩ := run_bind.mp hrun
    cases hrun
    exact .inl (reportHere_faulty hreport)

theorem lookAhead_run {α : Type} {p : Parse α} {a : α} (h : s.flush = s)
    (hp : p.run s = some (a, t)) : (lookAhead p).run s = some (a, s) := by
  have hrewind : t.rewind s.checkpoint = s := by
    have hm := p.moves hp
    rw [← h] at hm ⊢
    exact hm.rewind_flush
  refine Option.map_eq_some_iff.mpr ⟨(a, t), h.symm ▸ hp, ?_⟩
  rw [h]
  exact congrArg (Prod.mk a) hrewind

theorem nextIs_run {p : Parse Bool} {b : Bool} (h : s.flush = s)
    (hp : p.run (s.consume .plain) = some (b, t)) : (nextIs p).run s = some (b, s) :=
  lookAhead_run h (run_bind.mpr ⟨(), _, rfl, hp⟩)

theorem nextToken_run (h : s.flush = s) :
    nextToken.run s = some ((s.consume .plain).token, s) :=
  lookAhead_run (t := s.consume .plain) h rfl

theorem attempt_run {α : Type} {p : Parse (Option α)} {a : α} (h : s.flush = s)
    (hp : p.run s = some (some a, t)) : (attempt p).run s = some (some a, t) := by
  change (p.run s.flush).map _ = _
  rw [h, hp]
  rfl

end Lines

/-! ## Conditionals behind a name or a pattern -/

section Elements
variable [Recursion] {ctx : Context} {m : Mark} {n left : Node} {s t : ParseState}

/-- A conditional is one behind a name or a pattern too. -/
theorem coverConditional_run (hin : ctx.has .withoutIn = false) (hs : s.token = .questionToken)
    (hclean : t.sink = ∅) (hrun : (conditionalRest ctx m left).run s = some (n, t)) :
    (coverConditional ctx m left).run s = some (some n, t) := by
  obtain ⟨_, u, hadvance, hrun⟩ := run_bind.mp hrun
  cases hadvance
  obtain ⟨whenTrue, v, htrue, hrun⟩ := run_bind.mp hrun
  obtain ⟨whenFalse, w, hfalse, hrun⟩ := run_bind.mp hrun
  cases hrun
  obtain ⟨b, x, hcolon, hfalse⟩ := run_bind.mp hfalse
  have hmoves := Parse.moves _ hfalse
  rcases expect_gives hcolon with hf | ⟨rfl, htoken, rfl⟩
  · exact absurd hclean (hmoves.faulty hf)
  have hbranch : (ctx.including [.conditionalBranch]).excluding [.withoutIn] =
      ctx.including [.conditionalBranch] := Context.excluding_eq_self (by simp [hin])
  rw [hbranch] at htrue
  refine run_bind.mpr ⟨true, _, expect_run hs, ?_⟩
  refine run_bind.mpr ⟨whenTrue, v, htrue, ?_⟩
  refine run_bind.mpr ⟨true, _, accept_run htoken, ?_⟩
  exact run_bind.mpr ⟨whenFalse, t, hfalse, rfl⟩

/-! ## Elements -/

/-- An operand behind which nothing more follows. -/
theorem assignmentRest_done (hleft : left.isArrowParameters = false)
    (harrow : s.token ≠ .equalsGreaterThanToken) (hassign : s.token.isAssignmentOperator = false)
    (hquestion : s.token ≠ .questionToken) :
    (assignmentRest ctx m left).run s = some (left, s) := by
  refine run_bind.mpr ⟨s.token, s, rfl, ?_⟩
  rw [if_neg (by simp [harrow]), if_neg (by simp [hleft]), if_neg (by simp [hassign]),
    if_neg (by simp [hquestion])]
  rfl

theorem assignmentRest_question (hleft : left.isArrowParameters = false)
    (hs : s.token = .questionToken) (hrun : (assignmentRest ctx m left).run s = some (n, t)) :
    (conditionalRest ctx m left).run s = some (n, t) := by
  obtain ⟨_, _, hk, hrun⟩ := run_bind.mp hrun
  cases hk
  have hassign : s.token.isAssignmentOperator = false := hs ▸ rfl
  dsimp only at hrun
  rwa [if_neg (by simp [hs]), if_neg (by simp [hleft]), if_neg (by simp [hassign]),
    if_pos (by simp [hs])] at hrun

omit [Recursion] in
theorem argumentOf_run : (argumentOf ⟨m, none⟩ n).run s = some (n, s) := by
  unfold argumentOf
  rw [if_neg (by simp [ElementStart.isRest])]
  rfl

omit [Recursion] in
theorem argumentOf_rest_run {operand : Mark} : (argumentOf ⟨m, some operand⟩ n).run s =
    some (.mk (s.header m) (.spread n), s) := by
  unfold argumentOf
  rw [if_pos (by simp [ElementStart.isRest])]
  rfl

/-- What stands behind a name or a pattern that is spread. Before an equals sign or an arrow, and at
the end of the parameters of an arrow function, it would be a parameter. -/
structure ParseState.Spreads (s t : ParseState) : Prop where
  not_assigned : s.token ≠ .equalsToken
  not_arrow : s.token ≠ .equalsGreaterThanToken
  not_closing : t.token = .closeParenToken →
    t.flush = t ∧ (t.consume .plain).token ≠ .equalsGreaterThanToken

/-- A name or a pattern as an element, where it is the leftmost operand of an assignment. -/
theorem bindingElement_run {e : ElementStart} {value : Node} [s.Ready]
    (hin : ctx.has .withoutIn = false) (hpattern : left.isIdentifierOrPattern = true)
    (hclean : t.sink = ∅) (hend : t.token = .commaToken ∨ t.token = .closeParenToken)
    (hbranch : s.token = .questionToken → mayOpenBranch (s.consume .plain).token = true)
    (hspreads : e.isRest = true → s.Spreads t) (hvalue : (argumentOf e n).run t = some (value, t))
    (hrun : (assignmentRest ctx e.inner left).run s = some (n, t)) :
    ∃ c, (bindingElement ctx e left).run s = some ((value, c), t) := by
  have hleft := Node.isArrowParameters_of_pattern hpattern
  have hargument : (do return (← argumentOf e n, .no) : Parse (Node × Certainty)).run t =
      some ((value, .no), t) := run_bind.mpr ⟨value, t, hvalue, rfl⟩
  have hplain (he : e.isRest = false) (c : Certainty) :
      (do return (← assignmentRest ctx e.m left, c) : Parse (Node × Certainty)).run s =
        some ((value, c), t) := by
    obtain ⟨m, _ | _⟩ := e
    · cases hvalue
      exact run_bind.mpr ⟨n, t, hrun, rfl⟩
    · cases he
  have hdone (harrow : s.token ≠ .equalsGreaterThanToken)
      (hassign : s.token.isAssignmentOperator = false) (hquestion : s.token ≠ .questionToken) :
      n = left ∧ t = s := by
    rw [assignmentRest_done hleft harrow hassign hquestion] at hrun
    cases hrun
    exact ⟨rfl, rfl⟩
  refine Exists.imp (fun c h => run_bind.mpr ⟨s.token, s, rfl, h⟩) ?_
  split
  case h_1 hquestion =>
    have hconditional := assignmentRest_question hleft hquestion hrun
    have hflush : s.flush = s := by
      obtain ⟨_, u, hadvance, hrest⟩ := run_bind.mp hconditional
      cases hadvance
      exact flush_eq_of_consume (by simp [hquestion]) (Parse.moves _ hrest) hclean
    refine ⟨.no, run_bind.mpr ⟨some n, t, ?_, hargument⟩⟩
    refine run_bind.mpr ⟨_, s, nextToken_run hflush, ?_⟩
    rw [if_pos (hbranch hquestion)]
    exact attempt_run hflush (coverConditional_run hin hquestion hclean hconditional)
  case h_2 hcolon =>
    obtain ⟨-, rfl⟩ := hdone (by simp [hcolon]) (hcolon ▸ rfl) (by simp [hcolon])
    simp [hcolon] at hend
  case h_3 hassign he => exact absurd hassign (hspreads he).not_assigned
  case h_4 he => exact ⟨_, hplain he _⟩
  case h_5 he => exact ⟨_, hplain he _⟩
  case h_6 hquestion _ _ _ harrow =>
    by_cases hassign : s.token.isAssignmentOperator = true
    · rw [if_pos hassign]
      exact ⟨.no, run_bind.mpr ⟨n, t, hrun, hargument⟩⟩
    · rw [if_neg hassign]
      have harrow : s.token ≠ .equalsGreaterThanToken := fun heq => by
        cases he : e.isRest with
        | false => exact harrow heq he
        | true => exact (hspreads he).not_arrow heq
      obtain ⟨rfl, rfl⟩ := hdone harrow (Bool.eq_false_iff.mpr hassign) hquestion
      have hcloses : (closesParameters e t.token).run t = some (false, t) := by
        refine run_bind.mpr ⟨e.isRest && t.token == .closeParenToken, t, rfl, ?_⟩
        by_cases hclosing : (e.isRest && t.token == .closeParenToken) = true
        · obtain ⟨he, htoken⟩ := (Bool.and_eq_true _ _).mp hclosing
          obtain ⟨hflush, hnext⟩ := (hspreads he).not_closing (eq_of_beq htoken)
          rw [hclosing]
          exact nextIs_run hflush (isAt_run_ne hnext)
        · rw [Bool.eq_false_iff.mpr hclosing]
          rfl
      refine ⟨.unknown, run_bind.mpr ⟨false, t, hcloses, ?_⟩⟩
      exact run_bind.mpr ⟨value, t, hvalue, rfl⟩

end Elements

/-! ## Levels -/

section Levels
variable {α : Type} {absent p : Parse α} {a : α} {s t : ParseState}

/-- What is read one level deeper without a diagnostic. -/
theorem nested_clean [s.Ready] (hclean : t.sink = ∅)
    (hrun : (nested absent p).run s = some (a, t)) :
    s.depth < nestingLimit ∧ ∃ u, p.run s.deeper = some (a, u) ∧ t = u.shallower := by
  obtain ⟨_, _, hdepth, hrun⟩ := run_bind.mp hrun
  cases hdepth
  by_cases h : s.depth < nestingLimit
  · rw [if_pos h] at hrun
    exact deeper_run_eq_some.mp hrun
  · rw [if_neg h] at hrun
    obtain ⟨_, u, hlimit, hrest⟩ := run_bind.mp hrun
    cases hlimit
    exact absurd hclean ((Parse.moves _ hrest).faulty s.reportLimit_faulty)

theorem nested_run {u : ParseState} (h : s.depth < nestingLimit)
    (hp : p.run s.deeper = some (a, u)) : (nested absent p).run s = some (a, u.shallower) := by
  refine run_bind.mpr ⟨s.depth, s, rfl, ?_⟩
  rw [if_pos h]
  exact deeper_run_eq_some.mpr ⟨h, u, hp, rfl⟩

end Levels

/-! ## Operands of the comma operator -/

/-- Tokens that begin an expression, but no element of a list between parentheses. -/
def Kind.isGated (k : Kind) : Bool := k == .atToken || k == .privateIdentifier

namespace Kind
variable {k : Kind}

theorem canStartExpression_of_begins (h : k.beginsExpression = true) (hg : k.isGated = false) :
    k.canStartExpression = true := by
  have hg : (k == .atToken || k == .privateIdentifier) = false := hg
  simpa [beginsExpression, Bool.or_assoc, hg] using h

theorem canStartCoverElement_of (h : k.canStartExpression = true) :
    k.canStartCoverElement = true := by
  unfold canStartCoverElement
  split
  · rfl
  · rfl
  · exact h

theorem ne_of_canStartCoverElement {k' : Kind} (h : k.canStartCoverElement = true)
    (h' : k'.canStartCoverElement = false) : k ≠ k' := by
  rintro rfl
  exact Bool.noConfusion (h.symm.trans h')

theorem ne_of_canStartExpression {k' : Kind} (h : k.canStartExpression = true)
    (h' : k'.canStartExpression = false) : k ≠ k' := by
  rintro rfl
  exact Bool.noConfusion (h.symm.trans h')

theorem mayOpenBranch_of (h : k.canStartExpression = true) : mayOpenBranch k = true := by
  unfold mayOpenBranch
  split
  case h_1 | h_2 | h_3 | h_4 => cases h
  case h_5 => exact h

end Kind

/-- Whether the present token is a modifier of a parameter that follows on the same line. -/
def ParseState.startsParameter (s : ParseState) : Bool :=
  s.token.isAccessModifier && (!(s.consume .plain).reading.hasPrecedingLineBreak &&
    (s.consume .plain).token.isIdentifierOrPatternStart)

section Operands
variable {ctx : Context} {s t : ParseState} {n : Node}

theorem startsParameter_run (hflush : s.flush = s) :
    (tokenIs Kind.isAccessModifier <&&> nextIs isBeforeBinding).run s =
      some (s.startsParameter, s) := by
  have hnext : (nextIs isBeforeBinding).run s =
      some (!(s.consume .plain).reading.hasPrecedingLineBreak &&
        (s.consume .plain).token.isIdentifierOrPatternStart, s) :=
    nextIs_run (t := s.consume .plain) hflush rfl
  refine run_bind.mpr ⟨s.token.isAccessModifier, s, rfl, ?_⟩
  unfold ParseState.startsParameter
  cases s.token.isAccessModifier with
  | false => rfl
  | true => exact hnext

theorem startsArgument_still (hflush : s.flush = s) :
    (startsArgument ctx).Gives s fun _ t => t = s := by
  have hasync : (startsAsyncArrow ctx).Gives s fun _ t => t = s := by
    refine .look ?_
    cases s.token == .asyncKeyword with
    | false => exact .pure rfl
    | true => exact Gives.lookAhead.mono fun _ _ _ h => h.trans hflush
  refine .look ?_
  split
  case h_1 | h_2 => exact .pure rfl
  case h_3 => exact hasync

variable [Recursion]

theorem genericArrow?_none (hflush : s.flush = s) :
    (genericArrow? ctx).Gives s fun answer t => answer = none → t = s := by
  have hmay : (mayOpenTypeParameters ctx).Gives s fun _ t => t = s :=
    .ite (fun _ => Gives.lookAhead.mono fun _ _ _ h => h.trans hflush) fun _ => .pure rfl
  have htest : (isAt .lessThanToken <&&> mayOpenTypeParameters ctx).Gives s fun _ t => t = s := by
    refine .look ?_
    cases s.token == .lessThanToken with
    | false => exact .pure rfl
    | true => exact hmay
  refine htest.bind fun b t _ ht => ?_
  subst ht
  exact .ite (fun _ => Gives.attempt.mono fun _ _ _ h hnone => (h hnone).trans hflush)
    fun _ => .pure fun _ => rfl

theorem arrowFunction_isArrowFunction {m : Mark} {isAsync : Bool} {parameters : Node} :
    (arrowFunction ctx m isAsync parameters).Gives s fun n _ => n.isArrowFunction = true :=
  .behind fun _ _ _ => .behind fun _ _ _ => .observe rfl

omit [Recursion] in
/-- What begins an argument begins an assignment that has no leftmost operand. -/
theorem startsArgument_false (hrun : (startsArgument ctx).run s = some (false, t)) :
    (s.token = .yieldKeyword → ctx.has .yieldOperator = false) ∧
      (s.token = .lessThanToken → ctx.has .jsx = true) ∧
        (startsAsyncArrow ctx).run s = some (false, t) := by
  have hasync (h : s.token ≠ .asyncKeyword) : (startsAsyncArrow ctx).run s = some (false, s) := by
    exact run_bind.mpr ⟨false, s, isAt_run_ne h, rfl⟩
  obtain ⟨_, _, hk, hrun⟩ := run_bind.mp hrun
  cases hk
  dsimp only at hrun
  split at hrun
  case h_1 h =>
    obtain ⟨hyield, rfl⟩ := Prod.mk.inj (Option.some.inj hrun)
    exact ⟨fun _ => hyield, fun h' => absurd (h.symm.trans h') (by decide), hasync (by simp [h])⟩
  case h_2 h =>
    obtain ⟨hjsx, rfl⟩ := Prod.mk.inj (Option.some.inj hrun)
    exact ⟨fun h' => absurd (h.symm.trans h') (by decide), fun _ => (Bool.not_eq_false' _).mp hjsx,
      hasync (by simp [h])⟩
  case h_3 hyield hless => exact ⟨fun h => absurd h hyield, fun h => absurd h hless, hrun⟩

/-- An assignment that begins with its leftmost operand. -/
theorem operand_of_assignment [s.Ready] (hflush : s.flush = s)
    (hstarts : (startsArgument ctx).run s = some (false, s))
    (hgeneric : ctx.has .jsx = true → s.token = .lessThanToken → n.isArrowFunction = false)
    (hrun : (assignment ctx).run s = some (n, t)) :
    ∃ left u, (operand ctx .comma).run s = some (left, u) ∧
      (assignmentRest ctx s.mark left).run u = some (n, t) := by
  obtain ⟨hyield, hjsx, hasync⟩ := startsArgument_false hstarts
  obtain ⟨_, _, hk, hrun⟩ := run_bind.mp hrun
  cases hk
  rw [if_neg fun h => by simp_all] at hrun
  obtain ⟨_, _, hk, hrun⟩ := run_bind.mp hrun
  cases hk
  obtain ⟨answer, u, hanswer, hrun⟩ := run_bind.mp hrun
  cases answer with
  | some parameters =>
    have htoken := (genericArrow?_still hanswer).2 rfl
    have harrow : n.isArrowFunction = true := arrowFunction_isArrowFunction hrun
    exact absurd harrow (by simp [hgeneric (hjsx htoken) htoken])
  | none =>
    obtain rfl := genericArrow?_none hflush hanswer rfl
    obtain ⟨b, v, hb, hrun⟩ := run_bind.mp hrun
    rw [hasync] at hb
    cases hb
    obtain ⟨left, w, hleft, hrest⟩ := run_bind.mp hrun
    exact ⟨left, w, hleft, hrest⟩

/-- What begins an expression and no parameter is an argument, or an element by its leftmost
operand. -/
theorem coverElement_of {b : Bool} {a : Node × Certainty} (hflush : s.flush = s)
    (hstart : s.token.canStartExpression = true) (hparameter : s.startsParameter = false)
    (hstarts : (startsArgument ctx).run s = some (b, s))
    (hrun : (if b = true then (do return (← recur (.assignment ctx), .no))
      else plainElement ctx ⟨s.mark, none⟩ : Parse (Node × Certainty)).run s = some (a, t)) :
    (coverElement ctx).run s = some (a, t) := by
  have hcomma : s.token ≠ .commaToken := Kind.ne_of_canStartExpression hstart rfl
  have hdots : s.token ≠ .dotDotDotToken := Kind.ne_of_canStartExpression hstart rfl
  have hmodifier := startsParameter_run hflush
  rw [hparameter] at hmodifier
  refine run_bind.mpr ⟨s.mark, s, rfl, run_bind.mpr ⟨s.token, s, rfl, ?_⟩⟩
  rw [if_neg (by simp [hcomma])]
  refine run_bind.mpr ⟨false, s, hmodifier, ?_⟩
  rw [if_neg Bool.false_ne_true, if_neg (by simp [hdots])]
  exact run_bind.mpr ⟨b, s, hstarts, hrun⟩

/-- An assignment as an element, by its leftmost operand. -/
theorem plainElement_run {e : ElementStart} {left value : Node} {u : ParseState} [hs : s.Ready]
    (hin : ctx.has .withoutIn = false) (hclean : t.sink = ∅)
    (hend : t.token = .commaToken ∨ t.token = .closeParenToken)
    (hbranch : left.isIdentifierOrPattern = true → u.token = .questionToken →
      mayOpenBranch (u.consume .plain).token = true)
    (hspreads : left.isIdentifierOrPattern = true → e.isRest = true → u.Spreads t)
    (hvalue : (argumentOf e n).run t = some (value, t))
    (hleft : (operand ctx .comma).run s = some (left, u))
    (hrest : (assignmentRest ctx e.inner left).run u = some (n, t)) :
    ∃ c, (plainElement ctx e).run s = some ((value, c), t) := by
  by_cases hpattern : left.isIdentifierOrPattern = true
  · have := (Parse.moves _ hleft).ready hs
    obtain ⟨c, h⟩ := bindingElement_run hin hpattern hclean hend (hbranch hpattern)
      (hspreads hpattern) hvalue hrest
    refine ⟨c, run_bind.mpr ⟨left, u, hleft, ?_⟩⟩
    rwa [if_pos hpattern]
  · refine ⟨.no, run_bind.mpr ⟨left, u, hleft, ?_⟩⟩
    rw [if_neg hpattern]
    exact run_bind.mpr ⟨n, t, hrest, run_bind.mpr ⟨value, t, hvalue, rfl⟩⟩

end Operands

/-- An operand of the comma operator that is no other between parentheses. -/
structure Coverable (ctx : Context) (s : ParseState) : Prop where
  /-- It begins with neither a decorator nor a private name. -/
  not_gated : s.token.isGated = false
  /-- It does not begin like a parameter with a modifier. -/
  not_parameter : s.startsParameter = false
  /-- Where elements are read, it is no arrow function with type parameters. -/
  not_generic : ctx.has .jsx = true → s.token = .lessThanToken → ∀ n t,
    (top.recur (.assignment ctx)).run s = some (n, t) → n.isArrowFunction = false
  /-- If it is a conditional behind a name or a pattern, its first branch begins with neither a
  decorator nor a private name. -/
  not_gated_branch : ∀ left t, (@operand top ctx .comma).run s.deeper = some (left, t) →
    left.isIdentifierOrPattern = true → t.token = .questionToken →
      (t.consume .plain).token.isGated = false
  /-- If it can be nothing but an argument, it may be read one level deeper. -/
  deeper : ∀ t, (startsArgument ctx).run s.deeper = some (true, t) → ∀ n u,
    (top.recur (.assignment ctx)).run s = some (n, u) →
      (top.recur (.assignment ctx)).run s.deeper = some (n, u.deeper)

theorem ParseState.shallower_deeper {s : ParseState} (h : 0 < s.depth) :
    s.shallower.deeper = s := by
  obtain ⟨scanner, sink, depth, limitReported⟩ := s
  exact congrArg (ParseState.mk scanner sink · limitReported) (Nat.sub_add_cancel h)

section Cover
variable {ctx : Context} {s t : ParseState} {n : Node}

/-- An operand that is read without a diagnostic consumes a token. -/
theorem assignment_consumes [s.Ready] (hclean : t.sink = ∅)
    (hrun : (top.recur (.assignment ctx)).run s = some (n, t)) : t.left < s.left := by
  let _ := top
  have := top_lawful (s.left * 8 + 5)
  exact ((assignment_rule (Nat.le_refl _)).of_run hrun).fruits.resolve_right (not_faulty hclean)

/-- An operand that is read without a diagnostic begins like an element. -/
theorem Coverable.starts [s.Ready] (hcover : Coverable ctx s) (hclean : t.sink = ∅)
    (hrun : (top.recur (.assignment ctx)).run s = some (n, t)) :
    s.token.canStartExpression = true :=
  Kind.canStartExpression_of_begins
    ((assignment_rule_extent hrun).2.resolve_left (not_faulty hclean)) hcover.not_gated

theorem below_assignment_opens {W : Nat} {c : Context} [s.Ready] (hclean : t.sink = ∅)
    (hrun : ((below W top.recur).recur (.assignment c)).run s = some (n, t)) :
    s.token.beginsExpression = true :=
  (assignment_rule_extent (below_run_eq_some.mp hrun).2).2.resolve_left (not_faulty hclean)

/-- What stands behind the question mark of a conditional begins an expression. -/
theorem branch_begins {W : Nat} {m : Mark} {left : Node} [s.Ready]
    (hleft : left.isArrowParameters = false) (hs : s.token = .questionToken) (hclean : t.sink = ∅)
    (hrun : (@assignmentRest (below W top.recur) ctx m left).run s = some (n, t)) :
    (s.consume .plain).token.beginsExpression = true := by
  have hconditional := @assignmentRest_question (below W top.recur) _ _ _ _ _ _ hleft hs hrun
  obtain ⟨_, u, hadvance, hrun⟩ := run_bind.mp hconditional
  cases hadvance
  obtain ⟨whenTrue, v, htrue, hrun⟩ := run_bind.mp hrun
  exact below_assignment_opens ((Parse.moves _ hrun).sink_eq_empty hclean) htrue

/-- What can be nothing but an argument, one level deeper. -/
theorem argument_run {u : ParseState} (hcover : Coverable ctx s)
    (hstarts : (startsArgument ctx).run s.deeper = some (true, s.deeper)) (hdepth : 0 < u.depth)
    (hrun : (top.recur (.assignment ctx)).run s = some (n, u.shallower)) :
    ((below (s.left * 8 + 5) top.recur).recur (.assignment ctx)).run s.deeper = some (n, u) := by
  have hdeeper := hcover.deeper _ hstarts n _ hrun
  rw [shallower_deeper hdepth] at hdeeper
  exact (below_run (Nat.lt_succ_self _)).trans hdeeper

/-- What begins with its leftmost operand, read with the bound of an element. -/
theorem operandElement_run {bound : Nat} {e : ElementStart} {value : Node} [s.Ready]
    (hin : ctx.has .withoutIn = false) (hclean : t.sink = ∅)
    (hend : t.token = .commaToken ∨ t.token = .closeParenToken) (hflush : s.flush = s)
    (hstarts : (startsArgument ctx).run s = some (false, s))
    (hgeneric : ctx.has .jsx = true → s.token = .lessThanToken → n.isArrowFunction = false)
    (hgated : ∀ left u, (@operand top ctx .comma).run s = some (left, u) →
      left.isIdentifierOrPattern = true → u.token = .questionToken →
        (u.consume .plain).token.isGated = false)
    (hspreads : ∀ left u, (@operand top ctx .comma).run s = some (left, u) →
      left.isIdentifierOrPattern = true → e.isRest = true → u.Spreads t)
    (hinner : e.inner = s.mark) (hvalue : (argumentOf e n).run t = some (value, t))
    (hbound : s.left * 8 + 4 ≤ bound)
    (hrun : (@assignment (below (s.left * 8 + 4) top.recur) ctx).run s = some (n, t)) :
    ∃ c, (@plainElement (below bound top.recur) ctx e).run s = some ((value, c), t) := by
  obtain ⟨left, u, hleft, hrest⟩ := @operand_of_assignment _ _ _ _
    (below (s.left * 8 + 4) top.recur) _ hflush hstarts hgeneric hrun
  have hagrees : (below (s.left * 8 + 4) top.recur).Agrees (below bound top.recur) :=
    below_agrees hbound
  have htop := operand_agrees (below_agrees_top _) _ hleft
  refine @plainElement_run _ _ _ _ (below bound top.recur) e left value u _ hin hclean hend
    (fun hpattern hquestion => ?_) (hspreads left u htop) hvalue (operand_agrees hagrees _ hleft)
    (hinner ▸ assignmentRest_agrees hagrees hrest)
  have := (Parse.moves _ hleft).ready inferInstance
  have hbegins := branch_begins (Node.isArrowParameters_of_pattern hpattern) hquestion hclean hrest
  exact Kind.mayOpenBranch_of
    (Kind.canStartExpression_of_begins hbegins (hgated left u htop hpattern hquestion))

/-- An operand of the comma operator is an element of a list between parentheses, and the same
node. -/
theorem coverElement_run [s.Ready] (hin : ctx.has .withoutIn = false)
    (hcover : Coverable ctx s) (hclean : t.sink = ∅)
    (hend : t.token = .commaToken ∨ t.token = .closeParenToken)
    (hrun : (top.recur (.assignment ctx)).run s = some (n, t)) :
    ∃ c, (top.recur (.coverElement ctx)).run s = some (some (n, c), t) := by
  have hstart := hcover.starts hclean hrun
  have hlt := assignment_consumes hclean hrun
  have hread := hrun
  rw [top_run] at hrun ⊢
  obtain ⟨hdepth, u, hassign, rfl⟩ := nested_clean hclean hrun
  have hflush : s.deeper.flush = s.deeper := (Parse.moves _ hassign).flush_eq hlt hclean
  obtain ⟨b, v, hstarts, -⟩ := @startsArgument_reads s.deeper _ ctx
  obtain rfl := startsArgument_still hflush hstarts
  suffices h : ∃ c, (@coverElement (below (s.left * 8 + 5) top.recur) ctx).run s.deeper =
      some ((n, c), u) by
    obtain ⟨c, h⟩ := h
    exact ⟨c, nested_run hdepth (run_bind.mpr ⟨(n, c), u, h, rfl⟩)⟩
  have hof {c : Certainty} := @coverElement_of ctx s.deeper u
    (below (s.left * 8 + 5) top.recur) b (n, c) hflush hstart hcover.not_parameter hstarts
  cases b with
  | true =>
    have hu : u.depth = s.depth + 1 := (Parse.moves _ hassign).depth_eq
    have hargument := argument_run hcover hstarts (by omega) hread
    exact ⟨.no, hof (run_bind.mpr ⟨n, u, hargument, rfl⟩)⟩
  | false =>
    obtain ⟨c, h⟩ := operandElement_run (t := u) (e := ⟨s.mark, none⟩) hin hclean hend hflush
      hstarts (fun hjsx htoken => hcover.not_generic hjsx htoken n _ hread) hcover.not_gated_branch
      (fun _ _ _ _ => nofun) rfl argumentOf_run (Nat.le_succ _) hassign
    exact ⟨c, hof h⟩

end Cover

end EcmaSyntax
