import EcmaSyntax.Proofs.Transparency

/-! # Arguments and elements

Behind the word `async` an argument may turn out to be a parameter, so the list there has a grammar
of its own. What is read as plain arguments without a diagnostic is read as the same elements, unless
an argument begins like a parameter or like one of the expressions that elements leave out. -/
namespace EcmaSyntax
open Parse Grammar ParseState

/-! ## One argument -/

/-- An expression behind dots that is no other in a list between parentheses. -/
structure Spreadable (ctx : Context) (s : ParseState) : Prop where
  /-- It begins with its leftmost operand. -/
  not_argument : ∀ t, (startsArgument ctx).run s.deeper ≠ some (true, t)
  /-- Where elements are read, it is no arrow function with type parameters. -/
  not_generic : ctx.has .jsx = true → s.token = .lessThanToken → ∀ n t,
    (top.recur (.assignment ctx)).run s = some (n, t) → n.isArrowFunction = false
  /-- If it begins with a name or a pattern, that is neither assigned to nor a parameter. -/
  not_parameter : ∀ left t, (@operand top ctx .comma).run s.deeper = some (left, t) →
    left.isIdentifierOrPattern = true →
      t.token ≠ .equalsToken ∧ t.token ≠ .equalsGreaterThanToken
  /-- If it is a conditional behind a name or a pattern, its first branch begins with neither a
  decorator nor a private name. -/
  not_gated_branch : ∀ left t, (@operand top ctx .comma).run s.deeper = some (left, t) →
    left.isIdentifierOrPattern = true → t.token = .questionToken →
      (t.consume .plain).token.isGated = false

/-- An argument that is no other in a list between parentheses. -/
structure ArgumentCoverable (ctx : Context) (s : ParseState) : Prop where
  plain : s.token ≠ .dotDotDotToken → Coverable ctx s
  spread : s.token = .dotDotDotToken → Spreadable ctx (s.consume .plain)

theorem Spreadable.of_startsWithName {ctx : Context} {s : ParseState} [s.Ready]
    (h : startsWithName ctx s = true)
    (hstops : ((@operand top ctx .comma).run s.deeper).all (fun a =>
      a.2.token != .equalsToken && a.2.token != .equalsGreaterThanToken) = true) :
    Spreadable ctx s := by
  obtain ⟨htoken, hoperand⟩ := (Bool.and_eq_true _ _).mp h
  have hs : s.token = .identifier := eq_of_beq htoken
  refine ⟨fun t hrun => ?_, fun _ hless => absurd (hs.symm.trans hless) (by decide),
    fun left t hrun _ => ?_, fun left t hrun _ hquestion => ?_⟩
  · exact startsArgument_not_name hs hrun
  · simpa using Option.all_eq_true _ _ |>.mp hstops _ hrun
  · have hne := Option.all_eq_true _ _ |>.mp hoperand _ hrun
    simp [hquestion] at hne

section Argument
variable {ctx : Context} {s t : ParseState} {n : Node}

/-- How an argument is read. -/
theorem argument_cases [Recursion] (hrun : (argument ctx).run s = some (some n, t)) :
    s.token = .dotDotDotToken ∧ (spread ctx).run s = some (n, t) ∨
      s.token ≠ .dotDotDotToken ∧ s.token.canStartExpression = true ∧
        (recur (.assignment ctx)).run s = some (n, t) := by
  obtain ⟨_, _, hk, hrun⟩ := run_bind.mp hrun
  cases hk
  by_cases hdots : s.token = .dotDotDotToken
  · rw [if_pos (by simp [hdots])] at hrun
    obtain ⟨_, _, hspread, hrun⟩ := run_bind.mp hrun
    cases hrun
    exact .inl ⟨hdots, hspread⟩
  rw [if_neg (by simp [hdots])] at hrun
  by_cases hstart : s.token.canStartExpression = true
  · rw [if_pos hstart] at hrun
    obtain ⟨_, _, hassignment, hrun⟩ := run_bind.mp hrun
    cases hrun
    exact .inr ⟨hdots, hstart, hassignment⟩
  · rw [if_neg hstart] at hrun
    obtain ⟨_, _, -, hrun⟩ := run_bind.mp hrun
    cases hrun

/-- Where there is no argument, that is reported. -/
theorem argument_none [Recursion] (hrun : (argument ctx).run s = some (none, t)) : t.Faulty := by
  obtain ⟨_, _, hk, hrun⟩ := run_bind.mp hrun
  cases hk
  split at hrun
  · obtain ⟨_, _, -, hrun⟩ := run_bind.mp hrun
    cases hrun
  split at hrun
  · obtain ⟨_, _, -, hrun⟩ := run_bind.mp hrun
    cases hrun
  · obtain ⟨_, _, hreport, hrun⟩ := run_bind.mp hrun
    cases hrun
    exact reportHere_faulty hreport

/-- A spread as an element. -/
theorem spreadElement_run [s.Ready] (hin : ctx.has .withoutIn = false)
    (hcover : Spreadable ctx (s.consume .plain)) (hdots : s.token = .dotDotDotToken)
    (hclean : t.sink = ∅) (hend : t.token = .commaToken ∨ t.token = .closeParenToken)
    (hclosing : t.token = .closeParenToken →
      t.flush = t ∧ (t.consume .plain).token ≠ .equalsGreaterThanToken)
    (hrun : (@spread top ctx).run s = some (n, t)) :
    n.isParameter = false ∧ ∃ c, (top.recur (.coverElement ctx)).run s = some (some (n, c), t) := by
  obtain ⟨_, _, hmark, hrun⟩ := run_bind.mp hrun
  cases hmark
  obtain ⟨_, r, hexpect, hrun⟩ := run_bind.mp hrun
  obtain ⟨-, rfl⟩ := Prod.mk.inj (Option.some.inj (hexpect.symm.trans (expect_run hdots)))
  obtain ⟨value, u, hvalue, hrun⟩ := run_bind.mp hrun
  cases hrun
  have hread := hvalue
  have hlt := assignment_consumes hclean hvalue
  have hbound : (s.consume .plain).left < s.left := consume_left_lt .plain (by simp [hdots])
  rw [top_run] at hvalue
  obtain ⟨hdepth, v, hassign, rfl⟩ := nested_clean hclean hvalue
  have hflush : (s.consume .plain).deeper.flush = (s.consume .plain).deeper :=
    (Parse.moves _ hassign).flush_eq hlt hclean
  obtain ⟨b, w, hstarts, -⟩ := @startsArgument_reads (s.consume .plain).deeper _ ctx
  obtain rfl := startsArgument_still hflush hstarts
  obtain rfl : b = false := Bool.eq_false_iff.mpr fun hb => hcover.not_argument _ (hb ▸ hstarts)
  have hdeeper : v.shallower.deeper = v := shallower_deeper (by
    rw [(Parse.moves _ hassign).depth_eq]
    exact Nat.succ_pos _)
  have hspreads (left : Node) (u : ParseState)
      (hleft : (@operand top ctx .comma).run (s.consume .plain).deeper = some (left, u))
      (hpattern : left.isIdentifierOrPattern = true) : u.Spreads v := by
    obtain ⟨hassigned, harrow⟩ := hcover.not_parameter left u hleft hpattern
    refine ⟨hassigned, harrow, fun hclose => ?_⟩
    obtain ⟨hflush, hnext⟩ := hclosing hclose
    refine ⟨?_, hnext⟩
    rw [← hdeeper]
    exact congrArg ParseState.deeper hflush
  obtain ⟨c, helement⟩ := operandElement_run (t := v) (e := ⟨s.mark, some (s.consume .plain).mark⟩)
    hin hclean hend hflush hstarts
    (fun hjsx htoken => hcover.not_generic hjsx htoken value _ hread) hcover.not_gated_branch
    (fun left u hleft hpattern _ => hspreads left u hleft hpattern) rfl argumentOf_rest_run
    (show (s.consume .plain).left * 8 + 4 ≤ s.left * 8 + 5 by omega) hassign
  refine ⟨rfl, c, ?_⟩
  rw [top_run]
  refine nested_run hdepth (u := v) (run_bind.mpr ⟨(_, c), v, ?_, rfl⟩)
  have hno : (tokenIs Kind.isAccessModifier <&&> nextIs isBeforeBinding).run s.deeper =
      some (false, s.deeper) := by
    refine run_bind.mpr ⟨s.token.isAccessModifier, s.deeper, rfl, ?_⟩
    rw [hdots]
    rfl
  refine run_bind.mpr ⟨s.mark, s.deeper, rfl, run_bind.mpr ⟨s.token, s.deeper, rfl, ?_⟩⟩
  rw [if_neg (by simp [hdots])]
  refine run_bind.mpr ⟨false, s.deeper, hno, ?_⟩
  rw [if_neg Bool.false_ne_true, if_pos (by simp [hdots])]
  refine run_bind.mpr ⟨(), (s.consume .plain).deeper, rfl, ?_⟩
  exact run_bind.mpr ⟨(s.consume .plain).mark, _, rfl, helement⟩

/-- An argument as an element. -/
theorem argumentElement_run [s.Ready] (hin : ctx.has .withoutIn = false)
    (hcover : ArgumentCoverable ctx s) (hclean : t.sink = ∅)
    (hend : t.token = .commaToken ∨ t.token = .closeParenToken)
    (hclosing : t.token = .closeParenToken →
      t.flush = t ∧ (t.consume .plain).token ≠ .equalsGreaterThanToken)
    (hrun : (@argument top ctx).run s = some (some n, t)) :
    s.token.canStartCoverElement = true ∧ n.isParameter = false ∧
      ∃ c, (top.recur (.coverElement ctx)).run s = some (some (n, c), t) := by
  rcases @argument_cases _ _ _ _ top hrun with ⟨hdots, hspread⟩ | ⟨hdots, hstart, hassignment⟩
  · exact ⟨hdots ▸ rfl, spreadElement_run hin (hcover.spread hdots) hdots hclean hend hclosing
      hspread⟩
  · have hframe := (assignment_rule_extent hassignment).1.resolve_left (not_faulty hclean)
    exact ⟨Kind.canStartCoverElement_of hstart, hframe.not_parameter,
      coverElement_run hin (hcover.plain hdots) hclean hend hassignment⟩

end Argument

/-! ## Lists of arguments -/

/-- The states at which the arguments of a call begin behind an opening parenthesis. -/
inductive ArgumentAt (ctx : Context) (s : ParseState) : ParseState → Prop
  | first : ArgumentAt ctx s (s.consume .plain)
  | next {t u : ParseState} {n : Node} : ArgumentAt ctx s t →
      (@argument top ctx).run t = some (some n, u) → u.token = .commaToken →
        ArgumentAt ctx s (u.consume .plain)

section Turns
variable {s t : ParseState} {l : Listed} {turn : Turn Listed}

theorem token_ne_of_atListEnd {close : Kind} (h : (atListEnd close).run s = some (false, s)) :
    s.token ≠ close := by
  have hnot : [close, .endOfFileToken].contains s.token = false :=
    (Prod.mk.inj (Option.some.inj h)).1
  rintro rfl
  simp at hnot

/-- What stands behind an item, where nothing is reported. -/
theorem afterItem_cases {close : Kind} {start : Nat} (hclean : t.sink = ∅)
    (hrun : (afterItem close start l).run s = some (turn, t)) :
    turn = .done l ∧ t = s ∧ s.token = close ∨
      s.token = .commaToken ∧ t = s.consume .plain ∧
        ∃ comma, turn = .again { l with trailingComma := comma } := by
  obtain ⟨_, _, hat, hrun⟩ := run_bind.mp hrun
  by_cases hclose : s.token = close
  · rw [isAt_run hclose] at hat
    cases hat
    cases hrun
    exact .inl ⟨rfl, rfl, hclose⟩
  rw [isAt_run_ne hclose] at hat
  cases hat
  obtain ⟨_, _, hspan, hrun⟩ := run_bind.mp hrun
  cases hspan
  obtain ⟨_, u, haccept, hrun⟩ := run_bind.mp hrun
  by_cases hcomma : s.token = .commaToken
  · rw [accept_run hcomma] at haccept
    cases haccept
    obtain ⟨b, _, hb, hrun⟩ := run_bind.mp hrun
    cases hb
    cases hrun
    exact .inr ⟨hcomma, rfl, _, rfl⟩
  · rw [accept_run_ne hcomma] at haccept
    cases haccept
    obtain ⟨_, v, hreport, hrun⟩ := run_bind.mp hrun
    exact absurd hclean ((Parse.moves _ hrun).faulty (reportHere_faulty hreport))

/-- A turn through items, where nothing is reported. -/
theorem commaTurn_cases {close : Kind} {item : Array Node → Parse (Option Node)}
    (hnone : ∀ t, (item l.items).run s = some (none, t) → t.Faulty) (hclean : t.sink = ∅)
    (hrun : (commaTurn close item l).run s = some (turn, t)) :
    turn = .done l ∧ t = s ∧ (atListEnd close).run s = some (true, s) ∨
      (atListEnd close).run s = some (false, s) ∧ ∃ n u,
        (item l.items).run s = some (some n, u) ∧
          (afterItem close s.start.offset (l.push n)).run u = some (turn, t) := by
  obtain ⟨b, _, hend, hrun⟩ := run_bind.mp hrun
  have hsame := hend
  cases hend
  split at hrun
  case isTrue h =>
    rw [h] at hsame
    cases hrun
    exact .inl ⟨rfl, rfl, hsame⟩
  case isFalse h =>
    rw [Bool.eq_false_iff.mpr h] at hsame
    obtain ⟨_, _, hstart, hrun⟩ := run_bind.mp hrun
    cases hstart
    obtain ⟨answer, u, hitem, hrun⟩ := run_bind.mp hrun
    cases answer with
    | none =>
      cases hrun
      exact absurd (hnone _ hitem) (not_faulty hclean)
    | some n => exact .inr ⟨hsame, n, u, hitem, hrun⟩

/-- An empty turn through elements. -/
theorem coverTurn_end [Recursion] {ctx : Context} {c : Cover}
    (h : (atListEnd .closeParenToken).run s = some (true, s)) :
    (coverTurn ctx c).run s = some (.done c, s) := run_bind.mpr ⟨true, s, h, rfl⟩

end Turns

section Lists
variable {ctx : Context} {R : Recursion} {bound : Nat} {r s t : ParseState} {n : Node}

/-- Turns through arguments, taken as turns through elements. -/
theorem coverTurns_of_arguments {l l' : Listed}
    (hR : ∀ p : ParseState, p.left < bound →
      (R.recur (.coverElement ctx)).run p = (top.recur (.coverElement ctx)).run p)
    (hin : ctx.has .withoutIn = false)
    (hcover : ∀ p, ArgumentAt ctx r p → p.token ≠ .closeParenToken → ArgumentCoverable ctx p)
    (hturns : Looped (commaTurn .closeParenToken fun _ => @argument top ctx) l s l' t)
    (hs : s.Ready) (hat : ArgumentAt ctx r s) (hbound : s.left < bound) (hclean : t.sink = ∅)
    (hflush : t.flush = t)
    (harrow : (t.consume .plain).token ≠ .equalsGreaterThanToken)
    (hplain : ∀ e ∈ l.toList, e.isParameter = false) {c : Cover} (hc : c.listed = l) :
    ∃ c', Looped (@coverTurn R ctx) c s c' t ∧ c'.listed = l' ∧
      ∀ e ∈ l'.toList, e.isParameter = false := by
  have hcases {l : Listed} {turn : Turn Listed} {s u : ParseState} :=
    @commaTurn_cases s u l turn .closeParenToken (fun _ => @argument top ctx)
      fun _ => @argument_none _ _ _ top
  have hpush {l : Listed} {n : Node} {comma : Option Span} (hn : n.isParameter = false)
      (hl : ∀ e ∈ l.toList, e.isParameter = false) :
      ∀ e ∈ ({ l.push n with trailingComma := comma } : Listed).toList, e.isParameter = false := by
    intro e he
    have he : e ∈ l.toList ++ [n] := by rwa [← show _ = _ from Array.toList_push]
    rcases List.mem_append.mp he with he | he
    · exact hl e he
    · exact List.mem_singleton.mp he ▸ hn
  induction hturns generalizing c with
  | @done l l' s t hstep =>
    subst hc
    rcases hcases hclean hstep with ⟨heq, rfl, hend⟩ | ⟨hstart, n, u, hitem, hafter⟩
    · cases heq
      exact ⟨c, .done (coverTurn_end hend), rfl, hplain⟩
    rcases afterItem_cases hclean hafter with ⟨heq, rfl, hclose⟩ | ⟨_, _, _, heq⟩
    · cases heq
      obtain ⟨hbegins, hn, y, helement⟩ := argumentElement_run hin
        (hcover s hat (token_ne_of_atListEnd hstart)) hclean (.inr hclose)
        (fun _ => ⟨hflush, harrow⟩) hitem
      refine ⟨⟨c.listed.push n, y⟩, .done ?_, rfl, hpush hn hplain⟩
      exact @coverTurn_run _ _ _ R _ _ _ _ _ hbegins ((hR s hbound).trans helement) hafter
    · cases heq
  | @again l b l' s v t hstep hlt hrest ih =>
    subst hc
    have hv : v.sink = ∅ := hrest.moves.sink_eq_empty hclean
    rcases hcases hv hstep with ⟨heq, -⟩ | ⟨hstart, n, u, hitem, hafter⟩
    · cases heq
    rcases afterItem_cases hv hafter with ⟨heq, -⟩ | ⟨hcomma, rfl, comma, heq⟩
    · cases heq
    cases heq
    have hu : u.sink = ∅ := (Parse.moves _ hafter).sink_eq_empty hv
    obtain ⟨hbegins, hn, y, helement⟩ := argumentElement_run hin
      (hcover s hat (token_ne_of_atListEnd hstart)) hu (.inl hcomma) (by simp [hcomma]) hitem
    have hm := Parse.moves _ hstep
    have hready := hm.ready hs
    have hleft := (hm.offset_lt_iff hs).mp hlt
    obtain ⟨c', hlooped, hc'⟩ := ih hready (hat.next hitem hcomma) (by omega) hclean hflush harrow
      (hpush hn hplain) (c := ⟨{ c.listed.push n with trailingComma := comma }, y⟩) rfl
    refine ⟨c', .again ?_ hlt hlooped, hc'⟩
    exact @coverTurn_run _ _ _ R _ _ _ _ _ hbegins ((hR s hbound).trans helement) hafter

/-- What is read as a list of arguments without a diagnostic is read as the same list of
elements. -/
theorem coverList_of_arguments [hs : s.Ready]
    (hR : ∀ p : ParseState, p.left < s.left →
      (R.recur (.coverElement ctx)).run p = (top.recur (.coverElement ctx)).run p)
    (hin : ctx.has .withoutIn = false) (hargument : ctx.argument = ctx)
    (hcover : ∀ p, ArgumentAt ctx s p → p.token ≠ .closeParenToken → ArgumentCoverable ctx p)
    (hopen : s.token = .openParenToken) (hrun : (@argumentList top ctx).run s = some (n, t))
    (hclean : t.sink = ∅) (hcolon : t.token ≠ .colonToken)
    (harrow : t.token ≠ .equalsGreaterThanToken) :
    (@coverList R ctx s.mark none).run s = some (n, t) ∧
      n.isArrowParameters = false ∧ (argumentElements n).any (·.isParameter) = false := by
  obtain ⟨_, _, hmark, hrun⟩ := run_bind.mp hrun
  cases hmark
  obtain ⟨l, w, hlist, hnode⟩ := run_bind.mp hrun
  cases hnode
  obtain ⟨_, r, hexpect, hrun⟩ := run_bind.mp hlist
  rw [expect_run hopen] at hexpect
  cases hexpect
  obtain ⟨_, u, hloop, hrun⟩ := run_bind.mp hrun
  obtain ⟨_, v, hexpect, hrun⟩ := run_bind.mp hrun
  cases hrun
  obtain ⟨-, hclose, rfl⟩ := (expect_gives hexpect).resolve_left (not_faulty hclean)
  have hready := (Parse.moves _ hloop).ready inferInstance
  have hlast : Moves u (u.consume .plain) := .single (.consume .plain u)
  have hflush : u.flush = u := flush_eq_of_consume (by simp [hclose]) (.refl _) hclean
  rw [hargument] at hloop
  obtain ⟨c, hturns, rfl, hplain⟩ := coverTurns_of_arguments hR hin hcover (looped_of_loop hloop)
    inferInstance .first (consume_left_lt .plain (by simp [hopen])) (hlast.sink_eq_empty hclean)
    hflush harrow nofun (c := {}) rfl
  have hbetween : (between .openParenToken .closeParenToken
      (loop (@coverTurn R ctx.argument) {})).run s = some (c, u.consume .plain) := by
    rw [hargument]
    refine run_bind.mpr ⟨true, _, expect_run hopen, run_bind.mpr ⟨c, u, loop_of_looped hturns, ?_⟩⟩
    exact run_bind.mpr ⟨true, _, expect_run hclose, rfl⟩
  refine ⟨run_bind.mpr ⟨c, _, hbetween, @coverRest_run _ _ R _ _ hcolon harrow⟩, rfl, ?_⟩
  exact List.any_eq_false.mpr fun e he => by simpa using hplain e he

end Lists
end EcmaSyntax
