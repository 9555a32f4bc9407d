import EcmaSyntax.Proofs.Elements

/-! # Transparent parentheses

Parentheses around an expression change nothing of it: what is read between the parentheses of a
statement is read between parentheses of an expression, too, and is the same node. -/
namespace EcmaSyntax
open Parse Grammar ParseState

/-! ## Lists of operands -/

section Loops
variable {α : Type} {step : α → Parse (Turn α)} {a b : α} {s t : ParseState}

theorem turns_of_looped (h : Looped step a s b t) (hs : s.Ready) {n : Nat} (hn : s.left < n) :
    (turns step n a).run s = some (b, t) := by
  induction h generalizing n with
  | @done a b s t hstep =>
    cases n with
    | zero => cases hn
    | succ n =>
      refine run_bind.mpr ⟨s.start.offset, s, rfl, ?_⟩
      exact run_bind.mpr ⟨.done b, t, hstep, rfl⟩
  | @again a b c s t u hstep hlt _ ih =>
    cases n with
    | zero => cases hn
    | succ n =>
      have hm := Parse.moves _ hstep
      have hleft := (hm.offset_lt_iff hs).mp hlt
      refine run_bind.mpr ⟨s.start.offset, s, rfl, run_bind.mpr ⟨.again b, t, hstep, ?_⟩⟩
      refine run_bind.mpr ⟨t.start.offset, t, rfl, ?_⟩
      rw [if_pos hlt]
      exact ih (hm.ready hs) (by omega)

/-- A loop does what its turns do. -/
theorem loop_of_looped [s.Ready] (h : Looped step a s b t) : (loop step a).run s = some (b, t) :=
  run_bind.mpr ⟨s.left, s, rfl, turns_of_looped h ‹_› (Nat.lt_succ_self _)⟩

end Loops

/-- The states at which the operands of the comma operator begin behind an opening parenthesis. -/
inductive OperandAt (ctx : Context) (s : ParseState) : ParseState → Prop
  | first : OperandAt ctx s (s.consume .plain)
  | next {t u : ParseState} {n : Node} : OperandAt ctx s t →
      (top.recur (.assignment ctx)).run t = some (n, u) → u.token = .commaToken →
        OperandAt ctx s (u.consume .plain)

/-- The elements of a list, joined by commas, are an expression. -/
structure Grammar.Listed.Joins (l : Listed) (n : Node) : Prop where
  joined : ∃ first rest, l.toList = first :: rest ∧ rest.foldl commaJoined first = n
  plain : ∀ e ∈ l.toList, e.isParameter = false ∧ e.isSpread = false
  trailing : l.trailingComma = none

namespace Grammar.Listed.Joins
variable {l : Listed} {n e : Node}

theorem single (hp : e.isParameter = false) (hs : e.isSpread = false) :
    (Listed.push {} e).Joins e :=
  ⟨⟨e, [], rfl, rfl⟩, fun e' h => by simp_all [Listed.toList, Listed.push], rfl⟩

/-- No comma stands behind the last element. -/
theorem retrail (h : l.Joins n) : Listed.Joins { l with trailingComma := none } n :=
  ⟨h.joined, h.plain, rfl⟩

theorem push (h : l.Joins n) (hp : e.isParameter = false) (hs : e.isSpread = false) :
    (l.push e).Joins (commaJoined n e) := by
  obtain ⟨first, rest, hl, rfl⟩ := h.joined
  have htoList : (l.push e).toList = l.toList ++ [e] := Array.toList_push
  refine ⟨⟨first, rest ++ [e], by rw [htoList, hl]; rfl, by simp⟩, fun e' he => ?_, h.trailing⟩
  rw [htoList] at he
  rcases List.mem_append.mp he with he | he
  · exact h.plain e' he
  · obtain rfl := List.mem_singleton.mp he
    exact ⟨hp, hs⟩

end Grammar.Listed.Joins

section Turns
variable {ctx : Context} {s t : ParseState} {l : Listed} {start : Nat}

theorem afterItem_close (h : t.token = .closeParenToken) :
    (afterItem .closeParenToken start l).run t = some (.done l, t) :=
  run_bind.mpr ⟨true, t, isAt_run h, rfl⟩

theorem afterItem_comma (h : t.token = .commaToken)
    (hnext : (t.consume .plain).token ≠ .closeParenToken) :
    (afterItem .closeParenToken start l).run t =
      some (.again { l with trailingComma := none }, t.consume .plain) := by
  refine run_bind.mpr ⟨false, t, isAt_run_ne (by simp [h]), run_bind.mpr ⟨_, t, rfl, ?_⟩⟩
  exact run_bind.mpr ⟨true, _, accept_run h, run_bind.mpr ⟨false, _, isAt_run_ne hnext, rfl⟩⟩

theorem coverTurn_run [Recursion] {c : Cover} {e : Node} {y : Certainty} {turn : Turn Listed}
    {u : ParseState} (hstart : s.token.canStartCoverElement = true)
    (helement : (recur (.coverElement ctx)).run s = some (some (e, y), t))
    (hitem : (afterItem .closeParenToken s.start.offset (c.listed.push e)).run t = some (turn, u)) :
    (coverTurn ctx c).run s = some (turn.map (⟨·, y⟩), u) := by
  have hend : (atListEnd .closeParenToken).run s = some (false, s) := by
    have hclose : s.token ≠ .closeParenToken := Kind.ne_of_canStartCoverElement hstart rfl
    have hlast : s.token ≠ .endOfFileToken := Kind.ne_of_canStartCoverElement hstart rfl
    change some ([.closeParenToken, .endOfFileToken].contains s.token, s) = _
    simp [hclose, hlast]
  refine run_bind.mpr ⟨false, s, hend, run_bind.mpr ⟨_, s, rfl, run_bind.mpr ⟨_, s, rfl, ?_⟩⟩⟩
  rw [if_pos hstart]
  exact run_bind.mpr ⟨_, t, helement, run_bind.mpr ⟨turn, u, hitem, rfl⟩⟩

theorem expressionTurn_done [Recursion] {m : Mark} {left n : Node}
    (hrun : (expressionTurn ctx m left).run s = some (.done n, t)) :
    n = left ∧ t = s ∧ s.token ≠ .commaToken := by
  obtain ⟨b, u, haccept, hrun⟩ := run_bind.mp hrun
  by_cases h : s.token = .commaToken
  · rw [accept_run h] at haccept
    cases haccept
    obtain ⟨_, _, -, hrun⟩ := run_bind.mp hrun
    obtain ⟨_, _, -, hrun⟩ := run_bind.mp hrun
    cases hrun
  · rw [accept_run_ne h] at haccept
    cases haccept
    cases hrun
    exact ⟨rfl, rfl, h⟩

theorem expressionTurn_again [Recursion] {m : Mark} {left n : Node}
    (hrun : (expressionTurn ctx m left).run s = some (.again n, t)) :
    s.token = .commaToken ∧ ∃ right,
      (recur (.assignment ctx)).run (s.consume .plain) = some (right, t) ∧
        n = .mk (t.header m) (.binary left .commaToken right) := by
  obtain ⟨b, u, haccept, hrun⟩ := run_bind.mp hrun
  by_cases h : s.token = .commaToken
  · rw [accept_run h] at haccept
    cases haccept
    obtain ⟨right, v, hright, hrun⟩ := run_bind.mp hrun
    obtain ⟨_, _, hnode, hrun⟩ := run_bind.mp hrun
    cases hnode
    cases hrun
    exact ⟨h, right, hright, rfl⟩
  · rw [accept_run_ne h] at haccept
    cases haccept
    cases hrun

end Turns

theorem Looped.moves {α : Type} {step : α → Parse (Turn α)} {a b : α} {s t : ParseState}
    (h : Looped step a s b t) : Moves s t := by
  induction h with
  | done hstep => exact Parse.moves _ hstep
  | again hstep _ _ ih => exact (Parse.moves _ hstep).trans ih

/-- The header of a node that is read without a diagnostic. -/
theorem ParseState.header_clean {r t : ParseState} (h : t.sink = ∅) :
    t.header r.mark = { range := ⟨r.start.offset, max t.full.offset r.start.offset⟩ } := by
  have hsize : decide (r.mark.reported < t.sink.size) = false := by
    rw [h]
    exact decide_eq_false (Nat.not_lt_zero _)
  have hflags : FlagSet.when false (FlagSet.one NodeFlag.hasErrors) ∪ r.mark.flags = ∅ :=
    congrArg FlagSet.mk (Nat.or_self 0)
  rw [header, hsize, hflags]
  rfl

section Joined
variable {ctx : Context} {r s t u : ParseState} {left right n : Node}

/-- Operands that are read as an expression are joined as elements of a list are. -/
theorem comma_eq_joined [hr : r.Ready] (hm : Moves r s) (hclean : t.sink = ∅)
    (hpos : left.range.pos = r.start.offset)
    (hright : (top.recur (.assignment ctx)).run s = some (right, t)) :
    Node.mk (t.header r.mark) (.binary left .commaToken right) = commaJoined left right := by
  have hs := hm.ready hr
  have hframe := (assignment_rule_extent hright).1.resolve_left (not_faulty hclean)
  have hfull := (Parse.moves _ hright).start_reaches_full hs (assignment_consumes hclean hright)
  have hle := hfull.offset_le hs.start_sound
  have hle' := (hm.start_reaches hr).offset_le hr.start_sound
  have hstop : max t.full.offset r.start.offset = max t.full.offset s.start.offset := by omega
  rw [header_clean hclean, commaJoined, hpos, hframe.range_eq, hstop]

/-- Behind an operand there is a comma or the end. -/
theorem token_of_looped [Recursion] {m : Mark}
    (h : Looped (expressionTurn ctx m) left s n t) (hclose : t.token = .closeParenToken) :
    s.token = .commaToken ∨ s.token = .closeParenToken := by
  cases h with
  | done hstep =>
    obtain ⟨-, rfl, -⟩ := expressionTurn_done hstep
    exact .inr hclose
  | again hstep => exact .inl (expressionTurn_again hstep).1

/-- The turns through the operands of an expression, taken as turns through elements. The elements
lag behind the operands by one: `e` has been read, but not yet the comma behind it. -/
theorem coverTurns {o : ParseState} {R : Recursion} {bound : Nat}
    (hR : ∀ p : ParseState, p.left < bound →
      (R.recur (.coverElement ctx)).run p = (top.recur (.coverElement ctx)).run p)
    (hin : ctx.has .withoutIn = false) (hcover : ∀ p, OperandAt ctx o p → Coverable ctx p)
    [hr : r.Ready] (hturns : Looped (@expressionTurn top ctx r.mark) left u n t)
    (hclose : t.token = .closeParenToken) (hclean : t.sink = ∅)
    {p : ParseState} {e : Node} {c : Cover} (hm : Moves r p) (hbound : p.left < bound)
    (hat : OperandAt ctx o p) (he : (top.recur (.assignment ctx)).run p = some (e, u))
    (hpos : left.range.pos = r.start.offset) (hjoins : (c.listed.push e).Joins left) :
    ∃ c', Looped (@coverTurn R ctx) c p c' t ∧ c'.listed.Joins n := by
  -- what carries the induction is that the elements up to `e` are joined to `left`
  induction hturns generalizing p e c with
  | @done left n u t hstep =>
    obtain ⟨rfl, rfl, -⟩ := @expressionTurn_done _ _ _ top _ _ _ hstep
    have hp := hm.ready hr
    obtain ⟨y, helement⟩ := coverElement_run hin (hcover p hat) hclean (.inr hclose) he
    refine ⟨⟨c.listed.push e, y⟩, .done ?_, hjoins⟩
    exact @coverTurn_run _ _ _ R _ _ _ _ _
      (Kind.canStartCoverElement_of ((hcover p hat).starts hclean he))
      ((hR p hbound).trans helement) (afterItem_close hclose)
  | @again left b n u v t hstep hlt hrest ih =>
    obtain ⟨hcomma, right, hright, rfl⟩ := @expressionTurn_again _ _ _ top _ _ _ hstep
    have hp := hm.ready hr
    have hv : v.sink = ∅ := hrest.moves.sink_eq_empty hclean
    have hu : u.sink = ∅ := (Parse.moves _ hstep).sink_eq_empty hv
    have huready := (Parse.moves _ he).ready hp
    have hcover' := hcover _ (hat.next he hcomma)
    obtain ⟨y, helement⟩ := coverElement_run hin (hcover p hat) hu (.inl hcomma) he
    have hlt' := consume_left_lt .plain (s := u) (by simp [hcomma])
    have hle := (Parse.moves _ he).left_le hp
    have hmoves : Moves p (u.consume .plain) :=
      (Parse.moves _ he).trans (.single (.consume .plain u))
    have hclose' : (u.consume .plain).token ≠ .closeParenToken :=
      Kind.ne_of_canStartExpression (hcover'.starts hv hright) rfl
    have hframe := (assignment_rule_extent hright).1.resolve_left (not_faulty hv)
    have hjoined := comma_eq_joined (hm.trans hmoves) hv hpos hright
    have hjoins' : (Listed.push { c.listed.push e with trailingComma := none } right).Joins
        (.mk (v.header r.mark) (.binary left .commaToken right)) :=
      hjoined ▸ (hjoins.retrail).push hframe.not_parameter hframe.not_spread
    obtain ⟨c', hlooped, hc'⟩ := ih hclose hclean (hm.trans hmoves) (by omega)
      (hat.next he hcomma) hright rfl
      (c := ⟨{ c.listed.push e with trailingComma := none }, y⟩) hjoins'
    refine ⟨c', .again ?_ ((hmoves.offset_lt_iff hp).mpr (by omega)) hlooped, hc'⟩
    exact @coverTurn_run _ _ _ R _ _ _ _ _
      (Kind.canStartCoverElement_of ((hcover p hat).starts hu he))
      ((hR p hbound).trans helement) (afterItem_comma hcomma hclose')

end Joined

/-! ## Parentheses -/

section Parenthesized
variable {ctx : Context} {s t : ParseState} {l : Listed} {n : Node}

/-- A list that is followed by neither a colon nor an arrow is an argument list. -/
theorem coverRest_run [Recursion] {m : Mark} {c : Cover} (hcolon : s.token ≠ .colonToken)
    (harrow : s.token ≠ .equalsGreaterThanToken) :
    (coverRest ctx m none c).run s = some
      (.mk (s.header m) (.argumentList c.listed.toList c.listed.hasTrailingComma), s) := by
  have hreturn : (atReturnType ctx c.certainty).run s = some (false, s) :=
    run_bind.mpr ⟨false, s, isAt_run_ne hcolon, rfl⟩
  unfold coverRest
  split
  · exact run_bind.mpr ⟨false, s, hreturn, run_bind.mpr ⟨false, s, isAt_run_ne harrow, rfl⟩⟩
  · rfl

theorem elementExpression_of_plain {e : Node} (h : e.isParameter = false) :
    elementExpression e = e := by
  unfold elementExpression
  split
  case h_1 heq => simp [Node.isParameter, heq] at h
  case h_2 => rfl

/-- Elements that are joined as an expression need no report. -/
theorem parenthesizedOf_run {range : Range} (h : l.Joins n) :
    (parenthesizedOf (.mk { range } (.argumentList l.toList l.hasTrailingComma))).run s =
      some (.mk { range } (.parenthesized n), s) := by
  obtain ⟨first, rest, hl, rfl⟩ := h.joined
  have htrailing : l.hasTrailingComma = false := by simp [Listed.hasTrailingComma, h.trailing]
  have hany : (l.toList.any fun e => e.isParameter || e.isSpread) = false := by
    refine List.any_eq_false.mpr fun e he => ?_
    simp [h.plain e he]
  have hmap : l.toList.map elementExpression = l.toList := by
    refine List.map_congr_left (fun e he => ?_) |>.trans (List.map_id _)
    exact elementExpression_of_plain (h.plain e he).1
  have helements : argumentElements (.mk { range } (.argumentList l.toList false)) = l.toList := rfl
  rw [htrailing]
  have hcheck : (checkElements (.mk { range } (.argumentList l.toList false))).run s =
      some ((), s) := by
    rw [checkElements, helements, hany]
    rfl
  have hjoined : (joinedElements (.mk { range } (.argumentList l.toList false))).run s =
      some (rest.foldl commaJoined first, s) := by
    rw [joinedElements, helements, hmap, hl]
    rfl
  refine run_bind.mpr ⟨s.sink.size, s, rfl, run_bind.mpr ⟨(), s, rfl, ?_⟩⟩
  refine run_bind.mpr ⟨(), s, hcheck, run_bind.mpr ⟨_, s, hjoined, ?_⟩⟩
  refine run_bind.mpr ⟨s.sink.size, s, rfl, ?_⟩
  have hflags : (Node.mk { range } (.argumentList l.toList false)).hasErrors = false :=
    FlagSet.has_empty _
  rw [hflags, Bool.false_or, decide_eq_false (Nat.lt_irrefl _)]
  rfl

/-- What an expression between parentheses is read as, by any grammar that reads the elements as the
grammar as a whole does. -/
theorem parenthesized_run {R : Recursion} [hs : s.Ready]
    (hR : ∀ p : ParseState, p.left < s.left →
      (R.recur (.coverElement ctx)).run p = (top.recur (.coverElement ctx)).run p)
    (hin : ctx.has .withoutIn = false) (hargument : ctx.argument = ctx)
    (hcover : ∀ p, OperandAt ctx s p → Coverable ctx p)
    (hopen : s.token = .openParenToken) (hclose : t.token = .closeParenToken)
    (hcolon : (t.consume .plain).token ≠ .colonToken)
    (harrow : (t.consume .plain).token ≠ .equalsGreaterThanToken)
    (hclean : (t.consume .plain).sink = ∅)
    (hrun : (@expression top ctx).run (s.consume .plain) = some (n, t)) :
    (@parenthesized R ctx).run s = some
      (.mk { range := ⟨s.start.offset, (t.consume .plain).full.offset⟩ } (.parenthesized n),
        t.consume .plain) := by
  have hlast : Moves t (t.consume .plain) := .single (.consume .plain t)
  have htclean : t.sink = ∅ := hlast.sink_eq_empty hclean
  have hmoves := Parse.moves _ hrun
  have hlt : (s.consume .plain).left < s.left := consume_left_lt .plain (by simp [hopen])
  obtain ⟨_, _, hmark, hrun⟩ := run_bind.mp hrun
  cases hmark
  obtain ⟨first, u, hfirst, hloop⟩ := run_bind.mp hrun
  have hlooped := looped_of_loop hloop
  have hu : u.sink = ∅ := hlooped.moves.sink_eq_empty htclean
  have hframe := (assignment_rule_extent hfirst).1.resolve_left (not_faulty hu)
  obtain ⟨c, hturns, hjoins⟩ := coverTurns hR hin hcover hlooped hclose htclean (.refl _) hlt
    .first hfirst (congrArg Range.pos hframe.range_eq) (c := {})
    (.single hframe.not_parameter hframe.not_spread)
  have hbetween : (between .openParenToken .closeParenToken
      (loop (@coverTurn R ctx.argument) {})).run s = some (c, t.consume .plain) := by
    rw [hargument]
    refine run_bind.mpr ⟨true, _, expect_run hopen, run_bind.mpr ⟨c, t, loop_of_looped hturns, ?_⟩⟩
    exact run_bind.mpr ⟨true, _, expect_run hclose, rfl⟩
  have hrange : max (t.consume .plain).full.offset s.start.offset =
      (t.consume .plain).full.offset := by
    have hm : Moves s (t.consume .plain) := .cons (.consume .plain s) (hmoves.trans hlast)
    have hle := (hmoves.trans hlast).left_le inferInstance
    exact Nat.max_eq_left ((hm.start_reaches_full hs (by omega)).offset_le hs.start_sound)
  have hlist : (@coverList R ctx s.mark none).run s = some
      (.mk ((t.consume .plain).header s.mark)
        (.argumentList c.listed.toList c.listed.hasTrailingComma), t.consume .plain) :=
    run_bind.mpr ⟨c, _, hbetween, @coverRest_run _ _ R _ _ hcolon harrow⟩
  rw [header_clean hclean, hrange] at hlist
  refine run_bind.mpr ⟨s.mark, s, rfl, run_bind.mpr ⟨_, _, hlist, ?_⟩⟩
  exact parenthesizedOf_run hjoins

end Parenthesized

/-! ## Names -/

/-- A state on a name. The word `async` is one before a parenthesis. -/
def ParseState.OnName (s : ParseState) : Prop :=
  s.token = .identifier ∨
    s.token = .asyncKeyword ∧ s.flush = s ∧ (s.consume .plain).token = .openParenToken

/-- A state on a token that begins an operand, and no word of another kind of assignment. -/
def ParseState.AtOperand (s : ParseState) : Prop := s.token = .openParenToken ∨ s.OnName

section Names
variable {ctx : Context} {s : ParseState}

theorem isBeforeFunction_run (hflush : s.flush = s)
    (h : (s.consume .plain).token ≠ .functionKeyword) :
    isBeforeFunction.run s = some (false, s) := by
  refine nextIs_run (t := s.consume .plain) hflush ?_
  have hno : (!(s.consume .plain).reading.hasPrecedingLineBreak &&
      (s.consume .plain).token == .functionKeyword) = false := by simp [h]
  exact congrArg (fun b => some (b, s.consume .plain)) hno

namespace ParseState.OnName

theorem deeper (h : s.OnName) : s.deeper.OnName :=
  h.imp_right fun ⟨htoken, hflush, hopen⟩ => ⟨htoken, congrArg ParseState.deeper hflush, hopen⟩

theorem ne_of (h : s.OnName) {k : Kind} (hk : k ≠ .identifier ∧ k ≠ .asyncKeyword) :
    s.token ≠ k := by
  rintro rfl
  exact h.elim hk.1 fun h => hk.2 h.1

theorem startsAsyncArrow_run (h : s.OnName) :
    (startsAsyncArrow ctx).run s = some (false, s) := by
  rcases h with h | ⟨h, hflush, hopen⟩
  · exact run_bind.mpr ⟨false, s, isAt_run_ne (by simp [h]), rfl⟩
  refine run_bind.mpr ⟨true, s, isAt_run h, ?_⟩
  have hlook : (do
      if ← afterLineBreak then return false
      unless ← isIdentifier (ctx.including [.awaitOperator]) do return false
      advance
      isAt .equalsGreaterThanToken : Parse Bool).run (s.consume .plain) =
        some (false, s.consume .plain) := by
    refine run_bind.mpr ⟨_, _, rfl, ?_⟩
    split
    · rfl
    refine run_bind.mpr ⟨false, _, ?_, rfl⟩
    change some (admits _ (s.consume .plain).token, _) = _
    rw [hopen]
    rfl
  exact lookAhead_run hflush (run_bind.mpr ⟨(), _, rfl, hlook⟩)

end ParseState.OnName

namespace ParseState.AtOperand

theorem not_lessThan (h : s.AtOperand) : s.token ≠ .lessThanToken := by
  rcases h with h | h
  · simp [h]
  · exact h.ne_of (by decide)

theorem not_yield (h : s.AtOperand) : s.token ≠ .yieldKeyword := by
  rcases h with h | h
  · simp [h]
  · exact h.ne_of (by decide)

theorem startsAsyncArrow_run (h : s.AtOperand) :
    (startsAsyncArrow ctx).run s = some (false, s) := by
  rcases h with h | h
  · exact run_bind.mpr ⟨false, s, isAt_run_ne (by simp [h]), rfl⟩
  · exact h.startsAsyncArrow_run

end ParseState.AtOperand
end Names

/-! ## Before a closing parenthesis -/

section Closed
variable [Recursion] {ctx : Context} {m : Mark} {n left : Node} {s t : ParseState}

omit [Recursion] in
/-- A loop whose first turn is its last. -/
theorem loop_done {α : Type} {step : α → Parse (Turn α)} {a : α} [s.Ready]
    (h : (step a).run s = some (.done a, s)) : (loop step a).run s = some (a, s) :=
  loop_of_looped (.done h)

theorem suffixes_done [t.Ready] {calls : Bool}
    (hturn : (suffix ctx m calls n).run t = some (.done n, t)) :
    (suffixes ctx m calls n).run t = some (n, t) := by
  unfold suffixes
  split
  · exact loop_done hturn
  · rfl

omit [Recursion] in
theorem reread_greaterThan_run (h : t.token ≠ .greaterThanToken) :
    (Parse.reread .greaterThan).run t = some ((), t) := by
  have htoken : (t.scanner.token == .greaterThanToken) = false := beq_eq_false_iff_ne.mpr h
  change some ((), { t with scanner := t.scanner.rescanGreaterThan }) = _
  rw [Scanner.rescanGreaterThan, htoken]
  rfl

/-- Before a token that does not bind there are no more operators. -/
theorem operators_done [t.Ready] {p : Precedence} (hne : t.token ≠ .greaterThanToken)
    (hbinds : p.binds t.token = false) : (loop (operation ctx p m) n).run t = some (n, t) := by
  refine loop_done (run_bind.mpr ⟨(), t, reread_greaterThan_run hne, ?_⟩)
  refine run_bind.mpr ⟨t.token, t, rfl, ?_⟩
  rw [hbinds]
  rfl

theorem suffixes_closed [t.Ready] (hclose : t.token = .closeParenToken) {calls : Bool} :
    (suffixes ctx m calls n).run t = some (n, t) := by
  refine suffixes_done (run_bind.mpr ⟨t.token, t, rfl, ?_⟩)
  rw [hclose]
  rfl

/-- What is read between parentheses, as the operand of an operator. -/
theorem unary_parenthesized [t.Ready] (hopen : s.token = .openParenToken)
    (hclose : t.token = .closeParenToken) (hrun : (parenthesized ctx).run s = some (n, t)) :
    (unary ctx).run s = some (n, t) := by
  have hbase : (memberBase ctx).run s = some (n, t) := by
    refine run_bind.mpr ⟨false, s, isAt_run_ne (by simp [hopen]), ?_⟩
    exact run_bind.mpr ⟨.openParenToken, s, congrArg (fun k => some (k, s)) hopen, hrun⟩
  have hleft : (leftHandSide ctx).run s = some (n, t) :=
    run_bind.mpr ⟨s.mark, s, rfl, run_bind.mpr ⟨n, t, hbase, suffixes_closed hclose⟩⟩
  refine run_bind.mpr ⟨s.mark, s, rfl, run_bind.mpr ⟨s.token, s, rfl, ?_⟩⟩
  rw [hopen]
  refine run_bind.mpr ⟨n, t, hleft, run_bind.mpr ⟨t.token, t, rfl, ?_⟩⟩
  rw [hclose]
  rfl

theorem genericArrow?_run (h : s.token ≠ .lessThanToken) :
    (genericArrow? ctx).run s = some (none, s) :=
  run_bind.mpr ⟨false, s, run_bind.mpr ⟨false, s, isAt_run_ne h, rfl⟩, rfl⟩

/-- An assignment that begins with its leftmost operand and no word of another kind of
assignment. -/
theorem assignment_of_operand {u : ParseState} (hs : s.AtOperand)
    (hoperand : (operand ctx .comma).run s = some (left, t))
    (hrest : (assignmentRest ctx s.mark left).run t = some (n, u)) :
    (assignment ctx).run s = some (n, u) := by
  refine run_bind.mpr ⟨false, s, isAt_run_ne hs.not_yield, run_bind.mpr ⟨s.mark, s, rfl, ?_⟩⟩
  refine run_bind.mpr ⟨none, s, genericArrow?_run hs.not_lessThan, ?_⟩
  refine run_bind.mpr ⟨false, s, hs.startsAsyncArrow_run, ?_⟩
  exact run_bind.mpr ⟨left, t, hoperand, hrest⟩

/-- An operator expression between an opening and a closing parenthesis, as an assignment. -/
theorem assignment_parenthesized [t.Ready] (hopen : s.token = .openParenToken)
    (hclose : t.token = .closeParenToken) (hn : n.isArrowParameters = false)
    (hrun : (recur (.unary ctx)).run s = some (n, t)) :
    (assignment ctx).run s = some (n, t) := by
  have hoperators : (loop (operation ctx .comma s.mark) n).run t = some (n, t) :=
    operators_done (by simp [hclose]) (hclose ▸ rfl)
  exact assignment_of_operand (.inl hopen)
    (run_bind.mpr ⟨s.mark, s, rfl, run_bind.mpr ⟨n, t, hrun, hoperators⟩⟩)
    (assignmentRest_done hn (by simp [hclose]) (hclose ▸ rfl) (by simp [hclose]))

/-- An expression without a comma. -/
theorem expression_single [t.Ready] (hcomma : t.token ≠ .commaToken)
    (hrun : (recur (.assignment ctx)).run s = some (n, t)) :
    (expression ctx).run s = some (n, t) := by
  refine run_bind.mpr ⟨s.mark, s, rfl, run_bind.mpr ⟨n, t, hrun, loop_done ?_⟩⟩
  exact run_bind.mpr ⟨false, t, accept_run_ne hcomma, rfl⟩

end Closed

/-! ## Conditions -/

section Conditions
variable {ctx : Context} {s t : ParseState} {n : Node}

/-- What a condition consists of, where nothing is reported. -/
theorem condition_clean (hin : ctx.has .withoutIn = false) (hclean : t.sink = ∅)
    (hrun : (@condition top ctx).run s = some (n, t)) :
    s.token = .openParenToken ∧ ∃ u, (@expression top ctx).run (s.consume .plain) = some (n, u) ∧
      u.token = .closeParenToken ∧ t = u.consume .plain := by
  obtain ⟨_, u, hopen, hrun⟩ := run_bind.mp hrun
  have hmoves := Parse.moves _ hrun
  obtain ⟨inner, v, hinner, hrun⟩ := run_bind.mp hrun
  obtain ⟨_, w, hclose, hrun⟩ := run_bind.mp hrun
  cases hrun
  rw [Context.excluding_eq_self (by simp [hin])] at hinner
  have hopen := (expect_gives hopen).resolve_left fun hf => hmoves.faulty hf hclean
  have hclose := (expect_gives hclose).resolve_left (not_faulty hclean)
  obtain ⟨-, htoken, rfl⟩ := hopen
  exact ⟨htoken, v, hinner, hclose.2.1, hclose.2.2⟩

theorem condition_run {R : Recursion} (hin : ctx.has .withoutIn = false)
    (hopen : s.token = .openParenToken) (hclose : t.token = .closeParenToken)
    (hrun : (@expression R ctx).run (s.consume .plain) = some (n, t)) :
    (@condition R ctx).run s = some (n, t.consume .plain) := by
  have hctx : ctx.excluding [.withoutIn] = ctx := Context.excluding_eq_self (by simp [hin])
  rw [← hctx] at hrun
  refine run_bind.mpr ⟨true, _, expect_run hopen, run_bind.mpr ⟨n, t, hrun, ?_⟩⟩
  exact run_bind.mpr ⟨true, _, expect_run hclose, rfl⟩

/-- Where an expression is read without a diagnostic, the limit of nesting is not reached. -/
theorem expression_depth [s.Ready] (hclean : t.sink = ∅)
    (hrun : (@expression top ctx).run s = some (n, t)) : s.depth < nestingLimit := by
  obtain ⟨_, _, hmark, hrun⟩ := run_bind.mp hrun
  cases hmark
  obtain ⟨first, u, hfirst, hrest⟩ := run_bind.mp hrun
  rw [top_run] at hfirst
  exact (nested_clean ((Parse.moves _ hrest).sink_eq_empty hclean) hfirst).1

/-- What is read between parentheses two levels deeper is read where an operand is expected. -/
theorem assignment_rule_parenthesized [t.Ready] (hopen : s.token = .openParenToken)
    (hclose : t.token = .closeParenToken) (hdepth : s.depth + 1 < nestingLimit)
    (hn : n.isArrowParameters = false)
    (hrun : (@parenthesized (below (s.left * 8 + 2) top.recur) ctx).run s.deeper.deeper =
      some (n, t)) :
    (top.recur (.assignment ctx)).run s = some (n, t.shallower.shallower) := by
  have hunary : (top.recur (.unary ctx)).run s.deeper = some (n, t.shallower) := by
    rw [top_run]
    exact nested_run hdepth (@unary_parenthesized (below (s.left * 8 + 2) top.recur) _ _ _ _ _
      hopen hclose hrun)
  rw [top_run]
  refine nested_run (Nat.lt_of_succ_lt hdepth) (@assignment_parenthesized
    (below (s.left * 8 + 4) top.recur) _ _ _ _ _ hopen hclose hn ?_)
  exact (below_run (Nat.add_lt_add_left (show 2 < 4 by decide) _)).trans hunary

/-- Behind the present token, at the level at which the operand of an operator is read. -/
def ParseState.intoOperand (s : ParseState) : ParseState := (s.consume .plain).deeper.deeper

instance [s.Ready] : s.intoOperand.Ready :=
  inferInstanceAs (s.consume .plain).deeper.deeper.Ready

/-- Parentheses within the parentheses of a statement are transparent: what could be read there as
a condition is read as a parenthesized expression around the same node. -/
theorem condition_parenthesized {R : Recursion} [hs : s.Ready]
    (hR : (R.recur (.assignment ctx)).run (s.consume .plain) =
      (top.recur (.assignment ctx)).run (s.consume .plain))
    (hctx : ∀ m ∈ [Mode.withoutIn, .conditionalBranch, .decorator], ctx.has m = false)
    (hopen : s.token = .openParenToken)
    (hrun : (@condition top ctx).run s.intoOperand = some (n, t))
    (hclean : t.sink = ∅) (hclose : t.token = .closeParenToken)
    (hcover : ∀ p, OperandAt ctx s.intoOperand p → Coverable ctx p) :
    (@condition R ctx).run s = some
      (.mk { range := ⟨s.intoOperand.start.offset, t.full.offset⟩ } (.parenthesized n),
        t.shallower.shallower.consume .plain) := by
  have hin : ctx.has .withoutIn = false := hctx _ (by simp)
  obtain ⟨hinner, u, hexpression, hu, rfl⟩ := condition_clean hin hclean hrun
  have hready : (u.consume .plain).Ready := (Parse.moves _ hrun).ready inferInstance
  have hclean' : u.sink = ∅ := (Moves.single (.consume .plain u)).sink_eq_empty hclean
  have hdepth : s.depth + 1 + 1 < nestingLimit := expression_depth hclean' hexpression
  have helement (p : ParseState) (hp : p.left < (s.consume .plain).left) :
      ((below ((s.consume .plain).left * 8 + 2) top.recur).recur (.coverElement ctx)).run p =
        (top.recur (.coverElement ctx)).run p := by
    refine below_run ?_
    change p.left * 8 + 5 < _
    omega
  have hassignment := assignment_rule_parenthesized (s := s.consume .plain) hinner hclose
    (Nat.lt_of_succ_lt hdepth) rfl (parenthesized_run helement hin (Context.excluding_eq_self hctx)
      hcover hinner hu (by simp [hclose]) (by simp [hclose]) hclean hexpression)
  exact condition_run hin hopen hclose
    (@expression_single R _ _ _ _ _ (fun h => by cases hclose.symm.trans h)
    (hR.trans hassignment))

/-- Whether an operand begins with a name and is no conditional behind a name or a pattern. -/
def startsWithName (ctx : Context) (s : ParseState) : Bool :=
  s.token == .identifier &&
    ((@operand top ctx .comma).run s.deeper).all fun a => a.2.token != .questionToken

/-- A name begins no expression that can be nothing but an argument. -/
theorem startsArgument_not_name [s.Ready] (hs : s.token = .identifier) :
    (startsArgument ctx).run s.deeper ≠ some (true, t) := by
  intro hrun
  obtain ⟨_, _, hk, hrun⟩ := run_bind.mp hrun
  cases hk
  rw [show (fun s : ParseState => s.token) s.deeper = .identifier from hs] at hrun
  have hasync := ((startsAsyncArrow_reads (s := s.deeper).of_run hrun).2 rfl).2.1
  exact absurd (hs.symm.trans hasync) (by decide)

theorem Coverable.of_startsWithName [s.Ready] (h : startsWithName ctx s = true) :
    Coverable ctx s := by
  obtain ⟨htoken, hoperand⟩ := (Bool.and_eq_true _ _).mp h
  have hs : s.token = .identifier := eq_of_beq htoken
  refine ⟨by rw [hs]; rfl, by rw [ParseState.startsParameter, hs]; rfl,
    fun _ hless => absurd (hs.symm.trans hless) (by decide), fun left t hrun _ hquestion => ?_,
    fun t hrun => absurd hrun (startsArgument_not_name hs)⟩
  have hne := Option.all_eq_true _ _ |>.mp hoperand _ hrun
  simp [hquestion] at hne

end Conditions

/-! ## Statements -/

section Statements
variable {ctx : Context} {s t u : ParseState} {n body : Node}

theorem ifStatement_run [Recursion]
    (hcondition : (condition ctx).run (s.consume .plain) = some (n, t))
    (hbody : (recur (.statement ctx .branch)).run t = some (body, u))
    (helse : u.token ≠ .elseKeyword) :
    (ifStatement ctx).run s = some (.mk (u.header s.mark) (.ifStatement n body none), u) := by
  refine run_bind.mpr ⟨s.mark, s, rfl, run_bind.mpr ⟨(), _, rfl, ?_⟩⟩
  refine run_bind.mpr ⟨n, t, hcondition, run_bind.mpr ⟨body, u, hbody, ?_⟩⟩
  exact run_bind.mpr ⟨none, u, run_bind.mpr ⟨false, u, accept_run_ne helse, rfl⟩, rfl⟩

theorem statement_if [Recursion] {site : StatementSite} (hs : s.token = .ifKeyword)
    (hrun : (ifStatement ctx).run s = some (n, t)) : (statement ctx site).run s = some (n, t) := by
  refine run_bind.mpr ⟨s.mark, s, rfl, run_bind.mpr ⟨s.token, s, rfl, ?_⟩⟩
  rw [hs]
  exact hrun

theorem emptyStatement_rule (ctx : Context) (site : StatementSite)
    (hs : s.token = .semicolonToken) (hdepth : s.depth < nestingLimit) :
    (top.recur (.statement ctx site)).run s =
      some (.mk ((s.consume .plain).header s.mark) .emptyStatement, s.consume .plain) := by
  have hempty : (@statement (below (s.left * 8 + 5) top.recur) ctx site).run s.deeper = some
      (.mk ((s.consume .plain).header s.mark) .emptyStatement, s.deeper.consume .plain) := by
    refine run_bind.mpr ⟨s.mark, s.deeper, rfl, run_bind.mpr ⟨s.token, s.deeper, rfl, ?_⟩⟩
    rw [hs]
    rfl
  rw [top_run]
  exact nested_run hdepth hempty

/-- What begins like no declaration is a statement. -/
theorem declaration_run [Recursion] {m : Mark} (hs : s.token = .ifKeyword ∨ s.OnName) :
    (declaration ctx m).run s = (plainStatement ctx).run s := by
  have htoken {f : Kind → Parse Node} : (Parse.token >>= f).run s = (f s.token).run s := rfl
  rw [declaration, htoken]
  rcases hs with h | h | ⟨h, hflush, hopen⟩
  · rw [h]
  · rw [h]
  · rw [h]
    refine Option.ext fun ⟨n, t⟩ => ?_
    rw [run_bind, isBeforeFunction_run hflush (by simp [hopen])]
    exact ⟨fun ⟨_, _, heq, hrun⟩ => by cases heq; exact hrun, fun hrun => ⟨_, _, rfl, hrun⟩⟩

theorem item_run [Recursion] {inModule : Bool} (hs : s.token = .ifKeyword ∨ s.OnName) :
    (item inModule ctx).run s = (plainStatement ctx).run s := by
  have hne {k : Kind} (hk : k ≠ .ifKeyword ∧ k ≠ .identifier ∧ k ≠ .asyncKeyword) : s.token ≠ k :=
    hs.elim (fun h h' => hk.1 (h'.symm.trans h)) fun h => h.ne_of hk.2
  refine Option.ext fun ⟨n, t⟩ => ?_
  rw [← declaration_run (m := s.mark) hs]
  cases inModule with
  | false => exact Iff.rfl
  | true =>
    have hexport : (isAt .exportKeyword).run s = some (false, s) := isAt_run_ne (hne (by decide))
    have himport : (isAt .importKeyword <&&> isBeforeImport).run s = some (false, s) :=
      run_bind.mpr ⟨false, s, isAt_run_ne (hne (by decide)), rfl⟩
    change (moduleItem ctx).run s = _ ↔ _
    constructor
    · intro hrun
      obtain ⟨_, _, hmark, hrun⟩ := run_bind.mp hrun
      cases hmark
      obtain ⟨_, _, hno, hrun⟩ := run_bind.mp hrun
      cases hexport.symm.trans hno
      obtain ⟨_, _, hno, hrun⟩ := run_bind.mp hrun
      cases himport.symm.trans hno
      exact hrun
    · intro hrun
      refine run_bind.mpr ⟨s.mark, s, rfl, run_bind.mpr ⟨false, s, hexport, ?_⟩⟩
      exact run_bind.mpr ⟨false, s, himport, hrun⟩

/-- A statement that begins like no declaration, as an item of a list of statements. -/
theorem item_statement {inModule : Bool} (hs : s.token = .ifKeyword ∨ s.OnName)
    (hdepth : s.depth + 1 < nestingLimit)
    (hrun : (@statement (below (s.left * 8 + 5) top.recur) ctx .plain).run s.deeper.deeper =
      some (n, t)) :
    (top.recur (.item inModule ctx)).run s = some (n, t.shallower.shallower) := by
  have hstatement : (top.recur (.statement ctx .plain)).run s.deeper = some (n, t.shallower) := by
    rw [top_run]
    exact nested_run hdepth hrun
  have hplain : (@plainStatement (below (s.left * 8 + 7) top.recur) ctx).run s.deeper =
      some (n, t.shallower) :=
    (below_run (Nat.add_lt_add_left (show 5 < 7 by decide) _)).trans hstatement
  rw [top_run]
  refine nested_run (Nat.lt_of_succ_lt hdepth) ?_
  exact (@item_run _ s.deeper (below (s.left * 8 + 7) top.recur) _
    (hs.imp_right (·.deeper))).trans hplain

/-- A list of statements that consists of a single one. -/
theorem statementList_single {inModule : Bool} (directives : Bool) [hs : s.Ready]
    (hstart : s.token.canStartStatement = true) (hend : t.token = .endOfFileToken)
    (hplain : n.directiveText? = none)
    (hrun : (top.recur (.item inModule ctx)).run s = some (n, t)) :
    (@statementList top ctx inModule directives fun _ => false).run s = some ([n], t) := by
  have hm := Parse.moves _ hrun
  have hready : t.Ready := hm.ready hs
  have hne : s.token ≠ .endOfFileToken := fun h => by simp [h] at hstart; cases hstart
  have hlt : t.left < s.left := by
    have hs0 := mt hs.ended_iff.mpr hne
    have ht0 := hready.ended_iff.mp hend
    omega
  have hmoved : s.start.offset < t.start.offset := (hm.offset_lt_iff hs).mpr hlt
  have hitem (b : Body) (hb : b.ctx = ctx) :
      (@bodyTurn top inModule (fun _ => false) b).run s = some (.again (b.push n), t) := by
    have hcheck : (b.check n).run t = some ((), t) := by
      unfold Body.check Body.directive?
      rw [hplain, ite_self]
      rfl
    have hunmoved : (ifUnmoved s.start.offset (skip .expression)).run t = some ((), t) := by
      refine run_bind.mpr ⟨t.start.offset, t, rfl, ?_⟩
      rw [if_neg (by simpa using Nat.ne_of_gt hmoved)]
      rfl
    refine run_bind.mpr ⟨s.token, s, rfl, ?_⟩
    rw [if_neg (by simp [hne]), if_pos hstart]
    refine run_bind.mpr ⟨s.start.offset, s, rfl, run_bind.mpr ⟨n, t, hb ▸ hrun, ?_⟩⟩
    exact run_bind.mpr ⟨(), t, hcheck, run_bind.mpr ⟨(), t, hunmoved, rfl⟩⟩
  have hdone (b : Body) :
      (@bodyTurn top inModule (fun _ => false) b).run t = some (.done b, t) := by
    refine run_bind.mpr ⟨t.token, t, rfl, ?_⟩
    rw [if_pos (by simp [hend])]
    rfl
  have hstatements : ((Body.mk ctx directives #[]).push n).statements.toList = [n] := by simp
  exact run_bind.mpr ⟨_, t, loop_of_looped (.again (hitem _ rfl) hmoved (.done (hdone _))),
    congrArg (fun l => some (l, t)) hstatements⟩

/-- Where the condition of a statement begins, behind the first token of an item. -/
def ParseState.conditionStart (s : ParseState) : ParseState := s.deeper.deeper.consume .plain

instance [s.Ready] : s.conditionStart.Ready :=
  inferInstanceAs (s.deeper.deeper.consume .plain).Ready

/-- A statement whose condition stands between parentheses of its own. -/
theorem item_parenthesized (inModule : Bool) [hs : s.Ready] (hdepth : s.depth + 2 < nestingLimit)
    (hctx : ∀ m ∈ [Mode.withoutIn, .conditionalBranch, .decorator], ctx.has m = false)
    (hif : s.token = .ifKeyword)
    (hopen : s.conditionStart.token = .openParenToken)
    (hrun : (@condition top ctx).run s.conditionStart.intoOperand = some (n, t))
    (hclean : t.sink = ∅) (hclose : t.token = .closeParenToken)
    (hempty : (t.consume .plain).token = .semicolonToken)
    (helse : ((t.consume .plain).consume .plain).token ≠ .elseKeyword)
    (hcover : ∀ p, OperandAt ctx s.conditionStart.intoOperand p → Coverable ctx p) :
    ∃ header whenTrue, (top.recur (.item inModule ctx)).run s = some
      (.mk header (.ifStatement (.mk { range :=
          ⟨s.conditionStart.intoOperand.start.offset, t.full.offset⟩ }
        (.parenthesized n)) whenTrue none),
        ((t.shallower.shallower.consume .plain).consume .plain).shallower.shallower) := by
  have hlt : s.conditionStart.left < s.left :=
    consume_left_lt (s := s.deeper.deeper) .plain fun h => by cases hif.symm.trans h
  have hlt' : (s.conditionStart.consume .plain).left <
      s.conditionStart.left := consume_left_lt .plain (by simp [hopen])
  have hassignment : ((below (s.left * 8 + 5) top.recur).recur (.assignment ctx)).run
      (s.conditionStart.consume .plain) =
        (top.recur (.assignment ctx)).run (s.conditionStart.consume .plain) := by
    refine below_run ?_
    change _ * 8 + 4 < _
    omega
  have hcondition := condition_parenthesized hassignment hctx hopen hrun hclean hclose hcover
  have hmoves := Parse.moves _ hcondition
  have hle := hmoves.left_le inferInstance
  have hweight : (t.shallower.shallower.consume .plain).left * 8 + 5 < s.left * 8 + 5 := by omega
  have hbody := (below_run hweight).trans (emptyStatement_rule ctx .branch
    (s := t.shallower.shallower.consume .plain) hempty
    (hmoves.depth_eq ▸ hdepth : _ < nestingLimit))
  have hstatement := @ifStatement_run _ s.deeper.deeper _ _ _ _ (below (s.left * 8 + 5) top.recur)
    hcondition hbody helse
  have hplain := @statement_if _ s.deeper.deeper _ _ (below (s.left * 8 + 5) top.recur) .plain hif
    hstatement
  exact ⟨_, _, item_statement (.inl hif) (Nat.lt_of_succ_lt hdepth) hplain⟩

end Statements

/-! ## Whole sources -/

/-- The modes that a parenthesis would take away are not there at the top. -/
theorem Context.ofOptions_argument (options : ParseOptions) :
    ∀ m ∈ [Mode.withoutIn, .conditionalBranch, .decorator],
      (Context.ofOptions options).has m = false := by
  obtain ⟨goal, webCompat, impliedStrict, jsx⟩ := options
  cases goal <;> cases webCompat <;> cases impliedStrict <;> cases jsx <;> decide

/-- The condition of the only statement of a source. -/
def Node.soleCondition? (root : Node) : Option Node :=
  match root.form with
  | .sourceBody _ [statement] =>
    match statement.form with
    | .ifStatement condition _ _ => some condition
    | _ => none
  | _ => none

/-- A source that consists of a single statement. -/
theorem parse_of_item {text : String} {options : ParseOptions} {n : Node} {t : ParseState}
    (hstart : (ParseState.firstToken text.toList).token.canStartStatement = true)
    (hend : t.token = .endOfFileToken) (hplain : n.directiveText? = none)
    (hrun : (top.recur (.item (Context.ofOptions options).isModule (.ofOptions options))).run
      (.firstToken text.toList) = some (n, t)) :
    parse text options =
      ⟨.mk (rootHeader text t.flush.sink) (.sourceBody options.goal [n]), t.flush.sink⟩ := by
  have hstatements := statementList_single true hstart hend hplain hrun
  have hfirst : advanceToExpression.run (.ofText text.toList) =
      some ((), ParseState.firstToken text.toList) := rfl
  have hsource : run text options = some ([n], t.flush) :=
    run_bind.mpr ⟨(), _, hfirst, run_bind.mpr ⟨[n], t, hstatements, rfl⟩⟩
  rw [parse, hsource]

/-- Where the condition of the first statement of a text begins within another parenthesis. -/
def innerStart (text : String) : ParseState :=
  (ParseState.firstToken text.toList).conditionStart.intoOperand

instance (text : String) : (innerStart text).Ready :=
  inferInstanceAs (ParseState.firstToken text.toList).conditionStart.intoOperand.Ready

/-- A statement whose condition stands between parentheses of its own is read without a diagnostic,
and its condition is a parenthesized expression around what could be read as the condition without
them. -/
theorem parse_parenthesized {text : String} {options : ParseOptions} {n : Node} {t : ParseState}
    (hif : (ParseState.firstToken text.toList).token = .ifKeyword)
    (hopen : (ParseState.firstToken text.toList).conditionStart.token = .openParenToken)
    (hrun : (@condition top (.ofOptions options)).run (innerStart text) = some (n, t))
    (hclose : t.token = .closeParenToken)
    (hempty : (t.consume .plain).token = .semicolonToken)
    (hend : ((t.consume .plain).consume .plain).token = .endOfFileToken)
    (hclean : ((t.consume .plain).consume .plain).flush.sink = ∅)
    (hcover : ∀ p, OperandAt (.ofOptions options) (innerStart text) p →
      Coverable (.ofOptions options) p) :
    (parse text options).diagnostics = ∅ ∧
      (parse text options).root.soleCondition? = some (.mk
        { range := ⟨(innerStart text).start.offset, t.full.offset⟩ }
        (.parenthesized n)) := by
  unfold innerStart at hrun hcover ⊢
  have hmoves : Moves t ((t.consume .plain).consume .plain).flush :=
    .cons (.consume .plain t) (.cons (.consume .plain _) (.single (.flush _)))
  have hdepth : (ParseState.firstToken text.toList).depth + 2 < nestingLimit :=
    show 0 + 2 < 500 by decide
  obtain ⟨header, whenTrue, hitem⟩ := item_parenthesized (Context.ofOptions options).isModule hdepth
    (Context.ofOptions_argument options) hif hopen hrun (hmoves.sink_eq_empty hclean) hclose hempty
    (by simp [hend]) hcover
  have hstart : (ParseState.firstToken text.toList).token.canStartStatement = true := by
    rw [hif]
    rfl
  rw [parse_of_item hstart
    (t := ((t.shallower.shallower.consume .plain).consume .plain).shallower.shallower) hend rfl
    hitem]
  exact ⟨hclean, rfl⟩

/-- Two names joined by a comma. -/
theorem pair_parenthesized : ∃ n : Node, n.kind = .binaryExpression ∧
    (parse "if ((a, b));" {}).diagnostics = ∅ ∧
    (parse "if ((a, b));" {}).root.soleCondition? =
      some (.mk { range := ⟨4, 10⟩ } (.parenthesized n)) := by
  have hread : ((@condition top (.ofOptions {})).run (innerStart "if ((a, b));")).any (fun a =>
      a.1.kind == .binaryExpression && a.2.full.offset == 10 && a.2.token == .closeParenToken &&
        (a.2.consume .plain).token == .semicolonToken &&
        ((a.2.consume .plain).consume .plain).token == .endOfFileToken &&
        ((a.2.consume .plain).consume .plain).flush.sink == ∅) = true := by
    decide +kernel
  have hoperands : ((top.recur (.assignment (.ofOptions {}))).run
      ((innerStart "if ((a, b));").consume .plain)).any (fun a =>
        startsWithName (.ofOptions {}) (a.2.consume .plain) &&
          ((top.recur (.assignment (.ofOptions {}))).run (a.2.consume .plain)).any fun b =>
            b.2.token != .commaToken) = true := by decide +kernel
  obtain ⟨⟨n, t⟩, hrun, htest⟩ := (Option.any_eq_true _ _).mp hread
  obtain ⟨⟨a, u⟩, ha, hsecond⟩ := (Option.any_eq_true _ _).mp hoperands
  obtain ⟨hname, hsecond⟩ := (Bool.and_eq_true _ _).mp hsecond
  obtain ⟨⟨b, v⟩, hb, hlast⟩ := (Option.any_eq_true _ _).mp hsecond
  have hat (p : ParseState) (hp : OperandAt (.ofOptions {}) (innerStart "if ((a, b));") p) :
      p = (innerStart "if ((a, b));").consume .plain ∨ p = u.consume .plain := by
    induction hp with
    | first => exact .inl rfl
    | next _ hnext hcomma ih =>
      rcases ih with rfl | rfl
      · cases ha.symm.trans hnext
        exact .inr rfl
      · cases hb.symm.trans hnext
        simp [hcomma] at hlast
  have hcover (p : ParseState) (hp : OperandAt (.ofOptions {}) (innerStart "if ((a, b));") p) :
      Coverable (.ofOptions {}) p := by
    have := (Parse.moves _ ha).ready inferInstance
    rcases hat p hp with rfl | rfl
    · exact .of_startsWithName (by decide +kernel)
    · exact .of_startsWithName hname
  simp only [Bool.and_eq_true, beq_iff_eq] at htest
  obtain ⟨⟨⟨⟨⟨hkind, hfull⟩, hclose⟩, hempty⟩, hend⟩, hclean⟩ := htest
  have hstart : (innerStart "if ((a, b));").start.offset = 4 := by decide +kernel
  have hpair := parse_parenthesized (by decide +kernel) (by decide +kernel) hrun hclose hempty hend
    hclean hcover
  rw [hstart, hfull] at hpair
  exact ⟨n, hkind, hpair⟩

/-- A class with a decorator is a condition, but it is rejected between parentheses. -/
theorem decorated_not_parenthesized :
    (parse "if (@d class \x7b\x7d);" {}).diagnostics = ∅ ∧
    (parse "if (@d class \x7b\x7d);" {}).root.soleCondition?.map Node.range = some ⟨4, 15⟩ ∧
    (parse "if ((@d class \x7b\x7d));" {}).diagnostics ≠ ∅ ∧
    ∀ d ∈ (parse "if ((@d class \x7b\x7d));" {}).diagnostics.toList,
      d.isOf .nestingTooDeep = false :=
  ⟨by decide +kernel, by decide +kernel, by decide +kernel, by decide +kernel⟩

end EcmaSyntax
