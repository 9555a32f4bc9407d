import EcmaSyntax.Proofs.Grammar.Operator

/-! # Reading elements of parenthesized lists

An element begins at its dots, if there are any, and its operand behind them. A parameter and an
argument are made of the whole, a conditional or an assignment of the operand alone. -/
namespace EcmaSyntax.Grammar
open Parse ParseState Part

/-- Where an element and its operand begin. -/
structure ElementStart.At (e : ElementStart) (r r₀ : ParseState) : Prop where
  outer : e.m.At r
  inner : e.inner.At r₀
  moves : Moves r r₀
  plain : e.isRest = false → r₀ = r

variable [Recursion] {W : Nat} [Lawful W] {r r₀ s t : ParseState} [r.Ready] [r₀.Ready] [s.Ready]
variable {ctx : Context} {e : ElementStart} {n : Node}

omit [Recursion] [r.Ready] in
theorem ElementStart.At.ofPlain {m : Mark} (hm : m.At r) :
    ElementStart.At ⟨m, none⟩ r r := ⟨hm, hm, .refl r, fun _ => rfl⟩

omit [Recursion] [r₀.Ready] in
/-- An argument that can be a parameter only if it is a name or a pattern. -/
theorem argumentOf_reads {c : Certainty} (he : e.At r r₀) (hn : Built r₀ ⟨.coverArgument, ctx, n⟩ s)
    (hpattern : c.isPossible = true → n.isIdentifierOrPattern = true) :
    (do return (← argumentOf e n, c) : Parse (Node × Certainty)).Reads s
      fun a t => ReadElement .covered ctx r a t := by
  have hargument : (argumentOf e n).Reads s fun n' t =>
      Built r ⟨.covered, ctx, n'⟩ t ∧ (c.isPossible = true → n'.endsParameters = true) := by
    refine .ite (fun _ => ?_) fun h => .pure ⟨?_, fun hc => ?_⟩
    · have hc := hn.toExtends.after he.moves
      refine (node_reads he.outer hc .coverSpread (hc.fruitful nofun) (fun _ => rfl) rfl).mono
        fun n' _ hn' => ⟨hn'.2.2, fun _ => ?_⟩
      simp [Node.endsParameters, Node.isSpread, hn'.2.1]
    · have hr := he.plain (Bool.eq_false_iff.mpr h)
      exact hr ▸ hn.choose (by simp)
    · rw [Node.endsParameters, Node.isParameterShaped_of_pattern (hpattern hc), Bool.true_or]
  exact hargument.bind fun _ _ _ _ _ h => .pure ⟨h.1, h.2⟩

theorem coverConditional_reads {m : Mark} (hb : s.left * 8 ≤ W) (ht : s.token = .questionToken)
    (hm : m.At r) (hpattern : n.isIdentifierOrPattern = true)
    (hn : Built r ⟨.operand .comma, ctx, n⟩ s) :
    (coverConditional ctx m n).Reads s fun answer t =>
      ∀ n ∈ answer, Built r ⟨.coverArgument, ctx, n⟩ t := by
  refine (expect_here (by decide) ht).bind fun _ t _ hmt _ hlt => ?_
  have hlt := hlt.2
  refine (assignment_rule (by omega)).bind fun whenTrue u _ _ hl hwhenTrue => ?_
  refine .ifAccept (by decide) (fun v _ hmv _ hl' => ?_) fun _ => .pure nofun
  refine (assignment_rule (by omega)).bind fun whenFalse w _ _ _ hwhenFalse => ?_
  have hc := (((hn.toExtends.move hmt).part hwhenTrue).move hmv).part hwhenFalse
  refine (node_built hm hc (.coverConditional hpattern) (hc.fruitful (by simp)) (fun _ => rfl) rfl).bind
    fun n x _ _ _ hn => .pure fun n' h => ?_
  cases h
  exact hn

/-- An element that is a parameter, behind its binding. -/
theorem parameterElement_reads {optional : Bool} (hb : s.left * 8 ≤ W) (hm : e.m.At r)
    (hn : Extends r [⟨.parameterBinding, ctx, n⟩] s) :
    (parameterElement ctx e n optional).Reads s fun a t => ReadElement .covered ctx r a t := by
  refine (parameterTail_shaped hb hm hn).bind fun parameter t _ _ _ hparameter => .pure ?_
  obtain ⟨hparameter, hform⟩ := hparameter
  exact ⟨hparameter.choose (by simp), fun _ => by rw [Node.endsParameters, hform, Bool.true_or]⟩

omit [Recursion] [r.Ready] [r₀.Ready] in
theorem nextToken_reads : nextToken.Reads s fun _ t => t = s.flush := by
  refine (lookAhead_reads (P := fun _ => True) ?_).mono fun _ _ h => h.1
  exact advance_run.bind fun _ _ _ _ _ _ => .observe trivial

omit [r.Ready] in
theorem coverConditional?_reads (hb : s.left * 8 ≤ W) (ht : s.token = .questionToken)
    (hm : e.inner.At r₀) (hpattern : n.isIdentifierOrPattern = true)
    (hn : Built r₀ ⟨.operand .comma, ctx, n⟩ s) :
    (coverConditional? ctx e n).Reads s fun answer t =>
      (answer = none → s.Still t) ∧ ∀ n ∈ answer, Built r₀ ⟨.coverArgument, ctx, n⟩ t := by
  refine nextToken_reads.bind fun k t _ hmt _ h => .ite (fun _ => ?_) fun _ => ?_
  · subst h
    have hmt' : Moves s.flush s.flush.flush := .single (.flush _)
    refine (attempt_reads (coverConditional_reads (s := s.flush.flush) hb ht hm hpattern
      (hn.move_still (hmt.trans hmt') rfl))).mono fun answer u h => ?_
    rcases h with ⟨rfl, rfl⟩ | ⟨hsome, h⟩
    · exact ⟨fun _ => rfl, nofun⟩
    · exact ⟨fun heq => by simp [heq] at hsome, h⟩
  · exact .pure ⟨fun _ => h ▸ rfl, nofun⟩

theorem questionedElement_reads (hb : s.left * 8 ≤ W) (ht : s.token = .questionToken)
    (he : e.At r r₀) (hbinding : n.isIdentifierOrPattern = true)
    (hn : Built r₀ ⟨.operand .comma, ctx, n⟩ s) :
    (questionedElement ctx e n).Reads s fun a t => ReadElement .covered ctx r a t := by
  refine (coverConditional?_reads hb ht he.inner hbinding hn).bind fun answer t _ hmt hl h => ?_
  cases answer with
  | some value => exact argumentOf_reads he (h.2 value rfl) nofun
  | none =>
    refine advance_run.bind fun _ u _ hmu hl' _ => ?_
    have hbinding : Built r₀ ⟨.parameterBinding, ctx, n⟩ s := hn.serve (.binding hbinding)
    have hc := (hbinding.toExtends.after he.moves).move (hmt.trans hmu)
    exact parameterElement_reads (by omega) he.outer hc

omit [r.Ready] [r₀.Ready] [Recursion] in
theorem closesParameters_reads {k : Kind} :
    (closesParameters e k).Reads s fun _ t => s.Still t :=
  (peek_reads tokenIs_reads isAt_reads.said).mono fun _ _ h => h.1

/-- A name or a pattern that has been read since the start of its operand. -/
theorem bindingElement_reads (hb : s.left * 8 ≤ W)
    (hb' : n.isArrowParameters = true → s.left * 8 + 5 ≤ W) (he : e.At r r₀)
    (hbinding : n.isIdentifierOrPattern = true) (hn : Built r₀ ⟨.operand .comma, ctx, n⟩ s) :
    (bindingElement ctx e n).Reads s fun a t => ReadElement .covered ctx r a t := by
  have hparameter : Built r₀ ⟨.parameterBinding, ctx, n⟩ s := hn.serve (.binding hbinding)
  have hc := hparameter.toExtends.after he.moves
  have hargument : Built r₀ ⟨.coverArgument, ctx, n⟩ s := hn.serve (.coverOperand hbinding)
  refine .look ?_
  split
  case h_1 _ h => exact questionedElement_reads hb h he hbinding hn
  case h_2 | h_3 => exact parameterElement_reads hb he.outer hc
  case h_4 ht he' =>
    have hr := he.plain he'
    have hn : Built r ⟨.operand .comma, ctx, n⟩ s := hr ▸ hn
    refine (assignmentRest_default hb ht hbinding he.outer hn).bind
      fun value t _ _ _ hvalue => .pure ⟨?_, fun _ => ?_⟩
    · have hbuilt : Built r ⟨.coverArgument, ctx, value⟩ t := hvalue.1.choose (by simp)
      exact hbuilt.choose (by simp)
    · rw [Node.endsParameters, hvalue.2, Bool.true_or]
  case h_5 he' =>
    have hr := he.plain he'
    have hn : Built r ⟨.operand .comma, ctx, n⟩ s := hr ▸ hn
    refine (assignmentRest_reads hb hb' he.outer hn).bind
      fun value t _ _ _ hvalue => .pure ⟨?_, fun h => by cases h⟩
    have hbuilt : Built r ⟨.coverArgument, ctx, value⟩ t := hvalue.choose (by simp)
    exact hbuilt.choose (by simp)
  case h_6 =>
    refine .ite (fun _ => ?_) fun _ => ?_
    · refine (assignmentRest_reads hb hb' he.inner hn).bind fun value t _ _ _ hvalue => ?_
      exact argumentOf_reads he (hvalue.choose (by simp)) fun h => by cases h
    refine closesParameters_reads.bind fun b t _ hmt _ _ => .ite (fun _ => ?_) fun _ => ?_
    · have hc := hc.move hmt
      have hp : Production t.Faulty .formalParameter ctx
          (.formalParameter [] true n false none none) [⟨.parameterBinding, ctx, n⟩] :=
        .formalParameter
      refine (node_reads he.outer hc hp (hc.fruitful (by simp)) (fun _ => rfl) rfl).bind
        fun parameter _ _ _ _ hn => .pure ⟨hn.2.2.choose (by simp), fun _ => ?_⟩
      simp [Node.endsParameters, Node.isParameterShaped, hn.2.1]
    · have hargument := hargument.move hmt fun h => absurd h Bool.false_ne_true
      exact argumentOf_reads he hargument fun _ => hbinding

theorem plainElement_reads (hb : s.left * 8 + 3 ≤ W) (he : e.At r r₀) (hm : Moves r₀ s)
    (hs : r₀.Still s) :
    (plainElement ctx e).Reads s fun a t => ReadElement .covered ctx r a t := by
  refine (operand_reads hb).bind fun left t _ _ hl hleft => ?_
  have hb' : left.isArrowParameters = true → t.left * 8 + 5 ≤ W := fun harrow => by
    have hlt := hleft.1.consumed harrow
    omega
  have hleft := hleft.1.after_still hm hs
  refine .ite (fun h => bindingElement_reads (by omega) hb' he h hleft) fun _ => ?_
  refine (assignmentRest_reads (by omega) hb' he.inner hleft).bind fun value u _ _ _ hvalue => ?_
  exact argumentOf_reads he (hvalue.choose (by simp)) nofun

theorem modifiedParameter_reads {m : Mark} (hb : s.left * 8 ≤ W) (hm : m.At r) (hr : Moves r s) :
    (modifiedParameter ctx m).Reads s fun a t => ReadElement .covered ctx r a t := by
  refine parameterModifiers_reads.bind fun modifiers t _ hmt hl _ => ?_
  refine (bindingName_reads (by omega)).bind fun binding u _ _ hl' hbinding => ?_
  refine (accept_reads (by decide)).bind fun optional v _ hmv hl'' _ => ?_
  have hbinding : Built t ⟨.parameterBinding, ctx, binding⟩ u := hbinding.choose (by simp)
  have hc := (hbinding.toExtends.after (hr.trans hmt)).move hmv
  exact parameterElement_reads (e := ⟨m.withModifiers modifiers, none⟩) (by omega)
    (hm.withModifiers modifiers) hc

omit [Recursion] [r.Ready] [r₀.Ready] in
theorem startsArgument_reads : (startsArgument ctx).Reads s fun _ t => s.Still t := by
  refine .look ?_
  split
  case h_1 | h_2 => exact .pure (.refl s)
  case h_3 => exact startsAsyncArrow_reads.mono fun _ _ h => h.1

theorem coverElement_reads (hb : s.left * 8 + 5 ≤ W) :
    (coverElement ctx).Reads s fun a t => ReadElement .covered ctx s a t := by
  refine .look (.look (.ite (fun _ => ?_) fun _ => ?_))
  · refine reportHere_reads.bind fun _ t _ hmt _ hr => ?_
    refine (missing_reads .covered ctx hr.faulty (.nil (.refl t)) .argument fun _ => rfl).bind
      fun n u _ _ _ hn => .pure ⟨hn.2.after hmt nofun, nofun⟩
  refine (peek_reads tokenIs_reads onSameLine_reads.said).bind fun b t _ hmt hl h => ?_
  refine .ite (fun _ => modifiedParameter_reads (by omega) (.mark s) hmt) fun _ => ?_
  refine .ite (fun hdots => ?_) fun _ => ?_
  · have hne : t.token ≠ .endOfFileToken := h.1.token_eq.trans (eq_of_beq hdots) ▸ by decide
    refine (advance_reads hne).bind fun _ u _ hmu _ hlt => .look ?_
    exact plainElement_reads (by omega) ⟨.mark s, .mark u, hmt.trans hmu, nofun⟩ (.refl u) (.refl u)
  refine startsArgument_reads.bind fun b' u _ hmu hl' h' => .ite (fun _ => ?_) fun _ => ?_
  · refine (assignment_rule (by omega)).bind fun value v _ _ _ hvalue => .pure ⟨?_, nofun⟩
    have hvalue : Built u ⟨.coverArgument, ctx, value⟩ v := hvalue.choose (by simp)
    have hvalue : Built u ⟨.covered, ctx, value⟩ v := hvalue.choose (by simp)
    exact hvalue.after (hmt.trans hmu) nofun
  · exact plainElement_reads (by omega) (.ofPlain (.mark s)) (hmt.trans hmu) (h.1.trans h')

end EcmaSyntax.Grammar
