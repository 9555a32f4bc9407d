import EcmaSyntax.Proofs.Grammar.Literal

/-! # Reading parameters

Types and defaults follow a token of their own, so that a parameter itself costs no more than its
name. -/
namespace EcmaSyntax.Grammar
open Parse ParseState Part

section Modifiers
variable {s : ParseState} [s.Ready]

/-- Modifiers are read, whatever the test of what follows them. -/
theorem modifiers_reads {isModifier : Kind → Bool} {isBefore : Kind → Parse Bool}
    (hend : isModifier .endOfFileToken = false)
    (hbefore : ∀ (k : Kind) (t : ParseState) [t.Ready], (isBefore k).Reads t fun _ _ => True) :
    (modifiers isModifier isBefore).Reads s fun _ _ => True := by
  refine loop_reads (fun _ _ => True) trivial fun found t _ _ _ _ => .look (.ite (fun hk => ?_) ?_)
  · have hne : t.token ≠ .endOfFileToken := fun h => by
      rw [h, hend] at hk
      cases hk
    refine (nextIs_reads (hbefore _ _)).bind fun b u _ _ _ h => .ite (fun _ => ?_) ?_
    · obtain ⟨rfl, -⟩ := h
      exact (advance_reads (s := t.flush) hne).bind fun _ v _ _ _ hlt => .pure ⟨hlt, trivial⟩
    · exact fun _ => .pure trivial
  · exact fun _ => .pure trivial

theorem parameterModifiers_reads : parameterModifiers.Reads s fun _ _ => True :=
  modifiers_reads rfl fun _ _ _ => onSameLine_reads.mono fun _ _ _ => trivial

end Modifiers

variable [Recursion] {W : Nat} [Lawful W] {s t : ParseState} [s.Ready] {ctx : Context}

theorem typeAscription_reads (hb : s.left * 8 ≤ W) :
    (typeAscription ctx).Reads s fun n t => Extends s (opt .type ctx n) t :=
  behind_opt (by decide) fun _ _ _ _ => type_rule (by omega)

theorem initializer_reads (hb : s.left * 8 ≤ W) :
    (initializer ctx).Reads s fun n t => Extends s (opt .assignment ctx n) t :=
  behind_opt (by decide) fun _ _ _ _ => assignment_rule (by omega)

theorem decorator_reads (hb : s.left * 8 ≤ W) (ht : s.token = .atToken) :
    (decorator ctx).Reads s fun n t => Built s ⟨.decorator, ctx, n⟩ t ∧ t.left < s.left := by
  refine .look ((advance_reads (ht ▸ by decide)).bind fun _ t _ hm _ hlt => ?_)
  refine (leftHandSide_rule (by omega)).bind fun inner u _ _ hl hinner => ?_
  have hlt : u.left < s.left := by omega
  refine (node_reads (.mark s) (hinner.toExtends.after hm) .decorator (.inl hlt) (fun _ => rfl) rfl).mono
    fun n v hn => ?_
  obtain ⟨rfl, -, hn⟩ := hn
  exact ⟨hn, hlt⟩

theorem decorators_reads (hb : s.left * 8 ≤ W) :
    (decorators ctx).Reads s fun ds t => Extends s (all .decorator ctx ds) t := by
  refine collect_reads _ _ fun found t _ _ hl hfound => ?_
  refine .ifAt (fun h => ?_) fun _ => .pure hfound
  refine (decorator_reads (by omega) h).bind fun n u _ _ _ hn => ?_
  exact .pure ⟨hn.2, hfound.all_push hn.1⟩

/-- A parameter whose binding has been read since its mark. -/
theorem parameterTail_shaped {head : ParameterHead} [t.Ready] (hb : t.left * 8 ≤ W)
    (hm : head.m.At s)
    (hc : Extends s (all .decorator ctx head.decorators
      ++ [⟨.parameterBinding, ctx, head.binding⟩]) t) :
    (parameterTail ctx head).Reads t fun n u =>
      Built s ⟨.formalParameter, ctx, n⟩ u ∧ n.isParameterShaped = true := by
  refine (typeAscription_reads hb).bind fun type u _ _ hl htype => ?_
  refine (initializer_reads (by omega)).bind fun value v _ _ _ hvalue => ?_
  have hc' := (hc.append htype).append hvalue
  refine (node_reads hm hc' .formalParameter (hc'.fruitful (by simp)) (fun _ => rfl) rfl).mono
    fun n _ hn => ⟨hn.2.2, ?_⟩
  rw [Node.isParameterShaped, hn.2.1]

theorem parameterTail_reads {head : ParameterHead} [t.Ready] (hb : t.left * 8 ≤ W)
    (hm : head.m.At s)
    (hc : Extends s (all .decorator ctx head.decorators
      ++ [⟨.parameterBinding, ctx, head.binding⟩]) t) :
    (parameterTail ctx head).Reads t fun n u => Built s ⟨.formalParameter, ctx, n⟩ u :=
  (parameterTail_shaped hb hm hc).mono fun _ _ h => h.1

theorem parameterBinding_reads (hb : s.left * 8 ≤ W) :
    (parameterBinding ctx).Reads s fun n t => Built s ⟨.parameterBinding, ctx, n⟩ t := by
  refine .ifAt (fun h => ?_) fun _ => (bindingName_reads hb).mono fun _ _ hn => hn.choose (by simp)
  exact (identifierToken_reads (.thisName h) (h ▸ by decide)).mono fun _ _ hn => hn.1.choose (by simp)

theorem formalParameter_reads (hb : s.left * 8 ≤ W) :
    (formalParameter ctx).Reads s fun n t => Built s ⟨.formalParameter, ctx, n⟩ t := by
  refine .look ((decorators_reads hb).bind fun ds t _ _ _ hds => ?_)
  refine parameterModifiers_reads.bind fun modifiers u _ hm hl _ => ?_
  refine (accept_reads (by decide)).bind fun rest v _ hm' hl' _ => ?_
  refine (parameterBinding_reads (by omega)).bind fun binding w _ _ hl'' hbinding => ?_
  refine (accept_reads (by decide)).bind fun optional x _ hm'' hl''' _ => ?_
  have hc := (((hds.move hm).move hm').part hbinding).move hm''
  exact parameterTail_reads (by omega) ((Mark.At.mark s).withModifiers modifiers) hc

/-! ## Lists of parameters -/

omit [Recursion] [s.Ready] in
theorem checkRestLast_reads {before : Array Node} :
    (checkRestLast before).Reads s fun _ t => s.Still t := by
  unfold checkRestLast
  split
  · exact .pure (.refl s)
  · exact .ite (fun _ => reportAt_reads.mono fun _ _ h => h.still) fun _ => .pure (.refl s)

omit [Recursion] [s.Ready] in
theorem checkTrailingComma_reads {l : Listed} :
    (checkTrailingComma l).Reads s fun _ t => s.Still t := by
  unfold checkTrailingComma
  split
  · exact .pure (.refl s)
  · exact .ite (fun _ => reportAt_reads.mono fun _ _ h => h.still) fun _ => .pure (.refl s)

theorem listedParameter_reads {before : Array Node} (hb : s.left * 8 ≤ W) :
    (listedParameter ctx before).Reads s fun answer t =>
      ∀ n ∈ answer, Built s ⟨.formalParameter, ctx, n⟩ t := by
  refine .look (.ite (fun _ => ?_) fun _ => ?_)
  · refine checkRestLast_reads.bind fun _ t _ hm hl _ => ?_
    refine (formalParameter_reads (by omega)).bind fun n u _ _ _ hn => .pure fun n' h => ?_
    cases h
    exact hn.after hm nofun
  · exact reportHere_reads.bind fun _ _ _ _ _ _ => .pure nofun

theorem parameterList_reads (hb : s.left * 8 ≤ W) :
    (parameterList ctx).Reads s fun l t => Extends s (all .formalParameter ctx l.toList) t := by
  refine (commaList_reads fun _ t _ _ hl => listedParameter_reads (by omega)).bind
    fun l t _ _ _ h => ?_
  exact checkTrailingComma_reads.bind fun _ u _ hm _ _ => .pure (h.move hm)

theorem formalParameters_reads (hb : s.left * 8 ≤ W) :
    (formalParameters ctx).Reads s fun n t => Built s ⟨.formalParameters, ctx, n⟩ t := by
  refine .look ((within_reads (by decide) (by decide) rfl
    fun t _ _ _ => parameterList_reads (by omega)).bind fun l t _ _ _ h => ?_)
  exact node_built (.mark s) h.1 .formalParameters h.2.1 (fun _ => rfl) rfl

end EcmaSyntax.Grammar
