import EcmaSyntax.Proofs.Grammar.Function

/-! # Reading classes

A member of a class is met without any token, but it meets nothing else before its own first
token. -/
namespace EcmaSyntax.Grammar
open Parse ParseState Part
variable [Recursion] {W : Nat} [Lawful W] {r s t : ParseState} [r.Ready] [s.Ready] {ctx : Context}

omit [Recursion] in
theorem classModifiers_reads : classModifiers.Reads s fun _ _ => True := by
  refine modifiers_reads rfl fun k t _ => .ite (fun _ => ?_) fun _ => ?_
  · exact tokenIs_reads.mono fun _ _ _ => trivial
  · exact onSameLine_reads.mono fun _ _ _ => trivial

/-! ## Members -/

theorem staticBlock_reads {m : Mark} (hb : s.left * 8 ≤ W) (hm : m.At r) (hr : Moves r s) :
    (staticBlock m ctx).Reads s fun n t => Built r ⟨.classElement, ctx, n⟩ t := by
  refine advance_run.bind fun _ t _ hmt hl _ => ?_
  refine (block_reads (by omega)).bind fun body u _ _ _ hbody => ?_
  exact node_built hm (hbody.toExtends.after (hr.trans hmt)) .staticBlock
    (hbody.fruits.of_move (hr.trans hmt) ‹_›) (fun _ => rfl) rfl

omit [Recursion] in
theorem definiteMark_reads {optional : Bool} : (definiteMark optional).Reads s fun _ _ => True :=
  .ite (fun _ => .pure trivial) fun _ => (accept_reads (by decide)).mono fun _ _ _ => trivial

/-- A property whose name has been read since its mark. -/
theorem propertyRest_reads {m : Mark} {ds : List Node} {name : Node} {optional : Bool}
    (hb : s.left * 8 ≤ W) (hm : m.At r)
    (hname : Extends r (all .decorator ctx ds ++ [⟨.propertyName, ctx, name⟩]) s) :
    (propertyRest m ctx ds name optional).Reads s fun n t =>
      Built r ⟨.classElement, ctx, n⟩ t := by
  refine definiteMark_reads.bind fun definite t _ hmt hl _ => ?_
  refine (typeAscription_reads (by omega)).bind fun type u _ _ hl' htype => ?_
  refine (initializer_reads (by omega)).bind fun value v _ _ _ hvalue => ?_
  have hc := ((hname.move hmt).append htype).append hvalue
  exact closed_reads hm hc (fun _ _ => .propertyDefinition) (hc.fruitful (by simp)) (fun _ => rfl) rfl

theorem classElement_reads (hb : s.left * 8 ≤ W) :
    (classElement ctx).Reads s fun answer t =>
      ∀ n ∈ answer, Built s ⟨.classElement, ctx, n⟩ t := by
  have hsome {p : Parse Node} {t : ParseState} [t.Ready]
      (hp : p.Reads t fun n u => Built s ⟨.classElement, ctx, n⟩ u) :
      (do return some (← p) : Parse (Option Node)).Reads t fun answer u =>
        ∀ n ∈ answer, Built s ⟨.classElement, ctx, n⟩ u :=
    hp.bind fun n u _ _ _ hn => .pure fun n' h => by cases h; exact hn
  refine .look ((decorators_reads hb).bind fun ds t _ hmt hl hds => ?_)
  refine (peek_reads isAt_reads isAt_reads.said).bind fun b u _ hmu hl' _ => .ite (fun _ => ?_) ?_
  · exact hsome (staticBlock_reads (by omega) (.mark s) (hmt.trans hmu))
  intro _
  refine classModifiers_reads.bind fun modifiers v _ hmv hl₂ _ => ?_
  have hmark := (Mark.At.mark s).withModifiers modifiers
  have hds := (hds.move hmu).move hmv
  refine (isAt_reads.and_still fun _ => opensIndexSignature_reads).bind
    fun b' w _ hmw hl₃ _ => .ite (fun _ => ?_) fun _ => ?_
  · refine (indexSignature_reads (by omega) hmark (hds.moves.trans hmw)).bind
      fun n x _ _ _ hn => ?_
    refine expectSemicolon_reads.bind fun _ y _ hmy _ _ => .pure fun n' h => ?_
    cases h
    exact (hn.choose (by simp)).move hmy nofun
  refine acceptAsyncMethod_reads.bind fun isAsync x _ hmx hl₄ hx => ?_
  refine accept_takes.bind fun isGenerator y _ hmy hl₅ hy => ?_
  refine accessorSort?_reads.bind fun accessor z _ hmz hl₆ hz => .look ?_
  refine .ite (fun _ => .pure nofun) fun _ => ?_
  have hw := hds.moves.trans hmw
  have hds := (((hds.move hmw).move hmx).move hmy).move hmz
  refine (propertyName_reads (by omega)).bind fun name t₁ _ _ hl₇ hname => ?_
  refine (accept_reads (by decide)).bind fun optional t₂ _ hm₂ hl₈ _ => .look ?_
  have hc := (hds.part hname).move hm₂
  refine .ite (fun _ => hsome ?_) fun _ => hsome (propertyRest_reads (by omega) hmark hc)
  refine (methodRest_reads (by omega) hmark hc fun hsort h => ?_).mono fun _ _ hn => hn.choose (by simp)
  refine ((hname.pos_eq rfl).imp_left hm₂.faulty).imp_right fun hpos => ?_
  rw [hpos]
  exact methodHead_known (hw.trans hmx) ((hx h).of_move hw) hy (hz.2 (accessor_absent hz.1 hsort))

/-- A turn through the members of a class moves on, whether a member was read or not. -/
theorem classTurn_reads {found : Array Node} [t.Ready] (hb : t.left * 8 + 1 ≤ W)
    (h : Extends s (all .classElement ctx found.toList) t) :
    (classTurn ctx found).Reads t
      (AfterTurn (fun found u => Extends s (all .classElement ctx found.toList) u)
        (fun found u => Extends s (all .classElement ctx found.toList) u) t) := by
  refine atListEnd_reads (.pure h) fun _ hne => .ifAt (fun _ => .look ?_) fun _ => .look ?_
  · refine (advance_reads hne).bind fun _ u _ hm _ hlt => ?_
    have hp : Production u.Faulty .classElement ctx .semicolonElement [] := .semicolonElement
    refine (node_reads (.mark t) (.nil hm) hp (.inl hlt) (fun _ => rfl) rfl).bind fun n v _ _ _ hn => ?_
    obtain ⟨rfl, -, hn⟩ := hn
    exact .pure ⟨hlt, h.all_push hn⟩
  refine (classElement_rule hb).bind fun answer u _ hm _ hn => ?_
  cases answer with
  | none => exact .pure (h.move hm)
  | some member =>
    cases member with
    | none =>
      refine reportHere_reads.bind fun _ v _ hmv _ _ => advance_run.bind fun _ w _ hmw _ _ => ?_
      have hmw := (hm.trans hmv).trans hmw
      refine (ifUnmoved_moves hmw hne skip_reads).bind fun _ x _ hmx _ hlt => ?_
      exact .pure ⟨hlt, (h.move hmw).move hmx⟩
    | some member =>
      refine (ifUnmoved_moves hm hne skip_reads).bind fun _ v _ hmv _ hlt => ?_
      exact .pure ⟨hlt, (h.all_push (hn _ rfl _ rfl)).move hmv⟩

theorem classMembers_reads (hb : s.left * 8 ≤ W) :
    (classMembers ctx).Reads s fun ms t => Extends s (all .classElement ctx ms) t :=
  (within_reads (f := fun ms => all .classElement ctx ms) (by decide) (by decide) rfl
    fun t _ _ _ => collect_reads _ _ fun found u _ _ hl hfound =>
      classTurn_reads (by omega) hfound).mono fun _ _ h => h.1

/-! ## Classes -/

omit [Recursion] in
theorem className_reads {m : Mark} {placement : Placement} :
    (className ctx m placement).Reads s fun n t => Extends s (opt .identifier ctx n) t := by
  refine .look (.look (.ite (fun _ => ?_) fun _ => ?_))
  · exact identifier_reads.bind fun n t _ _ _ hn => .pure hn.opt
  · exact reportWhen_reads.bind fun _ t _ hm _ _ => .pure (.nil hm)

theorem baseClass_reads (hb : s.left * 8 + 2 ≤ W) :
    (baseClass ctx).Reads s fun n t => Extends s [⟨.suffixed true, ctx, n⟩] t := by
  refine (leftHandSide_rule hb).bind fun base t _ _ hl hbase => ?_
  refine (whenAt_reads (f := fun ts => optAll .type (withConditionalTypes ctx) ts) rfl fun h =>
    (typeArguments_reads (by omega) h).mono fun _ _ hts => hts.1).bind fun _ u _ hm _ _ => ?_
  exact .pure (hbase.toExtends.move hm)

theorem classLike_reads {m : Mark} {placement : Placement} (hb : s.left * 8 ≤ W) (hm : m.At r)
    (hr : Moves r s) :
    (classLike placement ctx m).Reads s fun n t => Built r ⟨.classLike placement, ctx, n⟩ t := by
  refine (decorators_reads hb).bind fun ds t _ _ hl hds => ?_
  refine (expect_fruitful (by decide)).bind fun _ u hu hmu hl' hfruit => ?_
  refine className_reads.bind fun name v _ _ hl₂ hname => ?_
  refine (typeParameters?_reads (by omega)).bind fun tps w _ _ hl₃ htps => ?_
  refine (behind_reads (f := opt (.suffixed true) (ctx.including [.strict])) (by decide) rfl
    fun x _ _ _ => baseClass_reads (by omega)).bind fun base x _ _ hl₄ hbase => ?_
  refine (typeReferencesBehind_reads (by decide) (by omega)).bind
    fun interfaces y _ _ hl₅ hinterfaces => ?_
  refine (classMembers_reads (by omega)).bind fun members z _ _ _ hmembers => ?_
  have hrest := (((hname.append htps).append hbase).append hinterfaces).append hmembers
  have hc := (((((hds.after hr).move hmu).append hname).append htps).append hbase).append
    hinterfaces |>.append hmembers
  refine node_built hm hc .classLike ?_ (fun _ => rfl) rfl
  exact (hfruit.move hrest.moves hu).of_move (hr.trans hds.moves) ‹_›

end EcmaSyntax.Grammar
