import EcmaSyntax.Proofs.Grammar.List

/-! # Reading templates, array literals and object literals

A template goes on behind a text that ends in another substitution, which is never missing. The hole
in an array literal is a node without a token: the comma behind it moves on. -/
namespace EcmaSyntax.Grammar
open Parse ParseState Part
variable [Recursion] {W : Nat} [Lawful W] {s t : ParseState} [s.Ready] {ctx : Context}

theorem spread_reads (hb : s.left * 8 ≤ W) (ht : s.token = .dotDotDotToken) :
    (spread ctx).Reads s fun n t => Built s ⟨.spread, ctx, n⟩ t := by
  refine .look ((expect_here (by decide) ht).bind fun _ t _ hm hl h => ?_)
  refine (assignment_rule (by omega)).bind fun n u _ hm' hl' hn => ?_
  exact node_built (.mark s) (hn.toExtends.after hm) .spread (.inl (by omega)) (fun _ => rfl) rfl

/-! ## Templates -/

omit [Recursion] in
theorem templateText_reads (ctx : Context) :
    templateText.Reads s fun n t =>
      Built s ⟨.templateText, ctx, n⟩ t ∧ (n.kind = .templateMiddle → t.left < s.left) := by
  refine .ifAt (fun htok => ?_) fun _ => ?_
  · refine (reread_run .template).bind fun _ t _ hm hl heq => ?_
    have htok : t.token.isLiteralToken = true := by
      have hpiece : t.token = .templateMiddle ∨ t.token = .templateTail :=
        heq ▸ Scanner.reread_template_token htok
      rcases hpiece with h | h <;> exact h ▸ rfl
    refine (literal_reads ctx htok).mono fun n u hn => ⟨(hn.1.choose (by simp)).after hm nofun, fun _ => ?_⟩
    have hlt := hn.2
    omega
  · refine reportExpected_reads.bind fun _ t _ hm _ hr => ?_
    refine (missing_reads .templateText ctx hr.faulty (.nil (.refl t)) .templateText fun _ => rfl).mono fun n u hn => ?_
    refine ⟨hn.2.after hm nofun, fun hkind => ?_⟩
    rw [Node.kind, hn.1] at hkind
    cases hkind

theorem templateSpan_reads (hb : s.left * 8 + 5 ≤ W) :
    (templateSpan ctx).Reads s fun n t =>
      Built s ⟨.templateSpan, ctx, n⟩ t ∧ (continuesTemplate n = true → t.left < s.left) := by
  refine .look ((expression_reads hb).bind fun inner t _ hm hl hinner => ?_)
  refine (templateText_reads ctx).bind fun text u _ hm' hl' htext => ?_
  have hc : Extends s _ u := hinner.toExtends.part htext.1
  refine (node_reads (.mark s) hc .templateSpan (hc.fruitful nofun) (fun _ => rfl) rfl).mono fun n v hn => ?_
  obtain ⟨rfl, hform, hn⟩ := hn
  refine ⟨hn, fun hcontinues => ?_⟩
  rw [continuesTemplate, hform] at hcontinues
  have hlt := htext.2 (eq_of_beq hcontinues)
  omega

theorem templateTurn_reads {found : Array Node} [t.Ready] (hb : t.left * 8 + 5 ≤ W)
    (h : Extends s (all .templateSpan ctx found.toList) t) :
    (templateTurn ctx found).Reads t
      (AfterTurn (fun found u => Extends s (all .templateSpan ctx found.toList) u)
        (fun found u => Extends s (all .templateSpan ctx found.toList) u) t) := by
  refine (templateSpan_reads hb).bind fun span u _ _ _ hspan => .pure ?_
  split
  case isTrue hcontinues => exact ⟨hspan.2 hcontinues, h.all_push hspan.1⟩
  case isFalse => exact h.all_push hspan.1

theorem template_reads (hb : s.left * 8 ≤ W) (ht : s.token.isLiteralToken = true) :
    (template ctx).Reads s fun n t => Built s ⟨.template, ctx, n⟩ t ∧ t.left < s.left := by
  refine .ifAt (fun _ => (literal_reads ctx ht).mono fun _ _ hn => ⟨hn.1.choose (by simp), hn.2⟩) fun _ => ?_
  refine .look ((literal_reads ctx ht).bind fun head t _ hm hl hhead => ?_)
  have hlt := hhead.2
  refine (collect_reads .templateSpan ctx fun found u _ _ hl' hfound =>
    templateTurn_reads (by omega) hfound).bind fun spans u _ _ hl' hspans => ?_
  have hc : Extends s _ u := hhead.1.toExtends.append hspans
  refine (node_reads (.mark s) hc .template (.inl (by omega)) (fun _ => rfl) rfl).mono fun n v hn => ?_
  obtain ⟨rfl, -, hn⟩ := hn
  exact ⟨hn, by omega⟩

/-! ## Array and object literals -/

theorem arrayElement_reads (hb : s.left * 8 + 5 ≤ W) :
    (arrayElement ctx).Reads s fun n t => Built s ⟨.arrayElement, ctx, n⟩ t :=
  .ifAt (fun h => (spread_reads (by omega) h).mono fun _ _ hn => hn.choose (by simp))
    fun _ => (assignment_rule hb).mono fun _ _ hn => hn.choose (by simp)

omit [Recursion] in
theorem hole_reads (ctx : Context) :
    hole.Reads s fun n t => t = s ∧ Derived s [⟨.arrayElement, ctx, n⟩] s := by
  have hs : s.Ready := ‹_›
  have hfull : s.full.offset ≤ s.start.offset := hs.full_start.offset_le hs.full_sound
  have hheader : s.header s.mark = { range := ⟨s.start.offset, s.start.offset⟩ } := by
    simp [ParseState.header, ParseState.mark, FlagSet.when, hfull]
    rfl
  have hlined : s.Faulty ∨ Form.omitted.Lined s s := .inr (.of_free rfl)
  exact .observe ⟨rfl, hheader ▸ .node (.mark s) (.nil (.refl s)) .hole hlined⟩

theorem arrayTurn_reads {l : Listed} [t.Ready] (hb : t.left * 8 + 5 ≤ W)
    (h : Extends s (all .arrayElement ctx l.toList) t) :
    (arrayTurn ctx l).Reads t
      (AfterTurn (fun l u => Extends s (all .arrayElement ctx l.toList) u)
        (fun l u => Extends s (all .arrayElement ctx l.toList) u) t) := by
  refine atListEnd_reads (.pure h) fun _ hne => .look (.ifAt (fun _ => ?_) fun _ => ?_)
  · refine (hole_reads ctx).bind fun n u _ _ _ hn => ?_
    obtain ⟨rfl, hn⟩ := hn
    refine (advance_reads hne).bind fun _ v _ hm _ hlt => .pure ⟨hlt, ?_⟩
    have hhole : Extends u [⟨.arrayElement, ctx, n⟩] v :=
      ⟨.append hn (.nil hm) fun h => absurd rfl h, fun _ => .inl hlt⟩
    exact h.append_push hhole
  · refine (arrayElement_reads hb).bind fun n u _ hm _ hn => ?_
    refine afterItem_reads hm fun l' v hitems hm' => ?_
    have htoList : l'.toList = (l.items.push n).toList := congrArg Array.toList hitems
    exact htoList ▸ (h.all_push hn).move hm'

theorem arrayLiteral_reads (hb : s.left * 8 ≤ W) (ht : s.token = .openBracketToken) :
    (arrayLiteral ctx).Reads s fun n t => Built s ⟨.pattern, ctx, n⟩ t := by
  refine .look ((between_reads (f := fun l => all .arrayElement ctx.enclosed l.toList) (by decide)
    (by decide) fun t _ hm hl hlt => ?_).bind fun l t _ hm hl hl' => ?_)
  · have hlt := hlt ht
    exact loop_reads _ (.refl t) fun l u _ hm' hl' h => arrayTurn_reads (by omega) h
  · exact node_built (.mark s) hl'.1 .arrayLiteral hl'.2.1 (fun _ => rfl) rfl

theorem objectLiteral_reads (hb : s.left * 8 ≤ W) (ht : s.token = .openBraceToken) :
    (objectLiteral ctx).Reads s fun n t => Built s ⟨.pattern, ctx, n⟩ t := by
  refine .look ((between_reads (f := fun l => all .objectElement ctx.enclosed l.toList) (by decide)
    (by decide) fun t _ hm hl hlt => ?_).bind fun l t _ hm hl hl' => ?_)
  · have hlt := hlt ht
    exact commaList_reads fun _ u _ hm' hl' => objectElement_rule (by omega)
  · exact node_built (.mark s) hl'.1 .objectLiteral hl'.2.1 (fun _ => rfl) rfl

theorem bindingName_reads (hb : s.left * 8 ≤ W) :
    (bindingName ctx).Reads s fun n t => Built s ⟨.bindingName, ctx, n⟩ t := by
  refine .look ?_
  split
  case h_1 h => exact (arrayLiteral_reads hb h).mono fun _ _ hn => hn.choose (by simp)
  case h_2 h => exact (objectLiteral_reads hb h).mono fun _ _ hn => hn.choose (by simp)
  case h_3 => exact identifier_reads.mono fun _ _ hn => hn.choose (by simp)

/-! ## Names of properties -/

theorem computedName_reads (hb : s.left * 8 ≤ W) (ht : s.token = .openBracketToken) :
    (computedName ctx).Reads s fun n t => Built s ⟨.propertyName, ctx, n⟩ t := by
  refine .look ((advance_reads (ht ▸ by decide)).bind fun _ t _ hm _ hlt => ?_)
  refine (assignment_rule (by omega)).bind fun inner u _ hm' hl' hinner => ?_
  refine (expect_fruitful (by decide)).bind fun _ v _ hm'' hl'' _ => ?_
  exact node_built (.mark s) ((hinner.toExtends.after hm).move hm'') .computedName (.inl (by omega)) (fun _ => rfl) rfl

theorem propertyName_reads (hb : s.left * 8 ≤ W) :
    (propertyName ctx).Reads s fun n t => Built s ⟨.propertyName, ctx, n⟩ t := by
  have hliteral (h : s.token.isLiteralToken = true) :
      literal.Reads s fun n t => Built s ⟨.propertyName, ctx, n⟩ t :=
    (literal_reads ctx h).mono fun _ _ hn => hn.1.choose (by simp)
  refine .look ?_
  split
  case h_1 h => exact hliteral (h ▸ rfl)
  case h_2 h => exact hliteral (h ▸ rfl)
  case h_3 h => exact hliteral (h ▸ rfl)
  case h_4 h => exact (privateName_reads h).mono fun _ _ hn => hn.1.choose (by simp)
  case h_5 h => exact computedName_reads hb h
  case h_6 => exact (name_reads ctx).mono fun _ _ hn => hn.choose (by simp)

end EcmaSyntax.Grammar
