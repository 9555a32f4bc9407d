import EcmaSyntax.Proofs.Grammar.Parameter

/-! # Reading types

A type meets no other type before its first token, except through the levels of its grammar: a
union consists of intersections, an intersection of operators, and an operator of types with
brackets behind them. -/
namespace EcmaSyntax.Grammar
open Parse ParseState Part
variable [Recursion] {W : Nat} [Lawful W] {s t : ParseState} [s.Ready] {ctx : Context}

/-! ## Type parameters and arguments -/

theorem typeArguments_reads (hb : s.left * 8 ≤ W) (ht : s.token = .lessThanToken) :
    (typeArguments ctx).Reads s fun ts t =>
      Extends s (all .type (withConditionalTypes ctx) ts) t ∧ t.left < s.left := by
  refine (between_reads (f := fun ts => all .type (withConditionalTypes ctx) ts) (by decide)
    (by decide) fun t _ _ _ hlt => ?_).mono fun _ _ h => ⟨h.1, h.2.2 ht⟩
  have hlt := hlt ht
  exact commaItems_reads fun u _ _ hl => type_rule (by omega)

/-- What follows type arguments that are taken. -/
def FollowsTypeArguments (k : Kind) : Prop :=
  k ∈ [.openParenToken, .noSubstitutionTemplateLiteral, .templateHead]

omit [Recursion] in
theorem FollowsTypeArguments.isLiteralToken {k : Kind} (h : FollowsTypeArguments k)
    (hopen : k ≠ .openParenToken) : k.isLiteralToken = true := by
  rcases List.mem_cons.mp h with h | h
  · exact absurd h hopen
  · have htemplate : ∀ k ∈ [Kind.noSubstitutionTemplateLiteral, .templateHead],
        k.isLiteralToken = true := by decide
    exact htemplate k h

/-- Type arguments of a call, which move on if they are there. -/
structure CallTypeArguments (ctx : Context) (s : ParseState) (ts : Option (List Node))
    (t : ParseState) : Prop where
  parts : Extends s (optAll .type (withConditionalTypes ctx) ts) t
  taken : ts.isSome = true → t.left < s.left ∧ FollowsTypeArguments t.token
  absent : ts = none → s.Still t

theorem typeArgumentsOfCall_reads (hb : s.left * 8 ≤ W) (ht : s.token = .lessThanToken) :
    (typeArgumentsOfCall ctx).Reads s fun ts t =>
      ts.isSome = true → CallTypeArguments ctx s ts t := by
  refine .look ((typeArguments_reads hb ht).bind fun ts t _ _ _ hts => .look (.look (.pure ?_)))
  split
  case isTrue h =>
    refine fun _ => ⟨hts.1, fun _ => ⟨hts.2, ?_⟩, nofun⟩
    exact List.contains_iff_mem.mp (Bool.and_eq_true_iff.mp h).1
  case isFalse => exact nofun

theorem callTypeArguments?_reads (hb : s.left * 8 ≤ W) :
    (callTypeArguments? ctx).Reads s fun ts t => CallTypeArguments ctx s ts t := by
  refine .ifAt (fun h => ?_) fun _ => .pure ⟨.refl s, nofun, fun _ => .refl s⟩
  refine (attempt_reads (typeArgumentsOfCall_reads (s := s.flush) hb h)).mono fun ts t hts => ?_
  have hm : Moves s s.flush := .single (.flush s)
  rcases hts with ⟨rfl, rfl⟩ | ⟨hsome, hts⟩
  · exact ⟨.nil hm, nofun, fun _ => .flush s⟩
  · exact ⟨(hts hsome).parts.after hm, (hts hsome).taken, fun hnone => by simp [hnone] at hsome⟩

theorem typeParameter_reads (hb : s.left * 8 ≤ W) :
    (typeParameter ctx).Reads s fun n t => Built s ⟨.typeParameter, ctx, n⟩ t := by
  refine .look ((accept_reads (by decide)).bind fun _ t _ hm hl _ => ?_)
  refine identifier_reads.bind fun name u _ _ hl' hname => ?_
  refine (behind_opt (by decide) fun _ _ _ _ => type_rule (by omega)).bind
    fun bound v _ _ hl'' hbound => ?_
  refine (behind_opt (by decide) fun _ _ _ _ => type_rule (by omega)).bind
    fun default w _ _ _ hdefault => ?_
  have hc := ((hname.toExtends.after hm).append hbound).append hdefault
  exact node_built (.mark s) hc .typeParameter (hc.fruitful (by simp)) (fun _ => rfl) rfl

theorem typeParameters_reads (hb : s.left * 8 ≤ W) :
    (typeParameters ctx).Reads s fun ts t =>
      Extends s (all .typeParameter ctx ts) t ∧ Fruitful s t :=
  (between_reads (f := fun ts => all .typeParameter ctx ts) (by decide) (by decide)
    fun t _ _ _ _ => commaItems_reads fun u _ _ hl => typeParameter_reads (by omega)).mono
      fun _ _ h => ⟨h.1, h.2.1⟩

/-- Type parameters that may be absent, and the token by which they are known. -/
theorem typeParameters?_known (hb : s.left * 8 ≤ W) :
    (typeParameters? ctx).Reads s fun ts t => Extends s (optAll .typeParameter ctx ts) t ∧
      (ts = none → t = s) ∧ (ts.isSome = true → s.token = .lessThanToken) :=
  .ifAt (fun h => .map ((typeParameters_reads hb).mono fun _ _ hts => ⟨hts.1, nofun, fun _ => h⟩))
    fun _ => .pure ⟨.refl s, fun _ => rfl, nofun⟩

theorem typeParameters?_reads (hb : s.left * 8 ≤ W) :
    (typeParameters? ctx).Reads s fun ts t => Extends s (optAll .typeParameter ctx ts) t :=
  (typeParameters?_known hb).mono fun _ _ h => h.1

/-! ## References -/

omit [Recursion] in
theorem entityHead_reads :
    (entityHead ctx).Reads s fun n t => Built s ⟨.entityName, ctx, n⟩ t := by
  refine .look (.ite (fun h => ?_) fun _ => identifier_reads.mono fun _ _ hn => hn.choose (by simp))
  have hne : s.token ≠ .endOfFileToken := fun heq => by
    rw [heq] at h
    cases h
  exact (identifierToken_reads (.entityName h) hne).mono fun _ _ hn => hn.1

omit [Recursion] in
theorem entityTurn_reads {m : Mark} {left : Node} [t.Ready] (hm : m.At s)
    (h : Built s ⟨.entityName, ctx, left⟩ t) :
    (entityTurn m left).Reads t (AfterTurn (fun n u => Built s ⟨.entityName, ctx, n⟩ u)
      (fun n u => Built s ⟨.entityName, ctx, n⟩ u) t) := by
  refine .ifAccept (by decide) (fun u _ hm' _ hlt => ?_) fun _ => .pure h
  refine (name_reads ctx).bind fun right v _ _ hl hright => ?_
  have hc : Extends s _ v := (h.toExtends.move hm').part hright
  refine (node_reads hm hc .qualifiedName (hc.fruitful nofun) (fun _ => rfl) rfl).bind fun n w _ _ _ hn => ?_
  obtain ⟨rfl, -, hn⟩ := hn
  exact .pure ⟨by omega, hn⟩

omit [Recursion] in
theorem entityName_reads :
    (entityName ctx).Reads s fun n t => Built s ⟨.entityName, ctx, n⟩ t := by
  refine .look (entityHead_reads.bind fun first t _ _ _ hfirst => ?_)
  exact loop_reads _ hfirst fun n u _ _ _ hn => entityTurn_reads (.mark s) hn

theorem referenceArguments?_reads (hb : s.left * 8 ≤ W) :
    (referenceArguments? ctx).Reads s fun ts t =>
      Extends s (optAll .type (withConditionalTypes ctx) ts) t :=
  .look (.ite (fun _ => .pure (.refl s)) fun _ =>
    whenAt_reads rfl fun h => (typeArguments_reads hb h).mono fun _ _ hts => hts.1)

theorem typeReference_reads (hb : s.left * 8 ≤ W) :
    (typeReference ctx).Reads s fun n t => Built s ⟨.typeReference, ctx, n⟩ t := by
  refine .look (entityName_reads.bind fun name t _ _ hl hname => ?_)
  refine (referenceArguments?_reads (by omega)).bind fun ts u _ _ _ hts => ?_
  have hc := hname.toExtends.append hts
  exact node_built (.mark s) hc .typeReference (hc.fruitful (by simp)) (fun _ => rfl) rfl

theorem typeReferences_reads (hb : s.left * 8 ≤ W) :
    (typeReferences ctx).Reads s fun ns t => Extends s (all .typeReference ctx ns) t := by
  refine (typeReference_reads hb).bind fun first t _ _ hl hfirst => ?_
  refine (more_reads (by decide) fun u _ _ _ => typeReference_reads (by omega)).bind
    fun others u _ _ _ hothers => ?_
  exact .pure (hfirst.toExtends.append hothers.1)

theorem typeReferencesBehind_reads {word : Kind} (hk : word ≠ .endOfFileToken)
    (hb : s.left * 8 ≤ W) :
    (typeReferencesBehind word ctx).Reads s fun ns t => Extends s (all .typeReference ctx ns) t :=
  .ifAccept hk (fun t _ hm _ _ => (typeReferences_reads (by omega)).mono fun _ _ h => h.after hm)
    fun _ => .pure (.refl s)

/-! ## Signatures -/

omit [Recursion] in
theorem startsAssertion_reads :
    startsAssertion.Reads s fun b t => s.Still t ∧ (b = true → t = s.flush ∧
      s.token = .assertsKeyword ∧ isSubject (s.flush.consume .plain).token = true) :=
  peek_reads isAt_reads onSameLine_reads.said

omit [Recursion] in
theorem startsPredicate_reads :
    startsPredicate.Reads s fun b t =>
      s.Still t ∧ (b = true → isSubject s.token = true) :=
  (peek_reads tokenIs_reads onSameLine_reads.said).mono fun _ _ h => ⟨h.1, fun hb => (h.2 hb).2.1⟩

theorem typeOrPredicate_reads (hb : s.left * 8 + 2 ≤ W) :
    (typeOrPredicate ctx).Reads s fun n t => Built s ⟨.typeOrPredicate, ctx, n⟩ t := by
  refine .look (startsAssertion_reads.bind fun b t _ hm _ h => .ite (fun hb' => ?_) fun _ => ?_)
  · obtain ⟨rfl, -, hsubject⟩ := h.2 hb'
    refine advance_run.bind fun _ u _ hm' hl' hu => ?_
    subst hu
    refine (subject_reads ctx hsubject).bind fun n v _ _ _ hn => ?_
    have hlt : v.left < s.left := Nat.lt_of_lt_of_le hn.2 hl'
    refine (behind_opt (by decide) fun _ _ _ _ => type_rule (by omega)).bind
      fun type w _ _ hl htype => ?_
    have hc := (hn.1.toExtends.after (hm.trans hm')).append htype
    exact node_built (.mark s) hc .typePredicate (.inl (by omega)) (fun _ => rfl) rfl
  · refine startsPredicate_reads.bind fun b u _ hm' hl' h' => .ite (fun hb' => ?_) fun _ => ?_
    · have hsubject := h'.1.token_eq ▸ h'.2 hb'
      refine (subject_reads ctx hsubject).bind fun n v _ _ _ hn => ?_
      refine advance_run.bind fun _ w _ hm'' hl'' _ => ?_
      have hlt := hn.2
      refine (type_rule (by omega)).bind fun type x _ _ _ htype => ?_
      have hc := ((hn.1.toExtends.after (hm.trans hm')).move hm'').append htype.opt
      exact node_built (.mark s) hc .typePredicate (.inl (by omega)) (fun _ => rfl) rfl
    · refine (type_rule (by omega)).mono fun n v hn => ?_
      exact (hn.after (hm.trans hm') nofun).choose (by simp)

theorem returnType_reads (hb : s.left * 8 ≤ W) :
    (returnType ctx).Reads s fun n t => Extends s (opt .typeOrPredicate ctx n) t :=
  behind_opt (by decide) fun _ _ _ _ => typeOrPredicate_reads (by omega)

theorem arrowResult_reads (hb : s.left * 8 ≤ W) :
    (arrowResult ctx).Reads s fun n t => Extends s (opt .typeOrPredicate ctx n) t := by
  refine (expect_reads (by decide)).bind fun b t _ hm _ h => ?_
  rcases h with ⟨rfl, -, hlt⟩ | ⟨rfl, -, -⟩
  · exact .map ((typeOrPredicate_reads (by omega)).mono fun _ _ hn => hn.opt.after hm)
  · exact .pure (.nil hm)

/-- A signature that began at a mark, with nothing of it before its type parameters. -/
theorem signature_reads {r : ParseState} [r.Ready] {m : Mark} {sort : SignatureSort}
    (hb : s.left * 8 ≤ W) (hm : m.At r) (hr : Moves r s) :
    (signature m sort ctx).Reads s fun n t => Built r ⟨.ofSignature sort, ctx, n⟩ t := by
  refine (typeParameters?_reads hb).bind fun tps t _ _ hl htps => ?_
  refine (formalParameters_reads (by omega)).bind fun ps u _ _ hl' hps => ?_
  refine (returnType_reads (by omega)).bind fun result v _ _ _ hresult => ?_
  have hc := ((htps.after hr).part hps).append hresult
  exact node_built hm hc .signature (hc.fruitful (by simp)) (fun _ => rfl) rfl

theorem functionType_reads (hb : s.left * 8 ≤ W) :
    (functionType ctx).Reads s fun n t => Built s ⟨.functionType, ctx, n⟩ t := by
  refine .look ((accept_reads (by decide)).bind fun b t _ hm hl _ => ?_)
  refine (typeParameters?_reads (by omega)).bind fun tps u _ _ hl' htps => ?_
  refine (formalParameters_reads (by omega)).bind fun ps v _ _ hl'' hps => ?_
  refine (arrowResult_reads (by omega)).bind fun result w _ _ _ hresult => ?_
  have hc := ((htps.after hm).part hps).append hresult
  have hsort : Phrase.ofSignature (if b = true then .constructorType else .functionType)
      = .functionType := by
    cases b <;> rfl
  exact hsort ▸ node_built (.mark s) hc .signature (hc.fruitful (by simp)) (fun _ => rfl) rfl

omit [Recursion] in
/-- Moving over modifiers ends, whatever follows them. -/
theorem skipModifiers_reads : skipModifiers.Reads s fun _ _ => True := by
  refine loop_reads (fun _ _ => True) trivial fun _ t _ _ _ _ => .look (.ite (fun h => ?_) ?_)
  · have hne : t.token ≠ .endOfFileToken := fun heq => by
      rw [heq] at h
      cases h
    exact (advance_reads hne).bind fun _ u _ _ _ hlt => .pure ⟨hlt, trivial⟩
  · exact fun _ => .pure trivial

theorem skipParameterStart_reads (hb : s.left * 8 ≤ W) :
    skipParameterStart.Reads s fun _ _ => True := by
  refine skipModifiers_reads.bind fun _ t _ _ hl _ => .look (.ite (fun _ => ?_) fun _ => ?_)
  · exact advance_run.bind fun _ _ _ _ _ _ => .pure trivial
  · refine .ite (fun _ => .look ?_) fun _ => .pure trivial
    exact (bindingName_reads (by omega)).bind fun _ _ _ _ _ _ => .look (.pure trivial)

theorem opensParameters_reads (hb : s.left * 8 ≤ W) :
    opensParameters.Reads s fun _ _ => True := by
  refine advance_run.bind fun _ t _ _ hl _ => .ifAtAny (fun _ => .pure trivial) fun _ => ?_
  refine (skipParameterStart_reads (by omega)).bind fun b u _ _ _ _ => .ite (fun _ => ?_) ?_
  · refine .ifAtAny (fun _ => .pure trivial) fun _ => ?_
    exact .ifAccept (by decide) (fun _ _ _ _ _ => .observe trivial) fun _ => .pure trivial
  · exact fun _ => .pure trivial

theorem startsFunctionType_reads (hb : s.left * 8 ≤ W) :
    startsFunctionType.Reads s fun _ t => s.Still t := by
  refine .look ?_
  split
  case h_1 => exact .pure (.refl s)
  case h_2 => exact .pure (.refl s)
  case h_3 => exact (lookAhead_reads (opensParameters_reads hb)).mono fun _ _ h => h.1 ▸ .flush s
  case h_4 => exact .pure (.refl s)

/-! ## Members of object types -/

omit [Recursion] in
theorem opensIndexSignature_reads : opensIndexSignature.Reads s fun _ t => s.Still t := by
  refine (lookAhead_reads (P := fun _ => True) ?_).mono fun _ _ h => h.1 ▸ .flush s
  refine advance_run.bind fun _ t _ _ _ _ => .ifAtAny (fun _ => .pure trivial) fun _ => ?_
  refine (advanceWhen_reads tokenIs_reads).bind fun _ u _ _ _ _ => .look (.ite (fun _ => ?_) ?_)
  · refine advance_run.bind fun _ v _ _ _ _ => ?_
    exact .ifAccept (by decide) (fun _ _ _ _ _ => .observe trivial) fun _ => .observe trivial
  · exact fun _ => .pure trivial

theorem indexParameter_reads (hb : s.left * 8 ≤ W) :
    (indexParameter ctx).Reads s fun n t => Built s ⟨.formalParameter, ctx, n⟩ t := by
  refine .look (parameterModifiers_reads.bind fun modifiers t _ hm hl _ => ?_)
  refine identifier_reads.bind fun binding u _ _ hl' hbinding => ?_
  have hc : Extends s [⟨.parameterBinding, ctx, binding⟩] u := (hbinding.choose (by simp)).toExtends.after hm
  exact parameterTail_reads (by omega) ((Mark.At.mark s).withModifiers modifiers) hc

theorem indexParameterTurn_reads {found : Array Node} [t.Ready] (hb : t.left * 8 ≤ W)
    (h : Extends s (all .formalParameter ctx found.toList) t) :
    (indexParameterTurn ctx found).Reads t
      (AfterTurn (fun found u => Extends s (all .formalParameter ctx found.toList) u)
        (fun found u => Extends s (all .formalParameter ctx found.toList) u) t) := by
  refine atListEnd_reads (.pure h) fun _ _ => ?_
  refine (indexParameter_reads hb).bind fun n u _ _ hl hn => ?_
  have hpush := h.all_push hn
  refine (accept_reads (by decide)).bind fun b v _ hm _ hb' => .pure ?_
  rcases hb' with ⟨rfl, -, hlt⟩ | ⟨rfl, -, rfl⟩
  · exact ⟨by omega, hpush.move hm⟩
  · exact hpush

theorem indexParameters_reads (hb : s.left * 8 ≤ W) :
    (indexParameters ctx).Reads s fun n t => Built s ⟨.formalParameters, ctx, n⟩ t := by
  refine .look ((between_reads (f := fun ps => all .formalParameter ctx ps) (by decide) (by decide)
    fun t _ _ _ _ => collect_reads _ _ fun found u _ _ hl h =>
      indexParameterTurn_reads (by omega) h).bind fun ps t _ _ _ h => ?_)
  exact node_built (.mark s) h.1 .formalParameters h.2.1 (fun _ => rfl) rfl

/-- An index signature that began at a mark. -/
theorem indexSignature_reads {r : ParseState} [r.Ready] {m : Mark} (hb : s.left * 8 ≤ W)
    (hm : m.At r) (hr : Moves r s) :
    (indexSignature m ctx).Reads s fun n t => Built r ⟨.indexSignature, ctx, n⟩ t := by
  refine (indexParameters_reads hb).bind fun ps t _ _ hl hps => ?_
  refine (typeAscription_reads (by omega)).bind fun type u _ _ _ htype => ?_
  have hc := (hps.toExtends.after hr).append htype
  exact node_built hm hc .indexSignature (hc.fruitful (by simp)) (fun _ => rfl) rfl

theorem namedMember_reads {r : ParseState} [r.Ready] {m : Mark} (hb : s.left * 8 ≤ W)
    (hm : m.At r) (hr : Moves r s) :
    (namedMember m ctx).Reads s fun n t => Built r ⟨.typeMember, ctx, n⟩ t := by
  refine (propertyName_reads hb).bind fun name t _ _ hl hname => ?_
  refine (accept_reads (by decide)).bind fun optional u _ hm' hl' _ => ?_
  have hc := (hname.toExtends.after hr).move hm'
  refine .ifAtAny (fun _ => ?_) fun _ => ?_
  · refine (typeParameters?_reads (by omega)).bind fun tps v _ _ hl₂ htps => ?_
    refine (formalParameters_reads (by omega)).bind fun ps w _ _ hl₃ hps => ?_
    refine (returnType_reads (by omega)).bind fun result x _ _ _ hresult => ?_
    have hc' := ((hc.append htps).part hps).append hresult
    exact node_built hm hc' .methodSignature (hc'.fruitful (by simp)) (fun _ => rfl) rfl
  · refine (typeAscription_reads (by omega)).bind fun type v _ _ _ htype => ?_
    have hc' := hc.append htype
    exact node_built hm hc' .propertySignature (hc'.fruitful (by simp)) (fun _ => rfl) rfl

theorem typeMember_reads (hb : s.left * 8 ≤ W) :
    (typeMember ctx).Reads s fun n t => Built s ⟨.typeMember, ctx, n⟩ t := by
  refine .look (.ifAtAny (fun _ => signature_reads hb (.mark s) (.refl s)) fun _ => ?_)
  refine (peek_reads isAt_reads isAtAny_reads.said).bind fun b t _ hm hl h => .ite (fun _ => ?_) ?_
  · refine advance_run.bind fun _ u _ hm' hl' _ => ?_
    exact signature_reads (by omega) (.mark s) (hm.trans hm')
  intro _
  refine (advanceWhen_reads (peek_reads isAt_reads onSameLine_reads.said)).bind
    fun isReadonly u _ hm' hl' _ => ?_
  have hmark := (Mark.At.mark s).withModifiers (.when isReadonly ModifierFlag.readonly)
  refine (isAt_reads.and_still fun _ => opensIndexSignature_reads).bind
    fun b v _ hm₂ hl₂ _ => .ite (fun _ => ?_) fun _ => ?_
  · refine (indexSignature_reads (by omega) hmark ((hm.trans hm').trans hm₂)).mono fun _ _ hn => ?_
    exact hn.choose (by simp)
  · exact namedMember_reads (by omega) hmark ((hm.trans hm').trans hm₂)

omit [Recursion] in
theorem endTypeMember_reads : endTypeMember.Reads s fun _ _ => True :=
  .ifAccept (by decide) (fun _ _ _ _ _ => .pure trivial) fun _ => expectSemicolon_reads

theorem typeMemberTurn_reads {found : Array Node} [t.Ready] (hb : t.left * 8 + 1 ≤ W)
    (h : Extends s (all .typeMember (withConditionalTypes ctx) found.toList) t) :
    (typeMemberTurn ctx found).Reads t
      (AfterTurn (fun found u => Extends s (all .typeMember (withConditionalTypes ctx) found.toList) u)
        (fun found u => Extends s (all .typeMember (withConditionalTypes ctx) found.toList) u) t) := by
  refine atListEnd_reads (.pure h) fun _ hne => .look (.ite (fun _ => .look ?_) fun _ => ?_)
  · refine (typeMember_rule hb).bind fun answer u _ hm _ hn => ?_
    cases answer with
    | none => exact .pure (h.move hm)
    | some n =>
      refine endTypeMember_reads.bind fun _ v _ hm' _ _ => ?_
      refine (ifUnmoved_moves (hm.trans hm') hne advance_moves).bind fun _ w _ hm₂ _ hlt => ?_
      exact .pure ⟨hlt, ((h.all_push (hn n rfl)).move hm').move hm₂⟩
  · refine reportHere_reads.bind fun _ u _ hm _ hr => ?_
    have hne : u.token ≠ .endOfFileToken := hr.still.token_eq ▸ hne
    refine (advance_reads hne).bind fun _ v _ hm' _ hlt => .pure ⟨?_, (h.move hm).move hm'⟩
    exact hr.still.left_eq ▸ hlt

theorem typeMembers_reads (hb : s.left * 8 ≤ W) :
    (typeMembers ctx).Reads s fun ms t =>
      Extends s (all .typeMember (withConditionalTypes ctx) ms) t ∧ Fruitful s t :=
  (within_reads (f := fun ms => all .typeMember (withConditionalTypes ctx) ms) (by decide)
    (by decide) rfl fun t _ _ _ => collect_reads _ _ fun found u _ _ hl hfound =>
      typeMemberTurn_reads (by omega) hfound).mono fun _ _ h => ⟨h.1, h.2.1⟩

/-! ## Types -/

omit [Recursion] in
theorem startsLabel_reads : startsLabel.Reads s fun _ t => s.Still t := by
  refine (tokenIs_reads.and_still (A := s.token.isIdentifierLike = true) fun _ => ?_).mono
    fun _ _ h => h.1
  refine (lookAhead_reads (P := fun _ => True) ?_).mono fun _ _ h => h.1 ▸ .flush s
  refine advance_run.bind fun _ t _ _ _ _ => ?_
  exact (accept_reads (by decide)).bind fun _ u _ _ _ _ => .observe trivial

omit [Recursion] in
theorem tupleLabel_reads : tupleLabel.Reads s fun _ _ => True := by
  refine (advanceWhen_reads startsLabel_reads).bind fun b t _ _ _ _ => .ite (fun _ => ?_) ?_
  · refine (accept_reads (by decide)).bind fun optional u _ _ _ _ => ?_
    exact (expect_fruitful (by decide)).bind fun _ v _ _ _ _ => .pure trivial
  · exact fun _ => .pure trivial

omit [Recursion] in
theorem isOptionalElement_reads {label : Option Bool} :
    (isOptionalElement label).Reads s fun _ _ => True := by
  cases label with
  | none => exact (accept_reads (by decide)).mono fun _ _ _ => trivial
  | some optional => exact .pure trivial

omit [Recursion] [s.Ready] in
/-- A type that stands for itself, or with a mark for something wider. -/
theorem wrappedIf_reads {c : Bool} {m : Mark} {sort : WrapperSort} {inner : Node} {ph ph' : Phrase}
    (hm : m.At s) (h : Built s ⟨ph, ctx, inner⟩ t) (hchoice : ph ∈ ph'.choices)
    (hp : Production t.Faulty ph' ctx (.wrappedType sort inner) [⟨ph, ctx, inner⟩]) :
    (wrappedIf c m sort inner).Reads t fun n u => Built s ⟨ph', ctx, n⟩ u :=
  .ite (fun _ => node_built hm h.toExtends hp h.fruits (fun _ => rfl) rfl) fun _ =>
    .pure (h.choose hchoice)

theorem tupleElement_reads (hb : s.left * 8 + 2 ≤ W) :
    (tupleElement ctx).Reads s fun n t => Built s ⟨.tupleElement, ctx, n⟩ t := by
  refine .look ((accept_reads (by decide)).bind fun rest t _ hm hl _ => ?_)
  refine tupleLabel_reads.bind fun label u _ hm' hl' _ => ?_
  refine (type_rule (by omega)).bind fun inner v _ _ _ hinner => ?_
  refine isOptionalElement_reads.bind fun optional w _ hm₂ _ _ => ?_
  have hc : Built s ⟨.type, ctx, inner⟩ w := ((hinner.after hm' nofun).after hm nofun).move hm₂ nofun
  refine (wrappedIf_reads (.mark s) hc (by simp) .optionalElement).bind fun wrapped x _ _ _ h => ?_
  exact wrappedIf_reads (.mark s) h (by simp) .restElement

theorem tupleType_reads (hb : s.left * 8 ≤ W) (ht : s.token = .openBracketToken) :
    (tupleType ctx).Reads s fun n t => Built s ⟨.primaryType, ctx, n⟩ t := by
  refine .look ((between_reads (f := fun es => all .tupleElement (withConditionalTypes ctx) es)
    (by decide) (by decide) fun t _ _ _ hlt => ?_).bind
      fun es t _ _ _ h => node_built (.mark s) h.1 .tupleType h.2.1 (fun _ => rfl) rfl)
  have hlt := hlt ht
  exact commaItems_reads fun u _ _ hl => tupleElement_reads (by omega)

omit [Recursion] in
theorem startsNegativeNumber_reads :
    startsNegativeNumber.Reads s fun b t => s.Still t ∧ (b = true → t = s.flush ∧
      s.token = .minusToken ∧
        (s.flush.consume .plain).token ∈ [Kind.numericLiteral, .bigIntLiteral]) :=
  peek_reads isAt_reads isAtAny_reads.said

omit [Recursion] in
theorem negativeNumber_reads (ctx : Context)
    (ht : (s.consume .plain).token ∈ [Kind.numericLiteral, .bigIntLiteral]) :
    negativeNumber.Reads s fun n t => Built s ⟨.literalValue, ctx, n⟩ t ∧ t.left < s.left := by
  have hliteral : ∀ k ∈ [Kind.numericLiteral, .bigIntLiteral], k.isLiteralToken = true := by
    decide
  refine .look (advance_run.bind fun _ t _ hm hl heq => ?_)
  subst heq
  refine (literal_reads ctx (hliteral _ ht)).bind fun n u _ _ _ hn => ?_
  have hlt : u.left < s.left := Nat.lt_of_lt_of_le hn.2 hl
  refine (node_reads (.mark s) (hn.1.toExtends.after hm) .negativeNumber (.inl hlt) (fun _ => rfl) rfl).mono
    fun n v hn => ?_
  obtain ⟨rfl, -, hn⟩ := hn
  exact ⟨hn, hlt⟩

omit [Recursion] in
theorem isKeywordType_reads {k : Kind} :
    (isKeywordType k).Reads s fun b t => s.Still t ∧ (b = true → k.isKeywordType = true) := by
  refine .ite (fun hk => ?_) fun _ => .pure ⟨.refl s, nofun⟩
  refine (nextIs_reads (P := fun _ => True) (.observe trivial)).bind fun b t _ _ _ h => ?_
  exact .pure ⟨h.1 ▸ .flush s, fun _ => hk⟩

omit [Recursion] [s.Ready] in
theorem missingType_reads (hf : s.Faulty) (ph : Phrase) :
    missingType.Reads s fun n t => Built s ⟨ph, ctx, n⟩ t :=
  .look ((missing_reads ph ctx hf (.missing hf (.nil (.refl s)) .identifier)
    (.type ctx (.mk s.missingHeader (.identifier false "" none))) fun _ => rfl).mono fun _ _ h => h.2)

theorem primaryType_reads (hb : s.left * 8 ≤ W) :
    (primaryType ctx).Reads s fun n t => Built s ⟨.primaryType, ctx, n⟩ t := by
  refine .look (.look (isKeywordType_reads.bind fun b t _ hm hl h => .ite (fun hk => ?_) fun _ => ?_))
  · have hne : t.token ≠ .endOfFileToken := h.1.token_eq ▸ fun heq => by
      have hk := h.2 hk
      rw [heq] at hk
      cases hk
    refine (advance_reads hne).bind fun _ u _ hm' _ hlt => ?_
    exact node_built (.mark s) (.nil (hm.trans hm')) (.keywordType (h.2 hk)) (.inl (by omega)) (fun _ => rfl) rfl
  have htoken := h.1.token_eq
  generalize s.token = k at htoken
  have hliteral (htok : t.token.isLiteralToken = true) :
      (do Parse.node s.mark (.literalType (← literal)) : Parse Node).Reads t fun n u =>
        Built s ⟨.primaryType, ctx, n⟩ u := by
    refine (literal_reads ctx htok).bind fun n u _ _ _ hn => ?_
    exact node_built (.mark s) ((hn.1.choose (by simp)).toExtends.after hm) .literalType (.inl (by omega)) (fun _ => rfl) rfl
  have hkeyword (htok : t.token.isAnyKeyword = true) :
      (do Parse.node s.mark (.literalType (← keywordExpression)) : Parse Node).Reads t fun n u =>
        Built s ⟨.primaryType, ctx, n⟩ u := by
    refine (keywordExpression_reads ctx htok).bind fun n u _ _ _ hn => ?_
    exact node_built (.mark s) ((hn.1.choose (by simp)).toExtends.after hm) .literalType (.inl (by omega)) (fun _ => rfl) rfl
  split
  case h_1 =>
    refine (advance_reads (htoken ▸ by decide)).bind fun _ u _ hm' _ hlt => ?_
    exact node_built (.mark s) (.nil (hm.trans hm')) .thisType (.inl (by omega)) (fun _ => rfl) rfl
  case h_2 =>
    refine (advance_reads (htoken ▸ by decide)).bind fun _ u _ hm' _ hlt => ?_
    refine entityName_reads.bind fun name v _ _ hl' hname => ?_
    exact node_built (.mark s) (hname.toExtends.after (hm.trans hm')) .typeQuery (.inl (by omega)) (fun _ => rfl) rfl
  case h_3 => exact hkeyword (htoken ▸ rfl)
  case h_4 => exact hkeyword (htoken ▸ rfl)
  case h_5 => exact hliteral (htoken ▸ rfl)
  case h_6 => exact hliteral (htoken ▸ rfl)
  case h_7 => exact hliteral (htoken ▸ rfl)
  case h_8 => exact hliteral (htoken ▸ rfl)
  case h_9 =>
    refine (typeMembers_reads (by omega)).bind fun ms u _ _ _ hms => ?_
    exact node_built (.mark s) (hms.1.after hm) .typeLiteral (hms.2.of_move hm ‹_›) (fun _ => rfl) rfl
  case h_10 => exact (tupleType_reads (by omega) htoken).mono fun _ _ hn => hn.after hm nofun
  case h_11 =>
    refine (advance_reads (htoken ▸ by decide)).bind fun _ u _ hm' _ hlt => ?_
    refine (type_rule (by omega)).bind fun inner v _ _ hl' hinner => ?_
    refine (expect_fruitful (by decide)).bind fun _ w _ hm₂ hl₂ _ => ?_
    exact node_built (.mark s) ((hinner.toExtends.after (hm.trans hm')).move hm₂)
      .parenthesizedType (.inl (by omega)) (fun _ => rfl) rfl
  case h_12 =>
    refine .ite (fun _ => ?_) fun _ => ?_
    · exact (typeReference_reads (by omega)).mono fun _ _ hn => (hn.after hm nofun).choose (by simp)
    refine startsNegativeNumber_reads.bind fun b u _ hm' hl' h' => .ite (fun hb' => ?_) fun _ => ?_
    · obtain ⟨rfl, -, hnumber⟩ := h'.2 hb'
      refine (negativeNumber_reads ctx hnumber).bind fun n v _ _ _ hn => ?_
      exact node_built (.mark s) (hn.1.toExtends.after (hm.trans hm')) .literalType
        (.inl (by omega)) (fun _ => rfl) rfl
    · refine reportHere_reads.bind fun _ v _ hm₂ _ hr => ?_
      exact (missingType_reads hr.faulty .primaryType).mono fun _ _ hn =>
        hn.after ((hm.trans hm').trans hm₂) nofun

theorem postfixTurn_reads {m : Mark} {left : Node} [t.Ready] (hb : t.left * 8 ≤ W) (hm : m.At s)
    (h : Built s ⟨.postfixType, ctx, left⟩ t) :
    (postfixTurn ctx m left).Reads t (AfterTurn (fun n u => Built s ⟨.postfixType, ctx, n⟩ u)
      (fun n u => Built s ⟨.postfixType, ctx, n⟩ u) t) := by
  refine .look (.ite (fun _ => .pure h) fun _ => ?_)
  refine .ifAccept (by decide) (fun u _ hm' _ hlt => ?_) fun _ => .pure h
  refine .ifAccept (by decide) (fun v _ hm₂ _ hlt' => ?_) fun _ => ?_
  · have hc := (h.toExtends.move hm').move hm₂
    refine (node_reads hm hc .arrayType (hc.fruitful (by simp)) (fun _ => rfl) rfl).bind fun n w _ _ _ hn => ?_
    obtain ⟨rfl, -, hn⟩ := hn
    exact .pure ⟨by omega, hn⟩
  · refine (type_rule (by omega)).bind fun index v _ _ hl hindex => ?_
    refine (expect_fruitful (by decide)).bind fun _ w _ hm₂ hl' _ => ?_
    have hc := ((h.toExtends.move hm').part hindex).move hm₂
    refine (node_reads hm hc .indexedAccessType (hc.fruitful (by simp)) (fun _ => rfl) rfl).bind fun n x _ _ _ hn => ?_
    obtain ⟨rfl, -, hn⟩ := hn
    exact .pure ⟨by omega, hn⟩

theorem postfixType_reads (hb : s.left * 8 ≤ W) :
    (postfixType ctx).Reads s fun n t => Built s ⟨.postfixType, ctx, n⟩ t := by
  refine .look ((primaryType_reads hb).bind fun first t _ _ hl hfirst => ?_)
  exact loop_reads _ (hfirst.choose (by simp)) fun n u _ _ _ hn => postfixTurn_reads (by omega) (.mark s) hn

theorem inferredBound_reads (hb : s.left * 8 ≤ W) :
    (inferredBound ctx).Reads s fun n t =>
      Extends s (opt .type (ctx.excluding [.conditionalTypes]) n) t := by
  have hm : Moves s s.flush := .single (.flush s)
  refine (attempt_reads (Q := fun n t =>
    Extends s.flush (opt .type (ctx.excluding [.conditionalTypes]) n) t) ?_).mono fun n t hn => ?_
  · refine .ifAccept (by decide) (fun t _ hm' _ hlt => ?_) fun _ => .pure (.refl _)
    have hlt : t.left < s.left := hlt
    refine (type_rule (by omega)).bind fun bound u _ hm₂ _ hbound => ?_
    refine .look (.ite (fun _ => .pure (.nil (hm'.trans hm₂))) fun _ => ?_)
    exact .pure (hbound.opt.after hm')
  · rcases hn with ⟨rfl, rfl⟩ | ⟨-, hn⟩
    · exact .nil hm
    · exact hn.after hm

theorem inferredParameter_reads (hb : s.left * 8 ≤ W) :
    (inferredParameter ctx).Reads s fun n t => Built s ⟨.inferredParameter, ctx, n⟩ t := by
  refine .look (identifier_reads.bind fun name t _ _ hl hname => ?_)
  refine (inferredBound_reads (by omega)).bind fun bound u _ _ _ hbound => ?_
  have hc := hname.toExtends.append hbound
  exact node_built (.mark s) hc .inferredParameter (hc.fruitful (by simp)) (fun _ => rfl) rfl

theorem typeOperator_reads (hb : s.left * 8 ≤ W) :
    (typeOperator ctx).Reads s fun n t => Built s ⟨.typeOperator, ctx, n⟩ t := by
  have hoperator (hne : s.token ≠ .endOfFileToken) :
      (do let operator ← token
          advance
          let operand ← recur (.typeOperator ctx)
          Parse.node s.mark (.typeOperator operator operand) : Parse Node).Reads s fun n t =>
        Built s ⟨.typeOperator, ctx, n⟩ t := by
    refine .look ((advance_reads hne).bind fun _ t _ hm _ hlt => ?_)
    refine (typeOperator_rule (by omega)).bind fun operand u _ _ hl hoperand => ?_
    exact node_built (.mark s) (hoperand.toExtends.after hm) .typeOperator (.inl (by omega)) (fun _ => rfl) rfl
  refine .look (.look ?_)
  split
  case h_1 h =>
    refine .look ((advance_reads (h ▸ by decide)).bind fun _ t _ hm _ hlt => ?_)
    refine (inferredParameter_reads (by omega)).bind fun p u _ _ hl hp => ?_
    exact node_built (.mark s) (hp.toExtends.after hm) .inferType (.inl (by omega)) (fun _ => rfl) rfl
  case h_2 h => exact hoperator (h ▸ by decide)
  case h_3 h => exact hoperator (h ▸ by decide)
  case h_4 h => exact hoperator (h ▸ by decide)
  case h_5 => exact (postfixType_reads hb).mono fun _ _ hn => hn.choose (by simp)

omit [Recursion] in
/-- Types joined by an operator, each of which costs as much as the whole. -/
theorem combinedType_reads {operator : Kind} {sort : CombinationSort}
    {member : Parse Node} (ho : operator ≠ .endOfFileToken)
    (hchoice : (Phrase.joined sort).2 ∈ (Phrase.joined sort).1.choices)
    (hmember : ∀ (t : ParseState) [t.Ready], t.left ≤ s.left →
      member.Reads t fun n u => Built t ⟨(Phrase.joined sort).2, ctx, n⟩ u) :
    (combinedType operator sort member).Reads s fun n t =>
      Built s ⟨(Phrase.joined sort).1, ctx, n⟩ t := by
  refine .look ((accept_reads ho).bind fun _ t _ hm hl _ => ?_)
  refine (hmember t hl).bind fun first u _ _ hl' hfirst => ?_
  refine .ifAt (fun hat => ?_) fun _ => .pure ?_
  · refine (more_reads ho fun v _ _ _ => hmember v (by omega)).bind fun others v _ _ _ hothers => ?_
    have hc := (hfirst.toExtends.after hm).append hothers.1
    exact node_built (.mark s) hc (.combinedType (hothers.2 hat)) (hc.fruitful (by simp)) (fun _ => rfl) rfl
  · exact (hfirst.choose hchoice).after hm fun h => by cases sort <;> cases h

theorem intersectionMember_reads (hb : s.left * 8 + 1 ≤ W) :
    (intersectionMember ctx).Reads s fun n t => Built s ⟨.intersectionMember, ctx, n⟩ t := by
  refine (startsFunctionType_reads (by omega)).bind fun b t _ hm hl _ => .ite (fun _ => ?_) ?_
  · exact (functionType_reads (by omega)).mono fun _ _ hn => (hn.after hm nofun).choose (by simp)
  · exact fun _ => (typeOperator_rule (by omega)).mono fun _ _ hn => (hn.after hm nofun).choose (by simp)

theorem intersectionType_reads (hb : s.left * 8 + 1 ≤ W) :
    (intersectionType ctx).Reads s fun n t => Built s ⟨.intersectionType, ctx, n⟩ t :=
  combinedType_reads (by decide) (.head _) fun _ _ hl => intersectionMember_reads (by omega)

theorem unionType_reads (hb : s.left * 8 + 1 ≤ W) :
    (unionType ctx).Reads s fun n t => Built s ⟨.unionType, ctx, n⟩ t :=
  combinedType_reads (by decide) (.head _) fun _ _ hl => intersectionType_reads (by omega)

theorem type_reads (hb : s.left * 8 + 1 ≤ W) :
    (type ctx).Reads s fun n t => Built s ⟨.type, ctx, n⟩ t := by
  refine (startsFunctionType_reads (by omega)).bind fun b t _ hm hl _ => .ite (fun _ => ?_) ?_
  · exact (functionType_reads (by omega)).mono fun _ _ hn => (hn.after hm nofun).choose (by simp)
  intro _
  refine .look ((unionType_reads (by omega)).bind fun check u _ _ hl' hcheck => .look ?_)
  have hdone : (pure check : Parse Node).Reads u fun n v => Built s ⟨.type, ctx, n⟩ v :=
    .pure ((hcheck.after hm nofun).choose (by simp))
  refine .ite (fun _ => hdone) fun hopen => .ifAccept (by decide) (fun v _ hm₂ _ hlt => ?_) fun _ => hdone
  have hconditional : ctx.has .conditionalTypes = true := by
    simp only [Bool.or_eq_true, Bool.not_eq_true', not_or, Bool.not_eq_false] at hopen
    exact hopen.1
  refine (type_rule (by omega)).bind fun bound w _ _ hl₃ hbound => ?_
  refine (expect_fruitful (by decide)).bind fun _ x _ hm₃ hl₄ _ => ?_
  refine (type_rule (by omega)).bind fun whenTrue y _ _ hl₅ htrue => ?_
  refine (expect_fruitful (by decide)).bind fun _ z _ hm₄ hl₆ _ => ?_
  refine (type_rule (by omega)).bind fun whenFalse w' _ _ _ hfalse => ?_
  have hc := ((((hcheck.toExtends.move hm₂).part hbound).move hm₃).part htrue).move hm₄
  have hc' := hc.part hfalse
  exact (node_built (.mark t) hc' (.conditionalType hconditional) (hc'.fruitful (by simp)) (fun _ => rfl) rfl).mono
    fun _ _ hn => hn.after hm nofun

end EcmaSyntax.Grammar
