import EcmaSyntax.Proofs.Grammar.Function

/-! # Reading parenthesized lists

A list is read for what it turns out to be. Type parameters before it belong to arrow parameters
only; a list that is an argument list after all is derived without them, if there are none. What is
made of the elements of a list afterwards keeps the places that they have in it. -/
namespace EcmaSyntax.Grammar
open Parse ParseState Part
variable [Recursion] {W : Nat} [Lawful W] {r s t : ParseState} [r.Ready] [s.Ready] {ctx : Context}

omit [r.Ready] in
theorem startsReturnType_reads {certainty : Certainty} (hb : s.left * 8 ≤ W)
    (ht : s.token = .colonToken) :
    (startsReturnType ctx certainty).Reads s fun _ t => s.Still t := by
  have hcolon : s.flush.token ≠ .endOfFileToken := ht ▸ by decide
  refine .ite (fun _ => ?_) fun _ => .ite (fun _ => ?_) fun _ => .pure (.refl s)
  · refine (lookAhead_reads (P := fun _ => True) ?_).mono fun _ _ h => h.1 ▸ .flush s
    refine (advance_reads hcolon).bind fun _ t _ _ _ hlt => ?_
    have hlt : t.left < s.left := hlt
    refine (typeOrPredicate_reads (by omega)).bind fun _ u _ _ hl _ => ?_
    refine .ifAccept (by decide) (fun v _ _ _ hl' => ?_) fun _ => .pure trivial
    exact (assignment_rule (by omega)).bind fun _ _ _ _ _ _ => .observe trivial
  · refine (lookAhead_reads (P := fun _ => True) ?_).mono fun _ _ h => h.1 ▸ .flush s
    refine (advance_reads hcolon).bind fun _ t _ _ _ hlt => ?_
    have hlt : t.left < s.left := hlt
    exact (typeOrPredicate_reads (by omega)).bind fun _ _ _ _ _ _ => .observe trivial

/-! ## Lists -/

/-- The last element of a list is what the certainty says. -/
def Cover.Shaped (c : Cover) : Prop :=
  c.certainty.isPossible = true → ∀ e ∈ c.listed.toList.getLast?, e.endsParameters = true

/-- The elements of a list since a state. -/
structure Covers (ctx : Context) (s : ParseState) (c : Cover) (t : ParseState) : Prop where
  elements : Extends s (all .coverElement ctx c.listed.toList) t
  shaped : c.Shaped

omit [Recursion] [r.Ready] in
theorem Covers.move {c : Cover} (h : Covers ctx s c t) {u : ParseState} (hm : Moves t u) :
    Covers ctx s c u := ⟨h.elements.move hm, h.shaped⟩

omit [Recursion] [r.Ready] in
/-- A list with another element. -/
theorem Covers.push {c : Cover} {a : Node × Certainty} {l : Listed} {u : ParseState}
    (h : Covers ctx s c t) (ha : ReadElement .coverElement ctx t a u)
    (hl : l.items = (c.listed.push a.1).items) : Covers ctx s ⟨l, a.2⟩ u := by
  have htoList : l.toList = (c.listed.items.push a.1).toList := congrArg Array.toList hl
  refine ⟨htoList ▸ h.elements.all_push ha.built, fun hpossible e he => ?_⟩
  have he : e ∈ l.toList.getLast? := he
  rw [htoList, Array.toList_push, List.getLast?_concat] at he
  cases he
  exact ha.shaped hpossible

omit [r.Ready] in
/-- A turn through a list moves on behind a comma, or it ends the list. -/
theorem coverTurn_reads {c : Cover} [t.Ready] (hb : t.left * 8 + 6 ≤ W) (h : Covers ctx s c t) :
    (coverTurn ctx c).Reads t
      (AfterTurn (fun c u => Covers ctx s c u) (fun c u => Covers ctx s c u) t) := by
  refine atListEnd_reads (.pure h) fun _ _ => .look (.look (.ite (fun _ => ?_) fun _ => ?_))
  · refine (coverElement_rule hb).bind fun answer u _ hm _ hn => ?_
    cases answer with
    | none => exact .pure (h.move hm)
    | some a =>
      refine (afterItem_reads hm (Q := fun l v => Covers ctx s ⟨l, a.2⟩ v)
        fun l' v hitems hm' => ?_).bind fun turn v _ _ _ hturn => .pure ?_
      · exact (h.push (hn a rfl) hitems).move hm'
      · cases turn <;> exact hturn
  · exact reportHere_reads.bind fun _ u _ hm _ _ => .pure (h.move hm)

/-- A list that has been read since its mark, and what it is. -/
theorem coverRest_reads {m : Mark} {tps : Option (List Node)} {c : Cover} (hb : s.left * 8 ≤ W)
    (hm : m.At r) (hshaped : c.Shaped)
    (hc : Extends r (optAll .typeParameter ctx tps
      ++ all .coverElement ctx.argument c.listed.toList) s) :
    (coverRest ctx m tps c).Reads s fun n t =>
      (tps = none ∨ n.isArrowParameters = true → Derived r [⟨.coverList, ctx, n⟩] t) ∧
        n.range = r.rangeTo t := by
  -- an argument list is no node of its type parameters
  have hlist {t : ParseState} [t.Ready] (hmt : Moves s t) :
      (node m (.argumentList c.listed.toList c.listed.hasTrailingComma)).Reads t fun n u =>
        (tps = none ∨ n.isArrowParameters = true → Derived r [⟨.coverList, ctx, n⟩] u) ∧
          n.range = r.rangeTo u := by
    refine .observe ⟨fun h => ?_, hm.range_eq⟩
    rcases h with rfl | h
    · exact .node hm (hc.move hmt).derived .coverList (.inr (.of_free rfl))
    · cases h
  refine .ite (fun hpossible => ?_) fun _ => hlist (.refl s)
  have hshaped := hshaped hpossible
  have hreturns : (atReturnType ctx c.certainty).Reads s fun b t =>
      s.Still t ∧ (b = true → s.token = .colonToken) :=
    isAt_reads.and_still fun h => startsReturnType_reads hb h
  refine hreturns.bind fun b t _ hmt _ ht => .ite (fun hb' => ?_) fun _ => .ifAt (fun _ => ?_) ?_
  · have hne : t.token ≠ .endOfFileToken := ht.1.token_eq.trans (ht.2 hb') ▸ by decide
    refine (advance_reads hne).bind fun _ u _ hmu _ hlt => ?_
    have hleft := ht.1.left_eq
    refine (typeOrPredicate_reads (by omega)).bind fun result v _ _ _ hresult => ?_
    have hc' := (hc.move (hmt.trans hmu)).append hresult.opt
    exact .observe ⟨fun _ => .node hm hc'.derived (.arrowParameters hshaped)
      (.inr (.of_free rfl)), hm.range_eq⟩
  · have hc' := (hc.move hmt).append (.opt_none .typeOrPredicate ctx)
    exact .observe ⟨fun _ => .node hm hc'.derived (.arrowParameters hshaped)
      (.inr (.of_free rfl)), hm.range_eq⟩
  · exact fun _ => hlist hmt

/-- What is read as a list, from where its mark stands. -/
structure ReadList (ctx : Context) (tps : Option (List Node)) (r s : ParseState) (n : Node)
    (t : ParseState) : Prop where
  derived : tps = none ∨ n.isArrowParameters = true → Derived r [⟨.coverList, ctx, n⟩] t
  fruits : Fruitful s t
  consumed : s.token = .openParenToken → t.left < s.left
  spans : n.range = r.rangeTo t

theorem coverList_reads (ctx : Context) {m : Mark} (tps : Option (List Node))
    (hb : s.token = .openParenToken ∧ s.left * 8 ≤ W ∨ s.left * 8 + 6 ≤ W) (hm : m.At r)
    (hc : Extends r (optAll .typeParameter ctx tps) s) :
    (coverList ctx m tps).Reads s fun n t => ReadList ctx tps r s n t := by
  refine (between_holds (f := fun c => all .coverElement ctx.argument c.listed.toList)
    (P := Cover.Shaped) (by decide) (by decide) fun t _ _ hl hlt => ?_).bind
    fun c t _ _ hl hlisted => ?_
  · have hb' : t.left * 8 + 6 ≤ W := by
      rcases hb with ⟨htok, hb⟩ | hb
      · have hlt := hlt htok
        omega
      · omega
    have hlist : (loop (coverTurn ctx.argument) {}).Reads t fun c u => Covers ctx.argument t c u :=
      loop_reads _ ⟨.refl t, fun _ => nofun⟩ fun c u _ _ hl h => coverTurn_reads (by omega) h
    exact hlist.mono fun _ _ h => ⟨h.elements, h.shaped⟩
  · obtain ⟨⟨helements, hfruits, hconsumed⟩, hshaped⟩ := hlisted
    refine (coverRest_reads (by omega) hm hshaped (hc.append helements)).last
      fun n u hmu hl' hn => ?_
    refine ⟨hn.1, hfruits.move hmu ‹_›, fun htok => ?_, hn.2⟩
    have hlt := hconsumed htok
    omega

/-! ## Parenthesized expressions -/

omit [Recursion] [r.Ready] [s.Ready] in
theorem checkEnd_reads {arguments : Node} : (checkEnd arguments).Reads s fun _ t => s.Still t :=
  .ite (fun _ => reportAt_reads.mono fun _ _ h => h.still) fun _ => .pure (.refl s)

omit [Recursion] [r.Ready] [s.Ready] in
theorem checkElements_reads {arguments : Node} :
    (checkElements arguments).Reads s fun _ t => s.Still t ∧
      ((∃ e ∈ argumentElements arguments, (e.isParameter || e.isSpread) = true) → t.Faulty) := by
  refine .ite (fun _ => ?_) fun hnone => .pure ⟨.refl s, ?_⟩
  · exact reportMissing_reads.mono fun _ _ h => ⟨h.still, fun _ => h.faulty⟩
  · exact fun hex => absurd (List.any_eq_true.mpr hex) hnone

omit [Recursion] [r.Ready] in
theorem joinedElements_reads {arguments : Node} (hend : arguments.range.stop = s.full.offset)
    (hf : (∃ e ∈ argumentElements arguments, (e.isParameter || e.isSpread) = true) → s.Faulty) :
    (joinedElements arguments).Reads s fun n t => s.Still t ∧ Regrouped t arguments n := by
  unfold joinedElements
  split
  case h_1 h => exact .pure ⟨.refl s, .joined h hf⟩
  case h_2 h =>
    refine reportAt_reads.bind fun _ t _ _ _ hr => .observe ⟨hr.still, .missing ?_ hr.faulty ?_⟩
    · exact List.map_eq_nil_iff.mp h
    · rw [hr.still.full_eq, hend]

omit [Recursion] [r.Ready] in
theorem parenthesizedOf_reads {arguments : Node}
    (h : Derived r [⟨.coverList, ctx, arguments⟩] s)
    (hend : arguments.range.stop = s.full.offset) :
    (parenthesizedOf arguments).Reads s fun n t =>
      Derived r [⟨.primary, ctx, n⟩] t ∧ n.range = arguments.range ∧ s.Still t := by
  refine .look (checkEnd_reads.bind fun _ t _ hmt _ ht => ?_)
  refine checkElements_reads.bind fun _ u _ hmu _ hu => ?_
  have hend : arguments.range.stop = u.full.offset := by rw [(ht.trans hu.1).full_eq, hend]
  refine (joinedElements_reads hend hu.2).bind fun inner v _ hmv _ hv => .look (.pure ?_)
  exact ⟨.parenthesized h ((hmt.trans hmu).trans hmv) hv.2, rfl, (ht.trans hu.1).trans hv.1⟩

omit [r.Ready] in
theorem parenthesized_reads (hb : s.left * 8 ≤ W) (ht : s.token = .openParenToken) :
    (parenthesized ctx).Reads s fun n t => Built s ⟨.primary, ctx, n⟩ t := by
  refine .look ((coverList_reads ctx none (.inl ⟨ht, hb⟩) (.mark s) (.refl s)).bind
    fun list t _ _ _ hlist => ?_)
  have hlt := hlist.consumed ht
  refine .ite (fun harrow => .pure ?_) fun _ => ?_
  · have hn := Derived.serve (hlist.derived (.inl rfl)) (.coveredArrow harrow)
    exact (Built.of_lt hn hlt fun _ => .inr hlist.spans).choose (by simp)
  · have hreach := (hlist.derived (.inl rfl)).moves.start_reaches_full ‹s.Ready› hlt
    have hend : list.range.stop = t.full.offset := by
      rw [hlist.spans]
      exact Nat.max_eq_left (hreach.offset_le ‹s.Ready›.start_sound)
    refine (parenthesizedOf_reads (hlist.derived (.inl rfl)) hend).last fun n u _ hl hn => ?_
    obtain ⟨hn, hrange, hstill⟩ := hn
    refine .of_lt hn (by omega) fun _ => .inr (hrange.trans (hlist.spans.trans ?_))
    rw [rangeTo, rangeTo, hstill.full_eq]

/-! ## Calls and arrow functions behind a list -/

omit [Recursion] [r.Ready] [s.Ready] in
theorem checkCall_reads {arguments : Node} : (checkCall arguments).Reads s fun _ _ => True :=
  .ite (fun _ => reportMissing_reads.mono fun _ _ _ => trivial) fun _ => .pure trivial

omit [r.Ready] in
theorem asyncCallOrArrow_reads (hb : s.left * 8 ≤ W) (ht : s.token = .asyncKeyword)
    (hline : (s.consume .plain).OnLine) :
    (asyncCallOrArrow ctx).Reads s fun n t => Built s ⟨.primary, ctx, n⟩ t := by
  have hword : Leaf s.Faulty s.reading .word ctx (nameForm s.reading) := by
    refine .word ?_
    change s.token ∈ _
    simp [ht]
  refine .look (((identifierToken_reads hword (ht ▸ by decide)).both leaf_run).bind
    fun callee t _ _ _ hcallee => ?_)
  obtain ⟨hcallee, hform, -⟩ := hcallee
  have hasync : callee.isWord .asyncKeyword = true := by
    rw [Node.isWord, hform, nameForm, show s.reading.token = .asyncKeyword from ht]
    rfl
  have hlt := hcallee.2
  refine .look ((coverList_reads ctx none (.inr (by omega)) (.mark t) (.refl t)).bind
    fun list u _ hmu hl hlist => ?_)
  have hderived := hlist.derived (.inl rfl)
  have hend : u.Faulty ∨ list.range.stop = u.full.offset :=
    hlist.spans ▸ Fruitful.rangeTo_stop hlist.fruits hmu
  refine .ite (fun harrow => ?_) fun hcall => ?_
  · have hlist : Extends t [⟨.arrowParameters, ctx, list⟩] u :=
      ⟨.serve hderived (.coveredArrow harrow), fun _ => hlist.fruits⟩
    refine (arrowFunction_reads (.inr (by omega)) (.mark s)
      (hlist.after hcallee.1.toExtends.moves) hend
      fun _ => ⟨_, s, .refl s, ht, rfl, hline, rfl⟩).mono fun _ _ hn => ?_
    obtain ⟨⟨_, hform⟩, hn⟩ := hn
    exact hn.serve (.asyncArrow hform)
  · refine checkCall_reads.bind fun _ v _ hmv hl' _ => ?_
    have hlist : Extends t [⟨.coverList, ctx, list⟩] u := ⟨hderived, fun _ => hlist.fruits⟩
    have hc := (hcallee.1.toExtends.append hlist).move hmv
    exact node_built (.mark s) hc (.asyncCall hasync (Bool.eq_false_iff.mpr hcall))
      (.inl (by omega)) (fun _ => rfl) rfl

omit [Recursion] [r.Ready] in
theorem mayOpenTypeParameters_reads :
    (mayOpenTypeParameters ctx).Reads s fun _ t => s.Still t := by
  refine .ite (fun _ => ?_) fun _ => .pure (.refl s)
  refine (lookAhead_reads (P := fun _ => True) ?_).mono fun _ _ h => h.1 ▸ .flush s
  refine advance_run.bind fun _ t _ _ _ _ => .look (.ite (fun _ => ?_) fun _ => .pure trivial)
  exact advance_run.bind fun _ _ _ _ _ _ => .observe trivial

omit [r.Ready] in
/-- The parameters of an arrow function with type parameters. -/
theorem genericParameters_reads (hb : s.left * 8 ≤ W) :
    (genericParameters ctx).Reads s fun answer t => ∀ n ∈ answer,
      Built s ⟨.arrowParameters, ctx, n⟩ t ∧ n.isArrowParameters = true := by
  refine .look ((typeParameters_reads hb).bind fun tps t _ _ hl htps => .ifAt (fun htok => ?_) ?_)
  · refine (coverList_reads ctx (some tps) (.inl ⟨htok, by omega⟩) (.mark s) htps.1).bind
      fun list u _ _ _ hlist => .pure fun n hn => ?_
    have hlt := hlist.consumed htok
    split at hn
    case isTrue harrow =>
      cases hn
      refine ⟨.of_lt (.serve (hlist.derived (.inr harrow)) (.coveredArrow harrow)) ?_
        fun _ => .inr hlist.spans, harrow⟩
      omega
    case isFalse => cases hn
  · exact fun _ => .pure nofun

end EcmaSyntax.Grammar
