import EcmaSyntax.Proofs.Grammar.Type

/-! # Reading elements

The attributes of a tag and the children of an element are nodes even where there are none of them.
Such a node stands between two tokens that are consumed or reported as missing, so that an element
as a whole is never read for nothing. -/
namespace EcmaSyntax

theorem Scanner.rescanHyphenatedName_token (s : Scanner) :
    s.rescanHyphenatedName.token = s.token ∨ s.rescanHyphenatedName.token = .identifier := by
  unfold rescanHyphenatedName
  split
  · exact .inr rfl
  · exact .inl rfl

/-- Parts and the tokens behind them, which are there or have been reported as missing. -/
theorem Derived.extends {s t u : ParseState} {ps : List Part} (h : Derived s ps t) (hm : Moves t u)
    (hf : Fruitful s u) : Extends s ps u := by
  have happ := Derived.append h (.nil hm) fun hne => absurd rfl hne
  rw [List.append_nil] at happ
  exact ⟨happ, fun _ => hf⟩

namespace Grammar
open Parse ParseState Part
variable {s t : ParseState} [s.Ready] {ctx : Context}

/-! ## Tags -/

/-- A name that is read with its hyphens is still one. -/
theorem hyphens_reads :
    (reread .hyphenatedName).Reads s fun _ t =>
      t.start = s.start ∧ (s.token.isName = true → t.token.isName = true) := by
  refine .act ⟨(Scanner.reread_reread _ (‹s.Ready›).token).start_eq, fun h => ?_⟩
  rcases Scanner.rescanHyphenatedName_token s.scanner with heq | heq
  · exact (congrArg Kind.isName heq).trans h
  · exact congrArg Kind.isName heq

theorem hyphenatedName_reads (ctx : Context) :
    hyphenatedName.Reads s fun n t => Built s ⟨.name, ctx, n⟩ t :=
  hyphens_reads.bind fun _ _ _ hm _ ht =>
    (name_reads ctx).mono fun _ _ hn => hn.after hm fun _ => .inr ht.1

/-- The name of a tag. Its path is the one of its node, if it is `known` to be so far. -/
structure ReadTag (known : Prop) (ctx : Context) (s : ParseState) (tag : Tag) (t : ParseState) :
    Prop where
  built : Built s ⟨.tagName, ctx, tag.node⟩ t
  path_eq : known → tag.path = tag.node.tagPath

omit [s.Ready] in
theorem tagSoFar_reads (known : Prop) {r : ParseState} {m : Mark} {n : Node} {path : Node.TagPath}
    (h : Built r ⟨.tagName, ctx, n⟩ s) (hpath : known → path = n.tagPath) :
    (tagSoFar m n path).Reads s fun tag t => t = s ∧ ReadTag known ctx r tag t :=
  .look (.pure ⟨rfl, h, hpath⟩)

/-- A token is a plain name. -/
theorem tagPath_nameForm {n : Node} {r : Reading} (h : n.form = nameForm r) :
    .plain (textOf n) = n.tagPath := by
  obtain ⟨header, form⟩ := n
  obtain rfl : form = nameForm r := h
  unfold nameForm
  split <;> rfl

/-- One turn through a dotted name. -/
theorem tagTurn_reads {known : Prop} {m : Mark} {tag : Tag} [t.Ready] (hm : m.At s)
    (h : ReadTag known ctx s tag t) :
    (tagTurn m tag).Reads t (AfterTurn (ReadTag known ctx s) (ReadTag known ctx s) t) := by
  refine .ifAccept (by decide) (fun u _ hm' _ hlt => ?_) fun _ => .pure h
  refine (name_reads ctx).bind fun member v _ _ hl hmember => ?_
  have hc : Extends s _ v := (h.built.toExtends.move hm').part hmember
  refine (node_reads hm hc .tagMember (hc.fruitful nofun) (fun _ => rfl) rfl).bind fun both w _ _ _ hboth => ?_
  obtain ⟨rfl, hform, hboth⟩ := hboth
  have hpath (hk : known) : .member tag.path (textOf member) = both.tagPath := by
    obtain ⟨header, form⟩ := both
    obtain rfl : form = .jsxMemberName tag.node member := hform
    rw [Node.tagPath, h.path_eq hk, textOf]
  refine (tagSoFar_reads known hboth hpath).bind fun tag' x _ _ _ htag => ?_
  obtain ⟨rfl, htag⟩ := htag
  exact .pure ⟨by omega, htag⟩

theorem tagName_reads (ctx : Context) : tagName.Reads s (ReadTag True ctx s) := by
  refine .look (hyphens_reads.bind fun _ t _ hmt _ ht => .look (.ite (fun hname => ?_) fun hname => ?_))
  · refine ((nameToken_reads ctx hname).both leaf_run).bind fun first u _ _ _ hfirst => ?_
    obtain ⟨⟨hfirst, -⟩, hform, -⟩ := hfirst
    have hfirst : Built s ⟨.name, ctx, first⟩ u := hfirst.after hmt fun _ => .inr ht.1
    refine .ifAccept (by decide) (fun v _ hmv _ _ => ?_) fun _ => ?_
    · refine (hyphenatedName_reads ctx).bind fun second w _ _ _ hsecond => ?_
      have hc : Extends s _ w := (hfirst.toExtends.move hmv).part hsecond
      refine (node_reads (.mark s) hc .namespacedName (hc.fruitful nofun) (fun _ => rfl) rfl).bind
        fun both x _ _ _ hboth => ?_
      obtain ⟨rfl, hform, hboth⟩ := hboth
      have hpath : .namespaced (textOf first) (textOf second) = both.tagPath := by
        obtain ⟨header, form⟩ := both
        obtain rfl : form = .jsxNamespacedName first second := hform
        rw [Node.tagPath, textOf, textOf]
      exact (tagSoFar_reads True (hboth.choose (by simp)) fun _ => hpath).mono fun _ _ htag => htag.2
    · refine (tagSoFar_reads True (hfirst.choose (by simp)) fun _ => tagPath_nameForm hform).bind
        fun tag v _ _ _ htag => ?_
      exact loop_reads (ReadTag True ctx s) htag.2 fun _ _ _ _ _ h => tagTurn_reads (.mark s) h
  · refine reportHere_reads.bind fun _ u _ hmu _ hr => ?_
    refine (missing_reads .tagName ctx hr.faulty (.nil (.refl u)) .identifier fun _ => rfl).bind
      fun n v _ _ _ hn => .pure ⟨hn.2.after (hmt.trans hmu) nofun, fun _ => ?_⟩
    obtain ⟨header, form⟩ := n
    obtain rfl : form = .identifier false "" none := hn.1
    rfl

/-- Behind a token that is consumed among children the next one is read as a child. -/
theorem advanceToChild_reads (ht : s.token ≠ .endOfFileToken) :
    advanceToChild.Reads s fun _ t => t.left < s.left ∧ t.AtChild :=
  ((consume_reads .child ht).both (consume_run .child)).mono
    fun _ _ h => ⟨h.1, h.2 ▸ consume_atChild s⟩

/-- The end of a tag is consumed or reported as missing. -/
theorem closeTag_reads {inExpression : Bool} :
    (closeTag inExpression).Reads s fun _ t =>
      Fruitful s t ∧ (inExpression = false → t.Faulty ∨ t.AtChild) := by
  refine .ifAt (fun h => .ite (fun hb => ?_) fun _ => ?_) fun _ => ?_
  · exact (advance_reads (h ▸ by decide)).mono fun _ _ hlt =>
      ⟨.inl hlt, fun hno => absurd hb (Bool.eq_false_iff.mp hno)⟩
  · exact (advanceToChild_reads (h ▸ by decide)).mono fun _ _ h => ⟨.inl h.1, fun _ => .inr h.2⟩
  · exact reportExpected_reads.mono fun _ _ h => ⟨.inr h.faulty, fun _ => .inl h.faulty⟩

/-! ## Attributes -/

theorem closeEmbedded_reads {inChildren : Bool} :
    (closeEmbedded inChildren).Reads s fun _ t => inChildren = true → t.Faulty ∨ t.AtChild := by
  refine .ite (fun _ => .ifAt (fun h => ?_) fun _ => ?_) fun hno => ?_
  · exact (advanceToChild_reads (h ▸ by decide)).mono fun _ _ h _ => .inr h.2
  · exact reportExpected_reads.mono fun _ _ h _ => .inl h.faulty
  · exact (expect_reads (by decide)).bind fun _ _ _ _ _ _ => .pure fun hb => absurd hb hno

theorem attributeName_reads (ctx : Context) (ht : s.token.isName = true) :
    attributeName.Reads s fun n t => Built s ⟨.attributeName, ctx, n⟩ t ∧ t.left < s.left := by
  refine .look (hyphens_reads.bind fun _ t _ hmt _ hname => ?_)
  obtain ⟨hstart, hname⟩ := hname
  refine (nameToken_reads ctx (hname ht)).bind fun first u _ _ _ hfirst => ?_
  have hleft : t.left = s.left := congrArg Cursor.left hstart
  have hlt : u.left < s.left := hleft ▸ hfirst.2
  have hfirst : Built s ⟨.name, ctx, first⟩ u := hfirst.1.after hmt fun _ => .inr hstart
  refine .ifAccept (by decide) (fun v _ hmv _ _ => ?_) fun _ => .pure ⟨hfirst.choose (by simp), hlt⟩
  refine (hyphenatedName_reads ctx).bind fun second w _ _ hl hsecond => ?_
  have hc : Extends s _ w := (hfirst.toExtends.move hmv).part hsecond
  refine (node_reads (.mark s) hc .namespacedName (hc.fruitful nofun) (fun _ => rfl) rfl).mono fun n x hn => ?_
  obtain ⟨rfl, -, hn⟩ := hn
  exact ⟨hn.choose (by simp), by omega⟩

variable [Recursion] {W : Nat} [Lawful W]

theorem embedded_reads {inChildren : Bool} (hb : s.left * 8 ≤ W) (ht : s.token = .openBraceToken) :
    (embedded ctx inChildren).Reads s (ReadMarkup .embedded ctx inChildren s) := by
  refine .look ((expect_here (by decide) ht).bind fun _ t _ hmt _ hlt => ?_)
  have hspreads : ((return inChildren) <&&> accept .dotDotDotToken : Parse Bool).Reads t
      fun _ _ => True :=
    .and (Q := fun _ _ => True) (.pure trivial) (fun _ _ => trivial) fun u _ _ _ _ =>
      (accept_reads (by decide)).mono fun _ _ _ => trivial
  refine hspreads.bind fun spreads u _ hmu hl _ => ?_
  have hinner : (unlessAtAny [.closeBraceToken] (expression ctx)).Reads u
      fun e v => Extends u (opt .expression ctx e) v :=
    unlessAtAny_reads rfl fun _ => (expression_reads (by omega)).mono fun _ _ hn => hn.opt
  refine hinner.bind fun inner v _ _ hl' hinner => ?_
  refine closeEmbedded_reads.bind fun _ w _ hmw hl'' hchild => ?_
  have hlt : w.left < s.left := by omega
  have hc := (hinner.after (hmt.trans hmu)).move hmw
  refine (node_reads (.mark s) hc .embedded (.inl hlt) (fun _ => rfl) rfl).mono fun n x hn => ?_
  obtain ⟨rfl, hform, hn⟩ := hn
  exact ⟨hn, hlt, by rw [Node.childText?, hform], hchild⟩

theorem spreadAttribute_reads (hb : s.left * 8 ≤ W) (ht : s.token = .openBraceToken) :
    (spreadAttribute ctx).Reads s fun n t => Built s ⟨.attribute, ctx, n⟩ t := by
  refine .look ((expect_here (by decide) ht).bind fun _ t _ hmt _ hlt => ?_)
  refine (expect_reads (by decide)).bind fun _ u _ hmu hl _ => ?_
  refine (expression_reads (by omega)).bind fun inner v _ _ hl' hinner => ?_
  refine (expect_reads (by decide)).bind fun _ w _ hmw hl'' _ => ?_
  have hc := (hinner.toExtends.after (hmt.trans hmu)).move hmw
  exact node_built (.mark s) hc .spreadAttribute (.inl (by omega)) (fun _ => rfl) rfl

theorem attributeValue_reads (hb : s.left * 8 ≤ W) :
    (attributeValue ctx).Reads s fun n t => Extends s (opt .attributeValue ctx n) t := by
  refine .ifAt (fun h => ?_) fun _ => .pure (.opt_none _ ctx)
  refine (consume_reads .attributeValue (h ▸ by decide)).bind fun _ t _ hm _ hlt => .look ?_
  split
  case h_1 h =>
    exact .map ((literal_reads ctx (h ▸ rfl)).mono fun _ _ hn => ((hn.1.choose (by simp)).opt.after hm))
  case h_2 h =>
    exact .map ((embedded_reads (by omega) h).mono fun _ _ hn =>
      ((hn.built.choose (by simp)).opt.after hm))
  case h_3 h =>
    exact .map ((element_rule (by omega) h).mono fun _ _ hn =>
      ((hn.built.choose (by simp)).opt.after hm))
  case h_4 => exact reportHere_reads.bind fun _ u _ hm' _ _ => .pure (.nil (hm.trans hm'))

theorem namedAttribute_reads (hb : s.left * 8 ≤ W) (ht : s.token.isName = true) :
    (namedAttribute ctx).Reads s fun n t => Built s ⟨.attribute, ctx, n⟩ t := by
  refine .look ((attributeName_reads ctx ht).bind fun name t _ _ _ hname => ?_)
  have hlt := hname.2
  refine (attributeValue_reads (by omega)).bind fun value u _ _ hl hvalue => ?_
  exact node_built (.mark s) (hname.1.toExtends.append hvalue) .namedAttribute (.inl (by omega)) (fun _ => rfl) rfl

theorem tagAttribute_reads (hb : s.left * 8 ≤ W)
    (ht : s.token ≠ .openBraceToken → s.token.isName = true) :
    (tagAttribute ctx).Reads s fun n t => Built s ⟨.attribute, ctx, n⟩ t :=
  .ifAt (fun h => spreadAttribute_reads hb h) fun h => namedAttribute_reads hb (ht h)

theorem attributeTurn_reads {found : Array Node} [t.Ready] (hb : t.left * 8 ≤ W)
    (h : Extends s (all .attribute ctx found.toList) t) :
    (attributeTurn ctx found).Reads t
      (AfterTurn (fun found u => Extends s (all .attribute ctx found.toList) u)
        (fun found u => Extends s (all .attribute ctx found.toList) u) t) := by
  refine .ifAtAny (fun _ => .pure h) fun _ => .look (.look (.look (.ite (fun _ => ?_) fun hstart => ?_)))
  · exact reportHere_reads.bind fun _ u _ hm _ _ => .pure (h.move hm)
  have hstart : t.token ≠ .openBraceToken → t.token.isName = true := fun hne => by
    simpa [hne] using hstart
  refine (tagAttribute_reads hb hstart).bind fun n u _ hm hl hn => .look (.pure ?_)
  have hpush := h.all_push hn
  split
  case isTrue => exact hpush
  case isFalse hmoved =>
    refine ⟨Nat.lt_of_le_of_ne hl fun heq => hmoved ?_, hpush⟩
    rw [hm.start_eq ‹_› heq]
    exact beq_self_eq_true _

theorem attributes_reads (hb : s.left * 8 ≤ W) :
    (attributes ctx).Reads s fun n t => Derived s [⟨.attributes, ctx, n⟩] t := by
  refine .look ((collect_reads _ _ fun found t _ _ _ h => attributeTurn_reads (by omega) h).bind
    fun found t _ _ _ h => ?_)
  exact .observe (.node (.mark s) h.derived .attributes (.inr (.of_free rfl)))

/-! ## Children -/

/-- Children that have been read so far. They stand one behind the other if the first of them is
read as a child, or something is faulty. -/
structure ReadChildren (ctx : Context) (s : ParseState) (found : Array Node) (t : ParseState) :
    Prop where
  parts : Extends s (all .child ctx found.toList) t
  tiled : s.AtChild → t.Faulty ∨ s.TiledTo found.toList t

omit [Recursion] [s.Ready] in
theorem ReadChildren.refl (ctx : Context) (s : ParseState) : ReadChildren ctx s #[] s :=
  ⟨.refl s, fun hs => .inr hs.tiledTo⟩

omit [Recursion] in
/-- One more child. If it is a text, there is none behind it. -/
theorem ReadChildren.push {u : ParseState} {found : Array Node} {n : Node} [t.Ready]
    (h : ReadChildren ctx s found t) (hn : Built t ⟨.child, ctx, n⟩ u) (hlt : u.left < t.left)
    (hu : u.Faulty ∨ u.AtChild)
    (htext : t.AtChild → ∀ text ∈ n.childText?,
      t.token = .jsxText ∧ IsChildText text ∧ u.token ≠ .jsxText) :
    ReadChildren ctx s (found.push n) u := by
  refine ⟨h.parts.all_push hn, fun hs => ?_⟩
  by_cases hf : u.Faulty
  · exact .inl hf
  have htiled := (h.tiled hs).resolve_left fun ht => hf (hn.moves.faulty ht)
  have hpush := htiled.push hn.moves hlt (hu.resolve_left hf) ((hn.pos_eq rfl).resolve_left hf)
    ((hn.stop_eq rfl).resolve_left hf) (htext htiled.atChild)
  rw [Array.toList_push]
  exact .inr hpush

omit [Recursion] in
theorem childText_reads (ht : s.token = .jsxText) :
    childText.Reads s fun n t => Built s ⟨.childText, ctx, n⟩ t ∧ t.left < s.left ∧ t.AtChild ∧
      (s.AtChild → ∀ text ∈ n.childText?,
        s.token = .jsxText ∧ IsChildText text ∧ t.token ≠ .jsxText) := by
  have hleaf : childText.Reads s fun n t => Built s ⟨.childText, ctx, n⟩ t ∧ t.left < s.left :=
    leaf_reads (.childText ht) (ht ▸ by decide)
  refine (hleaf.both leaf_run).mono fun n t h => ?_
  obtain ⟨⟨hn, hlt⟩, hform, rfl⟩ := h
  refine ⟨hn, hlt, consume_atChild s, fun hs text htext => ?_⟩
  rw [Node.childText?, hform, textForm, Option.mem_some_iff] at htext
  exact ⟨ht, htext ▸ hs.isChildText ht, hs.token_consume_ne ht⟩

theorem childTurn_reads {found : Array Node} [t.Ready] (hb : t.left * 8 + 1 ≤ W)
    (h : ReadChildren ctx s found t) :
    (childTurn ctx found).Reads t (AfterTurn (ReadChildren ctx s) (ReadChildren ctx s) t) := by
  have hmarkup {ph : Phrase} {n : Node} {u : ParseState} (hn : ReadMarkup ph ctx true t n u)
      (hph : ph ∈ Phrase.child.choices) : ReadChildren ctx s (found.push n) u :=
    h.push (hn.built.choose hph) hn.consumed (hn.atChild rfl) fun _ text htext =>
      nomatch hn.no_text.symm.trans htext
  refine .look ?_
  split
  case h_1 ht =>
    exact (childText_reads ht).bind fun n u _ _ _ hn =>
      .pure ⟨hn.2.1, h.push (hn.1.choose (by simp)) hn.2.1 (.inr hn.2.2.1) hn.2.2.2⟩
  case h_2 ht =>
    exact (embedded_reads (by omega) ht).bind fun n u _ _ _ hn =>
      .pure ⟨hn.consumed, hmarkup hn (by simp)⟩
  case h_3 ht =>
    exact (element_rule hb ht).bind fun n u _ _ _ hn => .pure ⟨hn.consumed, hmarkup hn (by simp)⟩
  case h_4 => exact .pure h
  case h_5 => exact .pure h
  case h_6 htext hbrace hless hslash hend =>
    -- among children there is no such token
    refine (advanceToChild_reads hend).bind fun _ u _ hm _ hu =>
      .pure ⟨hu.1, h.parts.move hm, fun hs => ?_⟩
    rcases h.tiled hs with hf | htiled
    · exact .inl (hm.faulty hf)
    · have hchild := htiled.atChild.isChildToken
      unfold Kind.isChildToken at hchild
      split at hchild <;> contradiction

theorem childLoop_reads (hb : s.left * 8 + 1 ≤ W) :
    (loop (childTurn ctx) #[]).Reads s (ReadChildren ctx s) :=
  loop_reads (ReadChildren ctx s) (.refl ctx s) fun _ _ _ _ _ h => childTurn_reads (by omega) h

theorem children_reads (hb : s.left * 8 + 1 ≤ W) :
    (children ctx).Reads s fun n t => Derived s [⟨.children, ctx, n⟩] t ∧
      (s.AtChild → t.Faulty ∨ ∃ cs, n.form = .jsxChildren cs ∧ s.TiledTo cs t) := by
  have hcollect : (collect (childTurn ctx)).Reads s fun cs t =>
      Extends s (all .child ctx cs) t ∧ (s.AtChild → t.Faulty ∨ s.TiledTo cs t) :=
    (childLoop_reads hb).bind fun _ _ _ _ _ h => .pure ⟨h.parts, h.tiled⟩
  refine .look (hcollect.bind fun cs t _ _ _ h => ?_)
  exact .observe ⟨.node (.mark s) h.1.derived .children (.inr (.of_free rfl)),
    fun hs => (h.2 hs).imp_right fun htiled => ⟨cs, rfl, htiled⟩⟩

omit [Recursion] [s.Ready] in
theorem checkClosing_reads {opening tag : Tag} :
    (checkClosing opening tag).Reads s fun _ t => t.Faulty ∨ opening.path = tag.path := by
  refine .ite (fun _ => reportAt_reads.mono fun _ _ h => .inl h.faulty) fun h => .pure (.inr ?_)
  exact (of_not_not (mt bne_iff_ne.mpr h)).symm

omit [Recursion] in
theorem closingElement_reads (ctx : Context) {opening : Tag} {inExpression : Bool} :
    (closingElement opening inExpression).Reads s fun n t => Built s ⟨.closing, ctx, n⟩ t ∧
      (t.Faulty ∨ ∃ tag : Node, n.form = .jsxClosing tag ∧ opening.path = tag.tagPath) ∧
      (inExpression = false → t.Faulty ∨ t.AtChild) := by
  refine .look (.ifAt (fun h => ?_) fun _ => ?_)
  · refine (advance_reads (h ▸ by decide)).bind fun _ t _ hmt _ hlt => ?_
    refine (tagName_reads ctx).bind fun tag u _ _ hl htag => ?_
    refine checkClosing_reads.bind fun _ v _ hmv hl' hpath => ?_
    refine closeTag_reads.bind fun _ w _ hmw hl'' hclose => ?_
    have hc := ((htag.built.toExtends.after hmt).move hmv).move hmw
    refine (node_reads (.mark s) hc .closing (.inl (by omega)) (fun _ => rfl) rfl).mono fun n x hn => ?_
    obtain ⟨rfl, hform, hn⟩ := hn
    refine ⟨hn, ?_, hclose.2⟩
    exact hpath.imp hmw.faulty fun hpath => ⟨tag.node, hform, hpath.trans (htag.path_eq trivial)⟩
  · refine reportAt_reads.bind fun _ t _ hmt _ hr => .look ?_
    have hname : Derived t [⟨.identifier, ctx, .mk t.missingHeader (.identifier false "" none)⟩] t :=
      .missing hr.faulty (.nil (.refl t)) .identifier
    refine (missing_reads .closing ctx hr.faulty hname (.closing ctx _) fun _ => rfl).mono
      fun _ _ hn => ?_
    have hf := hn.2.moves.faulty hr.faulty
    exact ⟨hn.2.after hmt fun _ => .inl hf, .inl hf, fun _ => .inl hf⟩

omit [Recursion] in
theorem checkFragment_reads : checkFragment.Reads s fun _ _ => True := by
  refine .ifAt (fun _ => .pure trivial) fun _ => ?_
  refine reportMissing_reads.bind fun _ t _ _ _ _ => .look (.ite (fun _ => ?_) fun _ => ?_)
  · exact (tagName_reads ∅).bind fun _ _ _ _ _ _ => .pure trivial
  · exact .pure trivial

omit [Recursion] in
theorem closeFragment_reads {inExpression : Bool} :
    (closeFragment inExpression).Reads s fun _ t =>
      Fruitful s t ∧ (inExpression = false → t.Faulty ∨ t.AtChild) := by
  refine .ifAt (fun h => ?_) fun _ =>
    reportMissing_reads.mono fun _ _ h => ⟨.inr h.faulty, fun _ => .inl h.faulty⟩
  refine (advance_reads (h ▸ by decide)).bind fun _ t _ _ _ hlt => ?_
  refine checkFragment_reads.bind fun _ u _ _ hl _ => ?_
  exact closeTag_reads.mono fun _ v hclose => hclose.imp_left (·.imp_left fun hl' => by omega)

theorem element_reads {inExpression : Bool} (hb : s.left * 8 ≤ W) (ht : s.token = .lessThanToken) :
    (element ctx inExpression).Reads s (ReadMarkup .element ctx (!inExpression) s) := by
  refine .look ((expect_here (by decide) ht).bind fun _ t _ hmt _ hlt => ?_)
  have hlt := hlt.2
  refine .ifAt (fun h => ?_) fun _ => ?_
  · refine (advanceToChild_reads (h ▸ by decide)).bind fun _ u _ hmu hl _ => ?_
    refine (children_reads (by omega)).bind fun cs v _ _ hl' hcs => ?_
    refine closeFragment_reads.bind fun _ w _ hmw hl'' hclose => ?_
    have hw : w.left < s.left := by omega
    have hc := (hcs.1.extends hmw (hclose.1.of_move hcs.1.moves ‹_›)).after (hmt.trans hmu)
    refine (node_reads (.mark s) hc .fragment (.inl hw) (fun _ => rfl) rfl).mono fun n x hn => ?_
    obtain ⟨rfl, hform, hn⟩ := hn
    exact ⟨hn, hw, by rw [Node.childText?, hform], fun h => hclose.2 (by simpa using h)⟩
  refine (tagName_reads ctx.enclosed).bind fun tag u _ _ hl htag => ?_
  have hts : (whenAt .lessThanToken (typeArguments ctx.enclosed)).Reads u fun ts v =>
      Extends u (optAll .type (withConditionalTypes ctx.enclosed) ts) v :=
    whenAt_reads rfl fun h => (typeArguments_reads (by omega) h).mono fun _ _ hts => hts.1
  refine hts.bind fun ts v _ _ hl₂ hts => ?_
  refine (attributes_reads (by omega)).bind fun as w _ hmw hl₃ has => ?_
  have hhead := (htag.built.toExtends.after hmt).append hts
  refine (accept_reads (by decide)).bind fun b x _ hmx hl₄ hx => ?_
  rcases hx with ⟨rfl, -, hx⟩ | ⟨rfl, -, rfl⟩
  · refine closeTag_reads.bind fun _ y _ hmy hl₅ hclose => ?_
    have hy : y.left < s.left := by omega
    have hc := hhead.append (has.extends (hmx.trans hmy) (.inl (by omega)))
    refine (node_reads (.mark s) hc .emptyElement (.inl hy) (fun _ => rfl) rfl).mono fun n z hn => ?_
    obtain ⟨rfl, hform, hn⟩ := hn
    exact ⟨hn, hy, by rw [Node.childText?, hform], fun h => hclose.2 (by simpa using h)⟩
  refine closeTag_reads.bind fun _ y _ hmy hl₅ hclose => ?_
  have hy : y.left < s.left := by omega
  have hc := hhead.append (has.extends hmy (hclose.1.of_move has.moves ‹_›))
  refine (node_reads (.mark s) hc .opening (.inl hy) (fun _ => rfl) rfl).bind fun opening z _ _ _ hopening => ?_
  obtain ⟨rfl, hopens, hopening⟩ := hopening
  refine (children_reads (by omega)).bind fun cs t₁ _ hm₁ hl₆ hcs => ?_
  refine (closingElement_reads ctx.enclosed).bind fun closing t₂ _ hm₂ hl₇ hclosing => ?_
  obtain ⟨hcs, htiled⟩ := hcs
  obtain ⟨hclosing, hcloses, hchild⟩ := hclosing
  have hrest : Extends z _ t₂ :=
    ⟨.append hcs hclosing.derived hclosing.fruitful, fun _ => hclosing.fruits.of_move hm₁ ‹_›⟩
  have ht₂ : t₂.left < s.left := by omega
  have htiles : t₂.Faulty ∨ Tiled opening cs closing := by
    by_cases hf : t₂.Faulty
    · exact .inl hf
    have hf₁ : ¬ t₁.Faulty := fun h => hf (hm₂.faulty h)
    have hfz : ¬ z.Faulty := fun h => hf₁ (hm₁.faulty h)
    have hz := (hclose.2 rfl).resolve_left hfz
    obtain ⟨nodes, hnodes, htiled⟩ := (htiled hz).resolve_left hf₁
    obtain ⟨tag', htag', hpath⟩ := hcloses.resolve_left hf
    have hfirst : opening.range.stop = z.start.offset := by
      rw [hz.start_eq]
      exact (hopening.stop_eq rfl).resolve_left hfz
    have hlast : closing.range.pos = t₁.start.offset := (hclosing.pos_eq rfl).resolve_left hf
    refine .inr ⟨tag.node, ts, as, nodes, tag', hopens, hnodes, htag', ?_, ?_, htiled.apart⟩
    · exact (htag.path_eq trivial).symm.trans hpath
    · exact hfirst ▸ hlast ▸ htiled.tiles
  refine (node_reads (.mark s) (hopening.toExtends.append hrest) (.element htiles) (.inl ht₂)
    (fun _ => rfl) rfl).mono fun n t₃ hn => ?_
  obtain ⟨rfl, hform, hn⟩ := hn
  exact ⟨hn, ht₂, by rw [Node.childText?, hform], fun h => hchild (by simpa using h)⟩

end Grammar
end EcmaSyntax
