import EcmaSyntax.Proofs.Grammar.Class
import EcmaSyntax.Proofs.Grammar.Markup
import EcmaSyntax.Proofs.Grammar.Parenthesized

/-! # Reading primary and left-hand-side expressions

What follows a primary expression begins with a token of its own, so that every turn through the
accesses and calls behind it moves on. -/
namespace EcmaSyntax.Grammar
open Parse ParseState Part
variable [Recursion] {W : Nat} [Lawful W] {r s t : ParseState} [s.Ready] {ctx : Context}

/-! ## Arguments -/

theorem argument_reads (hb : s.left * 8 + 5 ≤ W) :
    (argument ctx).Reads s fun answer t => ∀ n ∈ answer, Built s ⟨.argument, ctx, n⟩ t := by
  refine .look (.ite (fun h => ?_) fun _ => .ite (fun _ => ?_) fun _ => ?_)
  · refine (spread_reads (by omega) (eq_of_beq h)).bind fun n t _ _ _ hn => .pure fun n' heq => ?_
    cases heq
    exact hn.choose (by simp)
  · refine (assignment_rule hb).bind fun n t _ _ _ hn => .pure fun n' heq => ?_
    cases heq
    exact hn.choose (by simp)
  · exact reportHere_reads.bind fun _ _ _ _ _ _ => .pure nofun

theorem argumentList_reads
    (hb : s.token = .openParenToken ∧ s.left * 8 ≤ W ∨ s.left * 8 + 5 ≤ W) :
    (argumentList ctx).Reads s fun n t =>
      Built s ⟨.argumentList, ctx, n⟩ t ∧ (s.token = .openParenToken → t.left < s.left) := by
  refine .look ((between_reads (f := fun l => all .argument ctx.argument l.toList) (by decide)
    (by decide) fun t _ _ hl hlt => ?_).bind fun l t _ _ _ h => ?_)
  · have hb' : t.left * 8 + 5 ≤ W := by
      rcases hb with ⟨htok, hb⟩ | hb
      · have hlt := hlt htok
        omega
      · omega
    exact commaList_reads fun _ u _ _ hl => argument_reads (by omega)
  · refine (node_reads (.mark s) h.1 .argumentList h.2.1 (fun _ => rfl) rfl).mono fun n u hn => ?_
    obtain ⟨rfl, -, hn⟩ := hn
    exact ⟨hn, h.2.2⟩

theorem bracketedExpression_reads (hb : s.left * 8 + 5 ≤ W) :
    (bracketedExpression ctx).Reads s fun n t => Built s ⟨.expression, ctx, n⟩ t := by
  refine .ifAt (fun _ => ?_) fun _ => expression_reads hb
  refine reportHere_reads.bind fun _ t _ hm _ hr => ?_
  exact (missingIdentifier_reads .expression ctx hr.faulty).mono
    fun _ _ hn => hn.after_still hm hr.still

theorem accessArgument_reads (hb : s.left * 8 ≤ W) (ht : s.token = .openBracketToken) :
    (accessArgument ctx).Reads s fun n t =>
      Extends s [⟨.expression, ctx, n⟩] t ∧ t.left < s.left := by
  refine (between_reads (f := fun n => [⟨.expression, ctx, n⟩]) (by decide) (by decide)
    fun t _ _ _ hlt => ?_).mono fun _ _ h => ⟨h.1, h.2.2 ht⟩
  have hlt := hlt ht
  exact (bracketedExpression_reads (by omega)).mono fun _ _ hn => hn.toExtends

/-! ## Primary expressions -/

omit [Recursion] in
theorem word_reads (ctx : Context)
    (ht : s.token ∈ [.importKeyword, .asyncKeyword, .constKeyword]) :
    identifierToken.Reads s fun n t => Built s ⟨.word, ctx, n⟩ t ∧ t.left < s.left := by
  refine identifierToken_reads (.word ht) fun h => ?_
  rw [h] at ht
  revert ht
  decide

omit [Recursion] [s.Ready] in
theorem checkArguments_reads : checkArguments.Reads s fun _ t => s.Still t :=
  .ifAt (fun _ => .pure (.refl s)) fun _ => reportExpected_reads.mono fun _ _ h => h.still

omit [Recursion] in
theorem importHead_reads (ht : s.token = .importKeyword) :
    importHead.Reads s fun n t => Built s ⟨.primary, ctx, n⟩ t := by
  refine .look ((word_reads ctx (by simp [ht])).bind fun word t _ _ _ hword => ?_)
  refine .ifAccept (by decide) (fun u _ hmu _ _ => ?_) fun _ => ?_
  · refine (name_reads ctx).bind fun name v _ _ _ hname => ?_
    have hc := hname.toExtends.after (hword.1.toExtends.moves.trans hmu)
    exact node_built (.mark s) hc .importMeta (hc.fruitful nofun) (fun _ => rfl) rfl
  · refine checkArguments_reads.bind fun _ u _ hmu _ hu => .pure ?_
    exact (hword.1.choose (by simp)).move_still hmu hu

omit [Recursion] in
theorem identifierExpression_reads :
    (identifierExpression ctx).Reads s fun n t => Built s ⟨.primary, ctx, n⟩ t := by
  refine .look (.ite (fun h => ?_) fun _ => .look (.ite (fun _ => ?_) fun _ => ?_))
  · exact (identifierToken_reads (.identifier h) (admits_ne_end h)).mono fun _ _ hn => hn.1.choose (by simp)
  · exact identifier_reads.mono fun _ _ hn => hn.choose (by simp)
  · refine reportHere_reads.bind fun _ t _ hm _ hr => ?_
    exact (missingIdentifier_reads .primary ctx hr.faulty).mono
      fun _ _ hn => hn.after_still hm hr.still

theorem asyncExpression_reads (hb : s.left * 8 ≤ W) (ht : s.token = .asyncKeyword) :
    (asyncExpression ctx).Reads s fun n t => Built s ⟨.primary, ctx, n⟩ t := by
  refine isBeforeFunction_reads.bind fun b t _ hmt hl h => ?_
  obtain ⟨rfl, hline⟩ := h
  refine .ite (fun hb' => ?_) fun _ => ?_
  · exact (functionExpression_reads (by omega) fun _ => .inr (hline hb')).mono
      fun _ _ hn => (hn.choose (by simp)).after_still hmt (.flush s)
  refine (nextIs_reads onSameLine_line).bind fun b' u _ hmu hl' h' => ?_
  obtain ⟨rfl, hline⟩ := h'
  have hstill : s.Still s.flush.flush := (Still.flush s).trans (.flush _)
  refine .ite (fun hb' => ?_) fun _ => ?_
  · have htok : s.flush.flush.token = .asyncKeyword := ht
    have hcall : (asyncCallOrArrow ctx).Reads s.flush.flush _ :=
      asyncCallOrArrow_reads (by omega) htok (hline hb')
    exact hcall.mono fun _ _ hn => hn.after_still (hmt.trans hmu) hstill
  · exact identifierExpression_reads.mono fun _ _ hn => hn.after_still (hmt.trans hmu) hstill

theorem primary_reads (hb : s.left * 8 + 1 ≤ W) :
    (primary ctx).Reads s fun n t => Built s ⟨.primary, ctx, n⟩ t := by
  have hkeyword (h : s.token.isAnyKeyword = true) :
      keywordExpression.Reads s fun n t => Built s ⟨.primary, ctx, n⟩ t :=
    (keywordExpression_reads ctx h).mono fun _ _ hn => hn.1.choose (by simp)
  have hliteral (h : s.token.isLiteralToken = true) :
      literal.Reads s fun n t => Built s ⟨.primary, ctx, n⟩ t :=
    (literal_reads ctx h).mono fun _ _ hn => hn.1.choose (by simp)
  have hslash (h : s.token = .slashToken ∨ s.token = .slashEqualsToken) : (do reread .slash; literal : Parse Node).Reads s
      fun n t => Built s ⟨.primary, ctx, n⟩ t := by
    refine (reread_run .slash).bind fun _ t _ hm _ heq => ?_
    have htok : t.token = .regularExpressionLiteral := heq ▸ Scanner.reread_slash_token h
    have hstart : t.start = s.start := heq ▸ (Scanner.reread_reread .slash (‹s.Ready›).token).start_eq
    exact (literal_reads ctx (htok ▸ rfl)).mono
      fun _ _ hn => (hn.1.after hm fun _ => .inr hstart).choose (by simp)
  have htemplate (h : s.token.isLiteralToken = true) :
      (template ctx.enclosed).Reads s fun n t => Built s ⟨.primary, ctx, n⟩ t :=
    (template_reads (by omega) h).mono fun _ _ hn => hn.1.serve .enclosed
  have hclass : (do classLike .expression ctx (← mark) : Parse Node).Reads s
      fun n t => Built s ⟨.primary, ctx, n⟩ t :=
    .look ((classLike_reads (by omega) (.mark s) (.refl s)).mono fun _ _ hn => hn.choose (by simp))
  refine .look ?_
  split
  case h_1 h | h_2 h | h_3 h | h_4 h | h_5 h => exact hkeyword (h ▸ rfl)
  case h_6 h | h_7 h | h_8 h | h_9 h => exact hliteral (h ▸ rfl)
  case h_10 h => exact hslash (.inl h)
  case h_11 h => exact hslash (.inr h)
  case h_12 h | h_13 h => exact htemplate (h ▸ rfl)
  case h_14 h => exact parenthesized_reads (by omega) h
  case h_15 h => exact (arrayLiteral_reads (by omega) h).mono fun _ _ hn => hn.choose (by simp)
  case h_16 h => exact (objectLiteral_reads (by omega) h).mono fun _ _ hn => hn.choose (by simp)
  case h_17 h =>
    exact (functionExpression_reads (by omega) fun h' => nomatch h.symm.trans h').mono
      fun _ _ hn => hn.choose (by simp)
  case h_18 h => exact asyncExpression_reads (by omega) h
  case h_19 | h_20 => exact hclass
  case h_21 h => exact (newExpression_rule hb h).mono fun _ _ hn => hn.choose (by simp)
  case h_22 h => exact importHead_reads h
  case h_23 h =>
    refine .ite (fun _ => ?_) fun _ => identifierExpression_reads
    exact (element_rule hb h).mono fun _ _ hn => hn.built.choose (by simp)
  case h_24 h => exact (privateName_reads h).mono fun _ _ hn => hn.1.choose (by simp)
  case h_25 => exact identifierExpression_reads

/-! ## What follows a primary expression -/

section Suffixes
variable {m : Mark} {base : Node} {calls : Bool} [r.Ready]

/-- An expression that takes a link behind it, if it is `known` to. -/
structure Linkable (known : Prop) (calls : Bool) (ctx : Context) (s : ParseState) (n : Node)
    (t : ParseState) : Prop where
  built : known → Built s ⟨.suffixed calls, ctx, n⟩ t
  takes : known → takesSuffixes n = true

variable {known : Prop}

omit [Recursion] [s.Ready] [r.Ready] in
/-- A link behind an expression. -/
theorem lined_link_built {form : Form Node} {ps : List Part} (hm : m.At r)
    (hc : known → Extends r ps s) (hp : known → Production s.Faulty (.suffixed calls) ctx form ps)
    (hlined : known → s.Faulty ∨ form.Lined r s) :
    (node m form).Reads s fun n t => Linkable known calls ctx r n t := by
  refine .observe ⟨fun hk => ⟨⟨.node hm (hc hk).derived (hp hk) (hlined hk), ?_⟩,
    fun harrow => ?_, fun _ => .inr hm.range_eq⟩, fun hk => (hp hk).links.2 _⟩
  · exact fun _ => (hc hk).fruitful (hp hk).links.1
  · have htakes := (hp hk).links.2 (s.header m)
    rw [takesSuffixes, harrow] at htakes
    cases htakes

omit [Recursion] [s.Ready] [r.Ready] in
/-- A link behind an expression, of a form that no line break is asked about. -/
theorem link_built {form : Form Node} {ps : List Part} (hm : m.At r)
    (hc : known → Extends r ps s) (hp : known → Production s.Faulty (.suffixed calls) ctx form ps)
    (hfree : form.isFree = true) :
    (node m form).Reads s fun n t => Linkable known calls ctx r n t :=
  lined_link_built hm hc hp fun _ => .inr (.of_free hfree)

theorem chainLink_reads (hb : s.left * 8 + 8 ≤ W) (hm : m.At r)
    (hbase : known → Extends r [⟨.suffixed true, ctx, base⟩] s)
    (htakes : known → takesSuffixes base = true) :
    (chainLink ctx m base).Reads s fun n t => Linkable known true ctx r n t := by
  have hm := hm.withFlags NodeFlag.optionalChain (by decide)
  have hcall : (do
      let typeArguments ← callTypeArguments? ctx
      let arguments ← argumentList ctx
      node (m.withFlags NodeFlag.optionalChain) (.call base true typeArguments arguments) :
        Parse Node).Reads s fun n t => Linkable known true ctx r n t := by
    refine (callTypeArguments?_reads (by omega)).bind fun ts t _ _ hl hts => ?_
    refine (argumentList_reads (.inr (by omega))).bind fun arguments u _ _ _ harguments => ?_
    exact link_built hm (fun hk => ((hbase hk).append hts.parts).part harguments.1)
      (fun hk => .call (htakes hk)) rfl
  refine .look ?_
  split
  case h_1 | h_2 => exact hcall
  case h_3 h =>
    refine (accessArgument_reads (by omega) h).bind fun argument t _ _ _ hargument => ?_
    exact link_built hm (fun hk => (hbase hk).append hargument.1) (fun hk => .elementAccess (htakes hk)) rfl
  case h_4 =>
    refine memberName_reads.bind fun member t _ _ _ hmember => ?_
    exact link_built hm (fun hk => (hbase hk).part hmember) (fun hk => .propertyAccess (htakes hk)) rfl

theorem genericCall_reads {ts : List Node} (hb : s.left * 8 + 8 ≤ W) (hm : m.At r)
    (ht : FollowsTypeArguments s.token)
    (hc : known → Extends r ([⟨.suffixed true, ctx, base⟩]
      ++ optAll .type (withConditionalTypes ctx) (some ts)) s)
    (htakes : known → takesSuffixes base = true) :
    (genericCall ctx m base ts).Reads s fun n t => Linkable known true ctx r n t := by
  refine .ifAt (fun _ => ?_) fun hopen => ?_
  · refine (argumentList_reads (.inr (by omega))).bind fun arguments t _ _ _ harguments => ?_
    exact link_built hm (fun hk => (hc hk).part harguments.1) (fun hk => .call (htakes hk)) rfl
  · refine (template_reads (by omega) (ht.isLiteralToken hopen)).bind fun quasi t _ _ _ hquasi => ?_
    exact link_built hm (fun hk => (hc hk).part hquasi.1) (fun hk => .taggedTemplate (htakes hk)) rfl

theorem suffix_reads (hb : s.left * 8 ≤ W) (hm : m.At r)
    (hbase : Linkable known calls ctx r base s) :
    (suffix ctx m calls base).Reads s
      (AfterTurn (fun n t => Linkable known calls ctx r n t)
        (fun n t => known → Built r ⟨.suffixed calls, ctx, n⟩ t) s) := by
  obtain ⟨hbase, htakes⟩ := hbase
  have hc (hk : known) := (hbase hk).toExtends
  -- the node of a link goes on the loop
  have hagain {p : Parse Node} {t : ParseState} [t.Ready] (hlt : t.left < s.left)
      (hp : p.Reads t fun n u => Linkable known calls ctx r n u) :
      (do return .again (← p) : Parse (Turn Node)).Reads t
        (AfterTurn (fun n u => Linkable known calls ctx r n u)
          (fun n u => known → Built r ⟨.suffixed calls, ctx, n⟩ u) s) :=
    hp.bind fun n u _ _ hl hn => .pure ⟨by omega, hn⟩
  have htemplate (h : s.token.isLiteralToken = true) : (do
      let quasi ← template ctx.argument
      return .again (← node m (.taggedTemplate base none quasi)) : Parse (Turn Node)).Reads s
        (AfterTurn (fun n t => Linkable known calls ctx r n t)
          (fun n t => known → Built r ⟨.suffixed calls, ctx, n⟩ t) s) := by
    refine (template_reads hb h).bind fun quasi t _ _ _ hquasi => ?_
    have hc (hk : known) : Extends r ([⟨.suffixed calls, ctx, base⟩]
        ++ optAll .type (withConditionalTypes ctx) none ++ [⟨.template, ctx.argument, quasi⟩]) t :=
      (hc hk).part hquasi.1
    exact hagain hquasi.2 (link_built hm hc (fun hk => .taggedTemplate (htakes hk)) rfl)
  refine .look ?_
  split
  case h_1 h =>
    refine (advance_reads (h ▸ by decide)).bind fun _ t _ hmt _ hlt => ?_
    refine memberName_reads.bind fun member u _ _ hl hmember => ?_
    exact hagain (by omega) (link_built hm (fun hk => ((hc hk).move hmt).part hmember)
      (fun hk => .propertyAccess (htakes hk)) rfl)
  case h_2 h =>
    refine .ite (fun hcalls => ?_) fun _ => .pure hbase
    subst hcalls
    refine (advance_reads (h ▸ by decide)).bind fun _ t _ hmt _ hlt => ?_
    exact hagain hlt (chainLink_reads (by omega) hm (fun hk => (hc hk).move hmt) htakes)
  case h_3 h =>
    refine .ite (fun _ => .pure hbase) fun _ => ?_
    refine (accessArgument_reads hb h).bind fun argument t _ _ _ hargument => ?_
    exact hagain hargument.2 (link_built hm (fun hk => (hc hk).append hargument.1)
      (fun hk => .elementAccess (htakes hk)) rfl)
  case h_4 h =>
    refine .look (.ite (fun _ => .pure hbase) fun hline => ?_)
    refine (advance_reads (h ▸ by decide)).bind fun _ t _ hmt _ hlt => ?_
    have hlined (hk : known) : t.Faulty ∨ (Form.nonNull base).Lined r t :=
      (((hbase hk).stop_eq rfl).imp_left hmt.faulty).imp_right fun hstop =>
        .of_trails ⟨s, (hc hk).moves, h, hstop.symm, Bool.eq_false_iff.mpr hline⟩ rfl rfl rfl rfl
    exact hagain hlt
      (lined_link_built hm (fun hk => (hc hk).move hmt) (fun hk => .nonNull (htakes hk)) hlined)
  case h_5 h | h_6 h => exact htemplate (h ▸ rfl)
  case h_7 h =>
    refine .ite (fun hcalls => ?_) fun _ => .pure hbase
    subst hcalls
    refine (argumentList_reads (.inl ⟨h, hb⟩)).bind fun arguments t _ _ _ harguments => ?_
    have hc (hk : known) : Extends r ([⟨.suffixed true, ctx, base⟩]
        ++ optAll .type (withConditionalTypes ctx) none ++ [⟨.argumentList, ctx, arguments⟩]) t :=
      (hc hk).part harguments.1
    exact hagain (harguments.2 h) (link_built hm hc (fun hk => .call (htakes hk)) rfl)
  case h_8 h =>
    refine .ite (fun hcalls => ?_) fun _ => .pure hbase
    subst hcalls
    refine (callTypeArguments?_reads hb).bind fun ts t _ hmt _ hts => ?_
    cases ts with
    | none => exact .pure fun hk => (hbase hk).move_still hmt (hts.absent rfl)
    | some ts =>
      obtain ⟨hlt, hfollows⟩ := hts.taken rfl
      exact hagain hlt
        (genericCall_reads (by omega) hm hfollows (fun hk => (hc hk).append hts.parts) htakes)
  case h_9 => exact .pure hbase

theorem suffixes_reads (hb : s.left * 8 ≤ W) (hm : m.At r)
    (hbase : Built r ⟨.primary, ctx, base⟩ s) :
    (suffixes ctx m calls base).Reads s fun n t => Built r ⟨.suffixed calls, ctx, n⟩ t := by
  refine .ite (fun htakes => ?_) fun _ => .pure (hbase.choose (by simp))
  have hloop : (loop (suffix ctx m calls) base).Reads s fun n t =>
      True → Built r ⟨.suffixed calls, ctx, n⟩ t :=
    loop_reads (fun n t => Linkable True calls ctx r n t) ⟨fun _ => hbase.choose (by simp), fun _ => htakes⟩
      fun n t _ _ hl hn => suffix_reads (by omega) hm hn
  exact hloop.mono fun _ _ h => h trivial

end Suffixes

theorem memberBase_reads (hb : s.left * 8 + 1 ≤ W) :
    (memberBase ctx).Reads s fun n t => Built s ⟨.primary, ctx, n⟩ t :=
  .ifAt (fun h => (newExpression_rule hb h).mono fun _ _ hn => hn.choose (by simp)) fun _ => primary_reads hb

theorem leftHandSide_reads (hb : s.left * 8 + 1 ≤ W) :
    (leftHandSide ctx).Reads s fun n t => Built s ⟨.suffixed true, ctx, n⟩ t :=
  .look ((memberBase_reads hb).bind fun base t _ _ _ hbase =>
    suffixes_reads (by omega) (.mark s) hbase)

theorem newExpression_reads (hb : s.left * 8 ≤ W) (ht : s.token = .newKeyword) :
    (newExpression ctx).Reads s fun n t => Built s ⟨.newExpression, ctx, n⟩ t := by
  refine .look ((expect_here (by decide) ht).bind fun _ t _ hmt _ hlt => ?_)
  have hlt := hlt.2
  refine .ifAccept (by decide) (fun u _ hmu _ _ => ?_) fun _ => .look ?_
  · refine (name_reads ctx).bind fun name v _ _ _ hname => ?_
    have hc := hname.toExtends.after (hmt.trans hmu)
    exact node_built (.mark s) hc .newTarget (hc.fruitful nofun) (fun _ => rfl) rfl
  refine (memberBase_reads (by omega)).bind fun base u _ _ hl hbase => ?_
  refine (suffixes_reads (by omega) (.mark t) hbase).bind fun callee v _ hmv hl' hcallee => ?_
  refine (callTypeArguments?_reads (by omega)).bind fun ts w _ _ hl'' hts => ?_
  have harguments : (whenAt .openParenToken (argumentList ctx)).Reads w fun arguments x =>
      Extends w (opt .argumentList ctx arguments) x :=
    whenAt_reads rfl fun _ => (argumentList_reads (.inr (by omega))).mono fun _ _ hn => hn.1.opt
  refine harguments.bind fun arguments x _ _ _ harguments => ?_
  have hc := ((hcallee.toExtends.after hmt).append hts.parts).append harguments
  exact node_built (.mark s) hc .new (hc.fruitful (by simp)) (fun _ => rfl) rfl

end EcmaSyntax.Grammar
