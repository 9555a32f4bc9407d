import EcmaSyntax.Proofs.Grammar.Agreement
import EcmaSyntax.Proofs.Parse.Gives

/-! # Extents of expressions

An expression that is read without a diagnostic begins with a token that may begin one, and its node
spans from there to the last token consumed. -/
namespace EcmaSyntax
open Parse Grammar ParseState

/-- Forms of nodes that are arguments by themselves. -/
def Form.isArgument : Form Node → Bool
  | .formalParameter .. | .spread .. => false
  | _ => true

theorem Form.isArgument_eq {form : Form Node} (h : form.isArgument = true) (header : Header) :
    (Node.mk header form).isParameter = false ∧ (Node.mk header form).isSpread = false := by
  cases form <;> first | exact ⟨rfl, rfl⟩ | cases h

/-- A node spans what has been consumed between two states, and is an argument by itself. -/
structure Node.Frames (r : ParseState) (n : Node) (t : ParseState) : Prop where
  range_eq : n.range = ⟨r.start.offset, max t.full.offset r.start.offset⟩
  not_parameter : n.isParameter = false
  not_spread : n.isSpread = false

/-- Where nothing is reported, a node frames what has been consumed. -/
def Framed (r : ParseState) (n : Node) (t : ParseState) : Prop := t.Faulty ∨ n.Frames r t

/-- Tokens that may begin an expression. -/
def Kind.beginsExpression (k : Kind) : Bool :=
  k.canStartExpression || k == .atToken || k == .privateIdentifier

/-- Where nothing is reported, the present token may begin an expression. -/
def Opens (s t : ParseState) : Prop := t.Faulty ∨ s.token.beginsExpression = true

theorem Opens.move {s t u : ParseState} (h : Opens s t) (hm : Moves t u) : Opens s u :=
  h.imp_left hm.faulty

section Routines
variable {r s t : ParseState} {m : Mark} {ctx : Context} {form : Form Node} {n : Node}

/-- Behind a node nothing has been consumed, as far as is known. -/
theorem Framed.still (h : Framed r n s) (hm : Moves s t) (hfull : t.full = s.full) :
    Framed r n t :=
  h.imp hm.faulty fun h => ⟨hfull ▸ h.range_eq, h.not_parameter, h.not_spread⟩

/-- Where a node begins is all that counts of the state in which it does. -/
theorem Framed.of_start (h : Framed r n t) (hr : r.start = s.start) : Framed s n t :=
  h.imp_right fun h => ⟨hr ▸ h.range_eq, h.not_parameter, h.not_spread⟩

theorem node_framed (hm : m.start = r.start) (h : form.isArgument = true) :
    (node m form).Gives s (Framed r) := by
  intro n t hrun
  cases hrun
  obtain ⟨hparameter, hspread⟩ := Form.isArgument_eq h _
  refine .inr ⟨?_, hparameter, hspread⟩
  rw [← hm]
  rfl

theorem leaf_framed {way : Scanner.Advance} {form : Reading → Form Node}
    (h : ∀ reading, (form reading).isArgument = true) : (leaf way form).Gives s (Framed s) :=
  .look (.look (.behind fun _ _ _ => node_framed rfl (h _)))

theorem literal_framed : literal.Gives s (Framed s) := leaf_framed fun _ => rfl

theorem keywordExpression_framed : keywordExpression.Gives s (Framed s) := leaf_framed fun _ => rfl

theorem identifierToken_framed : identifierToken.Gives s (Framed s) := by
  refine leaf_framed fun reading => ?_
  unfold nameForm
  split <;> rfl

theorem reportHere_faulty {message : Message} {argument : Option String}
    {h : message.isGrammatical = true} : (reportHere message argument h).Gives s fun _ t => t.Faulty :=
  .of_reads (reportHere_reads.mono fun _ _ h => h.faulty)

/-- A diagnostic at the end of a routine. -/
theorem missing_faulty {β : Type} {p : Parse β} (hp : p.Gives s fun _ t => t.Faulty) :
    (p >>= fun _ => missingIdentifier).Gives s fun n t => Framed r n t ∧ Opens r t :=
  hp.bind fun _ _ _ hf => .observe ⟨.inl hf, .inl hf⟩

theorem reportNoIdentifier_faulty : reportNoIdentifier.Gives s fun _ t => t.Faulty :=
  .look (.ite (fun _ => .look reportHere_faulty) fun _ => reportHere_faulty)

theorem beginsExpression_of_admits {k : Kind} (h : admits ctx k = true) :
    k.beginsExpression = true := by
  unfold admits at h
  split at h
  case h_1 | h_2 => decide
  case h_3 => simp [Kind.beginsExpression, Kind.canStartExpression, h]

theorem identifierExpression_extent :
    (identifierExpression ctx).Gives s fun n t => Framed s n t ∧ Opens s t := by
  refine .look (.ite (fun h => ?_) fun h => .look (.ite (fun _ => ?_) fun _ => ?_))
  · exact identifierToken_framed.mono fun _ _ _ hn => ⟨hn, .inr (beginsExpression_of_admits h)⟩
  · exact .look (.ite (fun h' => absurd h' h) fun _ => missing_faulty reportNoIdentifier_faulty)
  · exact missing_faulty reportHere_faulty

variable [Recursion]

theorem template_framed : (template ctx).Gives s (Framed s) :=
  .look (.ite (fun _ => literal_framed) fun _ =>
    .look (.behind fun _ _ _ => .behind fun _ _ _ => node_framed rfl rfl))

theorem arrayLiteral_framed : (arrayLiteral ctx).Gives s (Framed s) :=
  .look (.behind fun _ _ _ => node_framed rfl rfl)

theorem objectLiteral_framed : (objectLiteral ctx).Gives s (Framed s) :=
  .look (.behind fun _ _ _ => node_framed rfl rfl)

theorem functionExpression_framed : (functionExpression ctx).Gives s (Framed s) :=
  .look <| .behind fun _ _ _ => .behind fun _ _ _ => .behind fun _ _ _ => .behind fun _ _ _ =>
    .behind fun _ _ _ => .behind fun _ _ _ => .behind fun _ _ _ => .behind fun _ _ _ =>
      node_framed rfl rfl

theorem classLike_framed {placement : Placement} :
    (classLike placement ctx s.mark).Gives s (Framed s) :=
  .behind fun _ _ _ => .behind fun _ _ _ => .behind fun _ _ _ => .behind fun _ _ _ =>
    .behind fun _ _ _ => .behind fun _ _ _ => .behind fun _ _ _ => node_framed rfl rfl

/-! ## Lists between parentheses -/

theorem coverRest_framed {tps : Option (List Node)} {c : Cover} (hm : m.start = r.start) :
    (coverRest ctx m tps c).Gives s (Framed r) :=
  .ite (fun _ => .behind fun _ _ _ => .ite
    (fun _ => .behind fun _ _ _ => .behind fun _ _ _ => node_framed hm rfl)
    fun _ => .look (.ite (fun _ => node_framed hm rfl) fun _ => node_framed hm rfl))
    fun _ => node_framed hm rfl

theorem coverList_framed {tps : Option (List Node)} (hm : m.start = r.start) :
    (coverList ctx m tps).Gives s (Framed r) :=
  .behind fun _ _ _ => coverRest_framed hm

omit [Recursion] in
theorem reportAt_full {span : Span} {message : Message} {argument : Option String}
    {h : message.isGrammatical = true} : (reportAt span message argument h).Gives s fun _ t => t.full = s.full :=
  .of_reads (reportAt_reads.mono fun _ _ h => congrArg Reading.full h.still)

omit [Recursion] in
theorem joinedElements_full {arguments : Node} :
    (joinedElements arguments).Gives s fun _ t => t.full = s.full := by
  unfold joinedElements
  split
  · exact .pure rfl
  · exact reportAt_full.bind fun _ t _ hfull => .observe hfull

omit [Recursion] in
theorem parenthesizedOf_framed {arguments : Node} (h : Framed r arguments s) :
    (parenthesizedOf arguments).Gives s (Framed r) := by
  have hend : (checkEnd arguments).Gives s fun _ t => t.full = s.full :=
    .ite (fun _ => reportAt_full (h := rfl)) fun _ => .pure rfl
  have helements (t : ParseState) : (checkElements arguments).Gives t fun _ u => u.full = t.full :=
    .ite (fun _ => reportAt_full (h := rfl)) fun _ => .pure rfl
  refine .look (hend.bind fun _ t hmt ht => (helements t).bind fun _ u hmu hu => ?_)
  refine joinedElements_full.bind fun inner v hmv hv => .look (.pure ?_)
  have hfull : v.full = s.full := by rw [hv, hu, ht]
  exact (h.still ((hmt.trans hmu).trans hmv) hfull).imp_right fun h => ⟨h.range_eq, rfl, rfl⟩

theorem parenthesized_framed : (parenthesized ctx).Gives s (Framed s) :=
  .look ((coverList_framed rfl).bind fun _ _ _ hlist =>
    .ite (fun _ => .pure hlist) fun _ => parenthesizedOf_framed hlist)

theorem arrowFunction_framed {isAsync : Bool} {parameters : Node} (hm : m.start = r.start) :
    (arrowFunction ctx m isAsync parameters).Gives s (Framed r) :=
  .behind fun _ _ _ => .behind fun _ _ _ => node_framed hm rfl

theorem asyncCallOrArrow_framed : (asyncCallOrArrow ctx).Gives s (Framed s) :=
  .look <| .behind fun _ _ _ => .look <| .behind fun _ _ _ =>
    .ite (fun _ => arrowFunction_framed rfl) fun _ => .behind fun _ _ _ => node_framed rfl rfl

/-! ## Primary expressions -/

theorem asyncExpression_extent (hs : s.token = .asyncKeyword) :
    (asyncExpression ctx).Gives s fun n t => Framed s n t ∧ Opens s t := by
  have hopens (t : ParseState) : Opens s t := .inr (hs ▸ by decide)
  -- looking ahead leaves the place of the present token as it is
  refine Gives.lookAhead.bind fun _ t _ ht => .ite (fun _ => ?_) fun _ => ?_
  · subst ht
    exact functionExpression_framed.mono fun _ u _ hn => ⟨hn.of_start rfl, hopens u⟩
  refine Gives.lookAhead.bind fun _ u _ hu => .ite (fun _ => ?_) fun _ => ?_
  · subst ht hu
    exact asyncCallOrArrow_framed.mono fun _ v _ hn => ⟨hn.of_start rfl, hopens v⟩
  · subst ht hu
    exact identifierExpression_extent.mono fun _ v _ hn => ⟨hn.1.of_start rfl, hopens v⟩

omit [Recursion] in
theorem importHead_framed : importHead.Gives s (Framed s) := by
  refine .look (identifierToken_framed.bind fun word t hmt hword => ?_)
  refine Gives.bind (Q := fun b u => b = false → u = t) ?_
    fun b u _ hu => .ite (fun _ => ?_) fun hb => ?_
  · exact .look (.ite (fun _ => .behind fun _ _ _ => .pure nofun) fun _ => .pure fun _ => rfl)
  · exact .behind fun _ _ _ => node_framed rfl rfl
  · obtain rfl := hu (Bool.eq_false_iff.mpr hb)
    refine Gives.bind (Q := fun _ v => v.full = u.full) ?_
      fun _ v hmv hv => .pure (hword.still hmv hv)
    exact .look (.ite (fun _ => .pure rfl) fun _ => .look reportAt_full)

/-- What is read of the rules that an expression begins with. -/
structure RulesFramed [Recursion] : Prop where
  new (ctx : Context) (s : ParseState) [s.Ready] :
    (recur (.newExpression ctx)).Gives s (Framed s)
  element (ctx : Context) (s : ParseState) [s.Ready] :
    (recur (.element ctx true)).Gives s (Framed s)

theorem primary_extent [s.Ready] (h : RulesFramed) :
    (primary ctx).Gives s fun n t => Framed s n t ∧ Opens s t := by
  have hopens {p : Parse Node} {k : Kind} (ht : s.token = k) (hp : p.Gives s (Framed s))
      (hk : k.beginsExpression = true) : p.Gives s fun n t => Framed s n t ∧ Opens s t :=
    hp.mono fun _ _ _ hn => ⟨hn, .inr (ht ▸ hk)⟩
  have hslash : (reread .slash >>= fun _ => literal).Gives s (Framed s) :=
    (Gives.of_reads (reread_reads .slash)).bind fun _ _ _ ht =>
      literal_framed.mono fun _ _ _ hn => hn.of_start ht
  have hprivate : (checkPrivate ctx >>= fun _ => identifierToken).Gives s (Framed s) :=
    (Gives.of_reads reportWhen_reads).bind fun _ _ _ ht =>
      identifierToken_framed.mono fun _ _ _ hn => hn.of_start ht.start_eq
  refine .look ?_
  split
  case h_1 ht | h_2 ht | h_3 ht | h_4 ht | h_5 ht => exact hopens ht keywordExpression_framed rfl
  case h_6 ht | h_7 ht | h_8 ht | h_9 ht => exact hopens ht literal_framed rfl
  case h_10 ht | h_11 ht => exact hopens ht hslash rfl
  case h_12 ht | h_13 ht => exact hopens ht template_framed rfl
  case h_14 ht => exact hopens ht parenthesized_framed rfl
  case h_15 ht => exact hopens ht arrayLiteral_framed rfl
  case h_16 ht => exact hopens ht objectLiteral_framed rfl
  case h_17 ht => exact hopens ht functionExpression_framed rfl
  case h_18 ht => exact asyncExpression_extent ht
  case h_19 ht | h_20 ht => exact hopens ht (.look classLike_framed) rfl
  case h_21 ht => exact hopens ht (h.new ctx s) rfl
  case h_22 ht => exact hopens ht importHead_framed rfl
  case h_23 ht =>
    exact .ite (fun _ => hopens ht (h.element ctx s) rfl) fun _ => identifierExpression_extent
  case h_24 ht => exact hopens ht hprivate rfl
  case h_25 => exact identifierExpression_extent

/-! ## Operators -/

theorem memberBase_extent [s.Ready] (h : RulesFramed) :
    (memberBase ctx).Gives s fun n t => Framed s n t ∧ Opens s t := by
  refine .look (.ite (fun ht => ?_) fun _ => primary_extent h)
  have hopens : s.token.beginsExpression = true := eq_of_beq ht ▸ by decide
  exact (h.new ctx s).mono fun _ _ _ hn => ⟨hn, .inr hopens⟩

theorem newExpression_framed : (newExpression ctx).Gives s (Framed s) :=
  .look <| .behind fun _ _ _ => .behind fun _ _ _ =>
    .ite (fun _ => .behind fun _ _ _ => node_framed rfl rfl) fun _ =>
      .look <| .behind fun _ _ _ => .behind fun _ _ _ => .behind fun _ _ _ => .behind fun _ _ _ =>
        node_framed rfl rfl

theorem element_framed {inExpression : Bool} : (element ctx inExpression).Gives s (Framed s) := by
  refine .look <| .behind fun _ _ _ => .behind fun _ _ _ => .ite (fun _ => ?_) fun _ => ?_
  · exact .behind fun _ _ _ => .behind fun _ _ _ => .behind fun _ _ _ => node_framed rfl rfl
  refine .behind fun _ _ _ => .behind fun _ _ _ => .behind fun _ _ _ => .behind fun _ _ _ => ?_
  refine .ite (fun _ => .behind fun _ _ _ => node_framed rfl rfl) fun _ => ?_
  exact .behind fun _ _ _ => .behind fun _ _ _ => .behind fun _ _ _ => .behind fun _ _ _ =>
    node_framed rfl rfl

theorem chainLink_framed {base : Node} (hm : m.start = r.start) :
    (chainLink ctx m base).Gives s (Framed r) := by
  have hm : (m.withFlags NodeFlag.optionalChain).start = r.start := hm
  refine .look ?_
  split
  case h_1 | h_2 => exact .behind fun _ _ _ => .behind fun _ _ _ => node_framed hm rfl
  case h_3 | h_4 => exact .behind fun _ _ _ => node_framed hm rfl

theorem genericCall_framed {base : Node} {ts : List Node} (hm : m.start = r.start) :
    (genericCall ctx m base ts).Gives s (Framed r) :=
  .look <| .ite (fun _ => .behind fun _ _ _ => node_framed hm rfl) fun _ =>
    .behind fun _ _ _ => node_framed hm rfl

theorem callTypeArguments?_full :
    (callTypeArguments? ctx).Gives s fun answer t => answer = none → t.full = s.full :=
  .look <| .ite (fun _ => Gives.attempt.mono fun _ _ _ h hnone => h hnone ▸ rfl) fun _ =>
    .pure fun _ => rfl

theorem suffix_framed {calls : Bool} (hm : m.start = r.start) (hn : Framed r n s) :
    (suffix ctx m calls n).Gives s (TurnGives (Framed r) (Framed r)) := by
  have hdone : (pure (.done n) : Parse (Turn Node)).Gives s (TurnGives (Framed r) (Framed r)) :=
    .pure hn
  have hlink {p : Parse Node} {t : ParseState} (hp : p.Gives t (Framed r)) :
      (p >>= fun n => pure (.again n)).Gives t (TurnGives (Framed r) (Framed r)) :=
    hp.bind fun _ _ _ h => .pure h
  have hnode {form : Form Node} {t : ParseState}
      (h : form.isArgument = true) :
      (node m form >>= fun n => pure (.again n)).Gives t (TurnGives (Framed r) (Framed r)) :=
    hlink (node_framed hm h)
  refine .look ?_
  split
  case h_1 => exact .behind fun _ _ _ => .behind fun _ _ _ => hnode rfl
  case h_2 => exact .ite (fun _ => .behind fun _ _ _ => hlink (chainLink_framed hm)) fun _ => hdone
  case h_3 => exact .ite (fun _ => hdone) fun _ => .behind fun _ _ _ => hnode rfl
  case h_4 => exact .look (.ite (fun _ => hdone) fun _ => .behind fun _ _ _ => hnode rfl)
  case h_5 | h_6 => exact .behind fun _ _ _ => hnode rfl
  case h_7 => exact .ite (fun _ => .behind fun _ _ _ => hnode rfl) fun _ => hdone
  case h_8 =>
    refine .ite (fun _ => callTypeArguments?_full.bind fun answer t hm' hfull => ?_) fun _ => hdone
    cases answer with
    | none => exact .pure (hn.still hm' (hfull rfl))
    | some ts => exact hlink (genericCall_framed hm)
  case h_9 => exact hdone

theorem leftHandSide_extent [s.Ready] (h : RulesFramed) :
    (leftHandSide ctx).Gives s fun n t => Framed s n t ∧ Opens s t := by
  refine .look ((memberBase_extent h).bind fun base t _ hbase => ?_)
  obtain ⟨hframed, hopens⟩ := hbase
  refine .ite (fun _ => ?_) fun _ => .pure ⟨hframed, hopens⟩
  have hloop : (loop (suffix ctx s.mark true) base).Gives t fun n u => Framed s n u :=
    .loop (I := Framed s) hframed fun _ _ _ hn => suffix_framed rfl hn
  exact hloop.mono fun _ _ hm hn => ⟨hn, hopens.move hm⟩

theorem unary_extent [s.Ready] (h : RulesFramed) :
    (unary ctx).Gives s fun n t => Framed s n t ∧ Opens s t := by
  refine .look (.look (.ite (fun hk => ?_) fun _ => .ite (fun hk => ?_) fun _ => ?_))
  · have hopens : s.token.beginsExpression = true := by
      generalize s.token = k at hk
      cases k <;> first | rfl | cases hk
    exact .behind fun _ _ _ => .behind fun _ _ _ =>
      (node_framed rfl rfl).mono fun _ _ _ hn => ⟨hn, .inr hopens⟩
  · have hopens : s.token.beginsExpression = true :=
      eq_of_beq (Bool.and_eq_true_iff.mp hk).1 ▸ by decide
    exact .behind fun _ _ _ => .behind fun _ _ _ =>
      (node_framed rfl rfl).mono fun _ _ _ hn => ⟨hn, .inr hopens⟩
  · refine (leftHandSide_extent h).bind
      fun n t _ hn => .look (.look (.ite (fun _ => ?_) fun _ => .pure hn))
    refine .behind fun _ u hm => (node_framed rfl rfl).mono fun _ _ hm' hn' => ⟨hn', ?_⟩
    exact hn.2.move (hm.trans hm')

theorem operation_framed [s.Ready] {precedence : Precedence} (hm : m.start = r.start)
    (hn : Framed r n s) :
    (operation ctx precedence m n).Gives s (TurnGives (Framed r) (Framed r)) := by
  have hreread : (reread .greaterThan).Gives s fun _ t => t.full = s.full :=
    .of_reads (.act (Scanner.reread_reread .greaterThan ‹s.Ready›.token).full_eq)
  refine hreread.bind fun _ t hmt hfull => .look ?_
  have hdone : (pure (.done n) : Parse (Turn Node)).Gives t (TurnGives (Framed r) (Framed r)) :=
    .pure (hn.still hmt hfull)
  have hnode {form : Form Node} {u : ParseState}
      (h : form.isArgument = true) :
      (node m form >>= fun n => pure (.again n)).Gives u (TurnGives (Framed r) (Framed r)) :=
    (node_framed hm h).bind fun _ _ _ h => .pure h
  refine .ite (fun _ => .ite (fun _ => hdone) fun _ => ?_) fun _ => hdone
  split
  case h_1 =>
    exact .look (.ite (fun _ => hdone) fun _ => .behind fun _ _ _ => .behind fun _ _ _ => hnode rfl)
  case h_2 => exact .behind fun _ _ _ => .behind fun _ _ _ => hnode rfl

theorem operand_extent [hs : s.Ready] {precedence : Precedence}
    (h : (recur (.unary ctx)).Gives s fun n t => Framed s n t ∧ Opens s t) :
    (operand ctx precedence).Gives s fun n t => Framed s n t ∧ Opens s t := by
  refine .look (h.bind fun first t hmt hfirst => ?_)
  obtain ⟨hframed, hopens⟩ := hfirst
  have hloop : (loop (operation ctx precedence s.mark) first).Gives t fun n u => Framed s n u :=
    .loop (I := Framed s) hframed fun _ _ hm hn =>
      have := (hmt.trans hm).ready hs
      operation_framed rfl hn
  exact hloop.mono fun _ _ hm hn => ⟨hn, hopens.move hm⟩

theorem assignmentRest_framed (hm : m.start = r.start) (hn : Framed r n s) :
    (assignmentRest ctx m n).Gives s (Framed r) := by
  refine .look <| .ite (fun _ => arrowFunction_framed hm) fun _ =>
    .ite (fun _ => arrowFunction_framed hm) fun _ => ?_
  refine .ite (fun _ => .behind fun _ _ _ => .behind fun _ _ _ => node_framed hm rfl) fun _ => ?_
  exact .ite (fun _ => .behind fun _ _ _ => .behind fun _ _ _ => .behind fun _ _ _ =>
    node_framed hm rfl) fun _ => .pure hn

theorem yieldExpression_framed : (yieldExpression ctx).Gives s (Framed s) :=
  .look <| .behind fun _ _ _ => .look <| .look <| .ite
    (fun _ => .behind fun _ _ _ => .behind fun _ _ _ => node_framed rfl rfl)
    fun _ => node_framed rfl rfl

theorem asyncArrow_framed (hm : m.start = r.start) : (asyncArrow ctx m).Gives s (Framed r) :=
  .behind fun _ _ _ => .behind fun _ _ _ => arrowFunction_framed hm

theorem genericArrow?_still [s.Ready] :
    (genericArrow? ctx).Gives s fun answer t =>
      (answer = none → s.Still t) ∧ (answer.isSome = true → s.token = .lessThanToken) := by
  refine (Gives.of_reads (isAt_reads.and_still fun _ => mayOpenTypeParameters_reads)).bind
    fun b t _ h => .ite (fun hb => ?_) fun _ => .pure ⟨fun _ => h.1, nofun⟩
  exact Gives.attempt.mono fun answer u _ hu =>
    ⟨fun hnone => hu hnone ▸ h.1, fun _ => h.2 hb⟩

/-- An assignment begins where an expression may begin, and spans what is consumed for it. -/
theorem assignment_extent [hs : s.Ready]
    (h : ∀ (t : ParseState) [t.Ready],
      (recur (.unary ctx)).Gives t fun n u => Framed t n u ∧ Opens t u) :
    (assignment ctx).Gives s fun n t => Framed s n t ∧ Opens s t := by
  have hopens {k : Kind} (ht : s.token = k) (hk : k.beginsExpression = true) (u : ParseState) :
      Opens s u := .inr (ht ▸ hk)
  refine .look (.ite (fun hyield => ?_) fun _ => .look (genericArrow?_still.bind
    fun answer t hmt hanswer => ?_))
  · have ht : s.token = .yieldKeyword := eq_of_beq (Bool.and_eq_true_iff.mp hyield).1
    exact yieldExpression_framed.mono fun _ u _ hn => ⟨hn, hopens ht (by decide) u⟩
  cases answer with
  | some parameters =>
    have ht := hanswer.2 rfl
    exact (arrowFunction_framed rfl).mono fun _ u _ hn => ⟨hn, hopens ht (by decide) u⟩
  | none =>
    have hstill := hanswer.1 rfl
    have := hmt.ready hs
    refine (Gives.of_reads startsAsyncArrow_reads).bind fun b u hmu hb => .ite (fun hasync => ?_)
      fun _ => ?_
    · have ht : s.token = .asyncKeyword := hstill.token_eq ▸ (hb.2 hasync).2.1
      exact (asyncArrow_framed rfl).mono fun _ v _ hn => ⟨hn, hopens ht (by decide) v⟩
    · have hstill := hstill.trans hb.1
      have := hmu.ready ‹t.Ready›
      refine (operand_extent (h u)).bind fun left v _ hleft => ?_
      have hframed := hleft.1.of_start hstill.start_eq
      exact (assignmentRest_framed rfl hframed).mono fun _ w hm hn =>
        ⟨hn, (hleft.2.move hm).imp_right (hstill.token_eq ▸ ·)⟩

end Routines

/-! ## Rules -/

section Rules
variable {s t : ParseState} {ctx : Context} {n : Node}

/-- What a rule gives that is read one level deeper. -/
theorem nested_gives {absent p : Parse Node} {Q : Node → ParseState → Prop} [s.Ready]
    (hp : p.Gives s.deeper fun n t => Q n t.shallower) (hQ : ∀ n t, t.Faulty → Q n t) :
    (nested absent p).Gives s Q := by
  refine .look (.ite (fun _ => .deeper hp) fun _ => ?_)
  have hlimit : reportLimit.Gives s fun _ t => t.Faulty := .of_reads (.act (reportLimit_faulty s))
  exact hlimit.bind fun _ _ _ hf => .behind fun _ _ hm => fun n v hrun =>
    hQ n v ((absent.moves hrun).faulty (hm.faulty hf))

theorem top_gives {rule : Rule Node} {Q : Node → ParseState → Prop} [s.Ready]
    (hn : rule.isNested = true) (hQ : ∀ n t, t.Faulty → Q n t)
    (hp : ∀ W, (@readRule (below W top.recur) Node rule).Gives s.deeper
      fun n t => Q n t.shallower) : (top.recur rule).Gives s Q := by
  intro n t hrun
  rw [top_run] at hrun
  unfold readHere at hrun
  rw [if_pos hn] at hrun
  exact nested_gives (hp _) hQ hrun

theorem Framed.shallower (h : Framed s.deeper n t) : Framed s n t.shallower :=
  h.imp_right fun h => ⟨h.range_eq, h.not_parameter, h.not_spread⟩

theorem rulesFramed (W : Nat) : @RulesFramed (below W top.recur) := by
  refine @RulesFramed.mk (below W top.recur) (fun ctx s _ n t hrun => ?_) fun ctx s _ n t hrun => ?_
  · refine top_gives rfl (fun _ _ hf => .inl hf) (fun W => ?_) (below_run_eq_some.mp hrun).2
    let _ := below W top.recur
    exact newExpression_framed.mono fun _ _ _ hn => hn.shallower
  · refine top_gives rfl (fun _ _ hf => .inl hf) (fun W => ?_) (below_run_eq_some.mp hrun).2
    let _ := below W top.recur
    exact element_framed.mono fun _ _ _ hn => hn.shallower

theorem unary_rule_extent [s.Ready] :
    (top.recur (.unary ctx)).Gives s fun n t => Framed s n t ∧ Opens s t := by
  refine top_gives rfl (fun _ _ hf => ⟨.inl hf, .inl hf⟩) fun W => ?_
  let _ := below W top.recur
  exact (unary_extent (rulesFramed W)).mono fun _ _ _ hn => ⟨hn.1.shallower, hn.2⟩

/-- An expression that is no list begins where an expression may begin, and its node spans what is
consumed for it. -/
theorem assignment_rule_extent [s.Ready] :
    (top.recur (.assignment ctx)).Gives s fun n t => Framed s n t ∧ Opens s t := by
  refine top_gives rfl (fun _ _ hf => ⟨.inl hf, .inl hf⟩) fun W => ?_
  let _ := below W top.recur
  refine (assignment_extent fun t _ n u hrun => ?_).mono fun _ _ _ hn => ⟨hn.1.shallower, hn.2⟩
  exact unary_rule_extent (below_run_eq_some.mp hrun).2

end Rules
end EcmaSyntax
