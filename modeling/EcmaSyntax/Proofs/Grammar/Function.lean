import EcmaSyntax.Proofs.Grammar.Type

/-! # Reading functions

Functions and methods from what stands before their type parameters on, members of object literals,
and arrow functions from their parameters on. The body of an arrow function is met behind the arrow,
or, where the arrow is missing, behind parameters that have consumed a token. -/
namespace EcmaSyntax.Grammar
open Parse ParseState Part
variable [Recursion] {W : Nat} [Lawful W] {r s t : ParseState} [r.Ready] [s.Ready] {ctx : Context}

/-! ## Functions -/

omit [Recursion] in
theorem missingBody_reads {required : Bool} : (missingBody required).Reads s fun _ _ => True :=
  .ite (fun _ => reportExpected_reads.mono fun _ _ _ => trivial) fun _ => expectSemicolon_reads

theorem functionBody_reads {required : Bool} (hb : s.left * 8 ≤ W) :
    (functionBody ctx required).Reads s fun n t => Extends s (opt (.block true) ctx n) t := by
  refine .ifAt (fun _ => ?_) fun _ => ?_
  · exact (functionBlock_reads hb).bind fun n t _ _ _ hn => .pure hn.opt
  · exact missingBody_reads.bind fun _ t _ hm _ _ => .pure (.nil hm)

omit [Recursion] [r.Ready] in
/-- What follows the word `function`: the name, or else the type parameters or the parameters. -/
theorem anchor_known {u v : ParseState} {isGenerator : Bool} {name : Option Node}
    {typeParameters : Option (List Node)} {parameters : Node} {ctx' ctx'' : Context}
    (hasync : r.AsyncUpTo (.functionKeyword :: Form.generatorMark isGenerator) s.start.offset)
    (hs : Moves r s)
    (hname : BuiltIf s .identifier ctx' name t)
    (htypes : (typeParameters = none → u = t) ∧
      (typeParameters.isSome = true → t.token = .lessThanToken))
    (hu : Moves t u) (hparameters : Built u ⟨.formalParameters, ctx'', parameters⟩ v) :
    v.Faulty ∨ ∃ stop, r.AsyncUpTo (.functionKeyword :: Form.generatorMark isGenerator
        ++ Form.typeParametersMark name typeParameters) stop ∧
      ∀ n ∈ name <|> (if typeParameters.isSome then none else some parameters),
        n.range.pos = stop := by
  cases name with
  | some e =>
    refine ((hname.pos_eq e rfl).imp_left (hu.trans hparameters.moves).faulty).imp_right fun hpos => ?_
    refine ⟨_, by simpa [Form.typeParametersMark] using hasync, fun n hn => ?_⟩
    cases hn
    exact hpos
  | none =>
    obtain rfl := hname.absent rfl
    cases typeParameters with
    | none =>
      obtain rfl := htypes.1 rfl
      refine (hparameters.pos_eq rfl).imp_right fun hpos => ?_
      refine ⟨_, by simpa [Form.typeParametersMark] using hasync, fun n hn => ?_⟩
      cases hn
      exact hpos
    | some ts =>
      have hconcat := hasync.concat hs
      rw [htypes.2 rfl] at hconcat
      exact .inr ⟨_, hconcat, nofun⟩

/-- A function whose name has been read since its mark. -/
theorem functionRest_reads {u : ParseState} [u.Ready] {head : FunctionHead} (hb : s.left * 8 ≤ W)
    (hm : head.m.At r) (hu : Moves r u)
    (hname : BuiltIf u .identifier
      (ctx.ofName head.placement head.isAsync head.isGenerator) head.name s)
    (hasync : head.isAsync = true →
      s.Faulty ∨ r.AsyncUpTo (.functionKeyword :: Form.generatorMark head.isGenerator) u.start.offset) :
    (functionRest ctx head).Reads s fun n t =>
      Built r ⟨.function head.placement, ctx, n⟩ t := by
  refine (typeParameters?_known hb).bind fun tps t _ hmt hl htps => ?_
  refine (formalParameters_reads (by omega)).bind fun ps v _ hmv hl' hps => ?_
  refine (returnType_reads (by omega)).bind fun result w _ hmw hl₂ hresult => ?_
  refine (functionBody_reads (by omega)).bind fun body x _ hmx _ hbody => ?_
  have hc := ((((hname.toExtends.after hu).append htps.1).part hps).append hresult).append hbody
  have hrest := hmw.trans hmx
  have hlined : x.Faulty ∨ (Form.function head.placement head.name head.isAsync head.isGenerator
      tps ps result body).Lined r x := by
    by_cases h : head.isAsync = true
    · rcases hasync h with hf | hasync
      · exact .inl (((hmt.trans hmv).trans hrest).faulty hf)
      · exact ((anchor_known hasync hu hname htps.2 hmt hps).imp_left hrest.faulty).imp_right
          fun hknown => .function fun _ => hknown
    · exact .inr (.function fun h' => absurd h' h)
  exact lined_built hm hc .function (hc.fruitful (by simp)) (fun _ => rfl) hlined

omit [Recursion] in
theorem declaredName_reads {m : Mark} :
    (declaredName ctx m).Reads s fun n t => BuiltIf s .identifier ctx n t := by
  refine .look (.ite (fun _ => .pure (.none _ ctx)) fun _ => ?_)
  exact .map (identifier_reads.mono fun _ _ hn => .some hn rfl)

omit [Recursion] [r.Ready] [s.Ready] in
/-- The tokens before the name of a function, where the second stands on the line of `async`. -/
theorem asyncHead_known {u v : ParseState} {isAsync isGenerator : Bool} (hs : Moves r s)
    (hline : s.token = .asyncKeyword → s.Faulty ∨ (s.consume .plain).OnLine)
    (ht : (isAsync = true ∧ s.token = .asyncKeyword ∧ t = s.consume .plain) ∨
      (isAsync = false ∧ s.token ≠ .asyncKeyword ∧ t = s))
    (hmt : Moves s t) (hu : u.Faulty ∨ t.token = .functionKeyword ∧ u = t.consume .plain)
    (hmu : Moves t u)
    (hv : (isGenerator = true ∧ u.token = .asteriskToken ∧ v = u.consume .plain) ∨
      (isGenerator = false ∧ u.token ≠ .asteriskToken ∧ v = u)) (h : isAsync = true) :
    u.Faulty ∨ r.AsyncUpTo (.functionKeyword :: Form.generatorMark isGenerator) v.start.offset := by
  obtain ⟨-, htok, rfl⟩ := ht.resolve_right fun hf => Bool.noConfusion (hf.1.symm.trans h)
  rcases hline htok with hf | hline
  · exact .inl ((hmt.trans hmu).faulty hf)
  refine hu.imp_right fun ⟨hfunction, hu⟩ => ?_
  subst hu
  have hjoins : r.Joins s.start.offset .asyncKeyword (s.consume .plain).start.offset :=
    ⟨s, hs, htok, rfl, hline, rfl⟩
  have hasync : r.AsyncUpTo [.functionKeyword] ((s.consume .plain).consume .plain).start.offset :=
    ⟨_, _, hjoins, hfunction ▸ .cons (hs.trans hmt) (.nil _)⟩
  rcases hv with ⟨rfl, hasterisk, rfl⟩ | ⟨rfl, -, rfl⟩
  · have hconcat := hasync.concat ((hs.trans hmt).trans hmu)
    rwa [hasterisk] at hconcat
  · exact hasync

theorem functionDeclaration_reads {m : Mark} (hb : s.left * 8 ≤ W) (hm : m.At r)
    (hr : Moves r s) (hline : s.token = .asyncKeyword → s.Faulty ∨ (s.consume .plain).OnLine) :
    (functionDeclaration ctx m).Reads s fun n t =>
      Built r ⟨.function .declaration, ctx, n⟩ t := by
  refine accept_takes.bind fun isAsync t _ hmt hl ht => ?_
  refine expect_takes.bind fun _ u _ hmu hl' hu => ?_
  refine accept_takes.bind fun isGenerator v _ hmv hl₂ hv => ?_
  refine declaredName_reads.bind fun name w _ hmw hl₃ hname => ?_
  refine functionRest_reads (by omega) hm (((hr.trans hmt).trans hmu).trans hmv) hname fun h => ?_
  exact (asyncHead_known hr hline ht hmt hu hmu hv h).imp_left (hmv.trans hmw).faulty

theorem functionExpression_reads (hb : s.left * 8 ≤ W)
    (hline : s.token = .asyncKeyword → s.Faulty ∨ (s.consume .plain).OnLine) :
    (functionExpression ctx).Reads s fun n t => Built s ⟨.function .expression, ctx, n⟩ t := by
  refine .look (accept_takes.bind fun isAsync t _ hmt hl ht => ?_)
  refine expect_takes.bind fun _ u _ hmu hl' hu => ?_
  refine accept_takes.bind fun isGenerator v _ hmv hl₂ hv => ?_
  refine identifier?_reads.bind fun name w _ hmw hl₃ hname => ?_
  refine functionRest_reads (by omega) (.mark s) ((hmt.trans hmu).trans hmv) hname fun h => ?_
  exact (asyncHead_known (.refl s) hline ht hmt hu hmu hv h).imp_left (hmv.trans hmw).faulty

omit [Recursion] [s.Ready] in
theorem isBeforeFunction_reads :
    isBeforeFunction.Reads s fun b t =>
      t = s.flush ∧ (b = true → (s.flush.consume .plain).OnLine) :=
  nextIs_reads onSameLine_line

/-! ## Methods -/

/-- A method whose name has been read since its mark. -/
theorem methodRest_reads {head : MethodHead} {required : Bool} (hb : s.left * 8 ≤ W)
    (hm : head.m.At r)
    (hname : Extends r (all .decorator ctx head.decorators
      ++ [⟨.propertyName, ctx, head.name⟩]) s)
    (hasync : head.sort = .method → head.isAsync = true → s.Faulty ∨
      r.AsyncUpTo (Form.generatorMark head.isGenerator) head.name.range.pos) :
    (methodRest ctx head required).Reads s fun n t => Built r ⟨.method, ctx, n⟩ t := by
  refine (typeParameters?_reads hb).bind fun tps t _ hmt hl htps => ?_
  refine (formalParameters_reads (by omega)).bind fun ps u _ hmu hl' hps => ?_
  refine (returnType_reads (by omega)).bind fun result v _ hmv hl₂ hresult => ?_
  refine (functionBody_reads (by omega)).bind fun body w _ hmw _ hbody => ?_
  have hc := (((hname.append htps).part hps).append hresult).append hbody
  have hlined : w.Faulty ∨ (Form.method head.sort head.decorators head.name head.optional
      head.isAsync head.isGenerator tps ps result body).Lined r w := by
    by_cases h : head.sort = .method ∧ head.isAsync = true
    · exact ((hasync h.1 h.2).imp_left (((hmt.trans hmu).trans hmv).trans hmw).faulty).imp_right
        fun hasync => .method fun _ _ => ⟨_, hasync, rfl⟩
    · exact .inr (.method fun hsort h' => absurd ⟨hsort, h'⟩ h)
  exact lined_built hm hc .method (hc.fruitful (by simp)) (fun _ => rfl) hlined

omit [Recursion] in
theorem accessorOf?_ne_method {k : Kind} : accessorOf? k ≠ some .method := by
  unfold accessorOf?
  split <;> nofun

omit [Recursion] in
/-- A word that introduces no accessor is left. -/
theorem accessorSort?_reads :
    accessorSort?.Reads s fun sort t => sort ≠ some .method ∧ (sort = none → s.Still t) := by
  refine .look ?_
  split
  case h_1 => exact .pure ⟨nofun, fun _ => .refl s⟩
  case h_2 sort hsort =>
    refine (nextIs_reads onSameLine_reads.said).bind fun b t _ _ _ ht => .ite (fun _ => ?_) ?_
    · exact advance_run.bind fun _ _ _ _ _ _ => .pure ⟨hsort ▸ accessorOf?_ne_method, nofun⟩
    · exact fun _ => .pure ⟨nofun, fun _ => ht.1 ▸ .flush s⟩

omit [Recursion] in
theorem accessor_absent {accessor : Option MethodSort} {sort : MethodSort}
    (h : accessor ≠ some .method) (hsort : accessor.getD sort = .method) : accessor = none := by
  cases accessor with
  | none => rfl
  | some _ => exact absurd (congrArg some hsort) h

omit [Recursion] in
theorem acceptAsyncMethod_reads :
    acceptAsyncMethod.Reads s fun b t =>
      b = true → s.Joins s.start.offset .asyncKeyword t.start.offset := by
  refine (advanceWhen_reads (peek_reads isAt_reads onSameLine_line)).mono fun b t h hb => ?_
  obtain ⟨u, hu, rfl⟩ := h
  obtain ⟨rfl, htok, hline⟩ := hu.2 hb
  rw [if_pos hb]
  exact ⟨s.flush, .single (.flush s), htok, rfl, hline, rfl⟩

omit [Recursion] [r.Ready] [s.Ready] in
/-- The tokens before the name of a method, where the second stands on the line of `async`. -/
theorem methodHead_known {u v : ParseState} {isGenerator : Bool} {pos : Nat}
    (hs : Moves r t) (ht : r.Joins pos .asyncKeyword t.start.offset)
    (hu : (isGenerator = true ∧ t.token = .asteriskToken ∧ u = t.consume .plain) ∨
      (isGenerator = false ∧ t.token ≠ .asteriskToken ∧ u = t))
    (hv : u.Still v) :
    r.AsyncUpTo (Form.generatorMark isGenerator) v.start.offset := by
  have hasync : r.AsyncUpTo [] t.start.offset := ⟨_, _, ht, .nil _⟩
  rw [hv.start_eq]
  rcases hu with ⟨rfl, htok, rfl⟩ | ⟨rfl, -, rfl⟩
  · have hconcat := hasync.concat hs
    rwa [htok] at hconcat
  · exact hasync

theorem shorthandRest_reads {m : Mark} {name : Node} (hb : s.left * 8 ≤ W) (hm : m.At r)
    (hname : Extends r [⟨.propertyName, ctx, name⟩] s) :
    (shorthandRest m ctx name).Reads s fun n t => Built r ⟨.objectElement, ctx, n⟩ t := by
  refine (initializer_reads hb).bind fun value t _ _ _ hvalue => ?_
  have hc := hname.append hvalue
  exact node_built hm hc .shorthandProperty (hc.fruitful (by simp)) (fun _ => rfl) rfl

theorem objectElement_reads (hb : s.left * 8 + 5 ≤ W) :
    (objectElement ctx).Reads s fun n t => Built s ⟨.objectElement, ctx, n⟩ t := by
  refine .look (.ifAt (fun h => ?_) fun _ => ?_)
  · exact (spread_reads (by omega) h).mono fun _ _ hn => hn.choose (by simp)
  refine acceptAsyncMethod_reads.bind fun isAsync t _ hmt hl ht => ?_
  refine accept_takes.bind fun isGenerator u _ hmu hl' hu => ?_
  refine accessorSort?_reads.bind fun accessor v _ hmv hl₂ hv => .look ?_
  refine (propertyName_reads (by omega)).bind fun name w _ _ hl₃ hname => .look ?_
  have hc : Extends s [⟨.propertyName, ctx, name⟩] w :=
    hname.toExtends.after ((hmt.trans hmu).trans hmv)
  refine .ite (fun _ => ?_) fun _ => .look (.ite (fun _ => ?_) fun _ => ?_)
  · refine (methodRest_reads (by omega) (.mark s) hc fun hsort h => ?_).mono
      fun _ _ hn => hn.choose (by simp)
    refine (hname.pos_eq rfl).imp_right fun hpos => ?_
    rw [hpos]
    exact methodHead_known hmt (ht h) hu (hv.2 (accessor_absent hv.1 hsort))
  · exact shorthandRest_reads (by omega) (.mark s) hc
  · refine (expect_fruitful (by decide)).bind fun _ x _ hmx hl₄ _ => ?_
    refine (assignment_rule (by omega)).bind fun value y _ _ _ hvalue => ?_
    have hc' := (hc.move hmx).part hvalue
    exact node_built (.mark s) hc' .propertyAssignment (hc'.fruitful (by simp)) (fun _ => rfl) rfl

/-! ## Arrow functions -/

omit [Recursion] [r.Ready] [s.Ready] in
theorem Extends.simple {n : Node} (h : Extends s [⟨.parameterName, ctx, n⟩] t) :
    Extends s [⟨.arrowParameters, ctx, simpleParameters n⟩] t :=
  ⟨.simple h.derived, fun _ => h.fruitful (List.cons_ne_nil _ _)⟩

omit [Recursion] in
/-- An arrow is consumed, and if nothing is reported, then it stands on the line. -/
theorem expectArrow_reads :
    expectArrow.Reads s fun _ t => (s.token = .equalsGreaterThanToken → t.left < s.left) ∧
      (t.Faulty ∨ s.token = .equalsGreaterThanToken ∧ s.OnLine) := by
  refine .look (.look (reportWhen_checks.bind fun _ t _ _ _ ht => ?_))
  refine (expect_reads (by decide)).bind fun b u _ hmu _ h => .pure ?_
  rcases h with ⟨-, htok, hlt⟩ | ⟨-, hne, hr⟩
  · have htok := ht.1.token_eq.symm.trans htok
    refine ⟨fun _ => ht.1.left_eq ▸ hlt, (ht.2.imp_left hmu.faulty).imp_right fun hline => ⟨htok, ?_⟩⟩
    exact (Bool.and_eq_false_iff.mp hline).resolve_left (by simp [htok])
  · exact ⟨fun htok => absurd (ht.1.token_eq.trans htok) hne, .inl hr.faulty⟩

theorem arrowBody_reads {isAsync : Bool} (hb : s.left * 8 + 5 ≤ W) :
    (arrowBody ctx isAsync).Reads s fun n t =>
      Built s ⟨.block true, ctx.functionBody isAsync false, n⟩ t ∨
        Built s ⟨.assignment, arrowContext ctx isAsync, n⟩ t :=
  .ifAt (fun _ => (functionBlock_reads (by omega)).mono fun _ _ hn => .inl hn)
    fun _ => (assignment_rule hb).mono fun _ _ hn => .inr hn

/-- An arrow function whose parameters have been read since its mark. -/
theorem arrowFunction_reads {m : Mark} {isAsync : Bool} {parameters : Node}
    (hb : s.token = .equalsGreaterThanToken ∧ s.left * 8 ≤ W ∨ s.left * 8 + 5 ≤ W) (hm : m.At r)
    (hc : Extends r [⟨.arrowParameters, ctx, parameters⟩] s)
    (hend : s.Faulty ∨ parameters.range.stop = s.full.offset)
    (hasync : isAsync = true → ∃ next, r.Joins r.start.offset .asyncKeyword next) :
    (arrowFunction ctx m isAsync parameters).Reads s fun n t =>
      (∃ body, n.form = .arrowFunction isAsync parameters body) ∧
        Built r ⟨.arrowFunction, ctx, n⟩ t := by
  refine expectArrow_reads.bind fun _ t _ hmt hl ⟨harrow, hline⟩ => ?_
  have hb' : t.left * 8 + 5 ≤ W := by
    rcases hb with ⟨htok, hb⟩ | hb
    · have hlt := harrow htok
      omega
    · omega
  refine (arrowBody_reads hb').bind fun body u _ hmu _ hbody => ?_
  have hlined : u.Faulty ∨ (Form.arrowFunction isAsync parameters body).Lined r u := by
    rcases hline with hf | ⟨htok, hline⟩
    · exact .inl (hmu.faulty hf)
    · exact (hend.imp_left (hmt.trans hmu).faulty).imp_right fun hstop =>
        .arrowFunction ⟨s, hc.moves, htok, hstop.symm, hline⟩ hasync
  rcases hbody with hbody | hbody
  · have hc' := (hc.move hmt).part hbody
    exact (lined_reads hm hc' .arrowBlock (hc'.fruitful (by simp)) (fun _ => rfl) hlined).mono
      fun _ _ hn => ⟨⟨body, hn.2.1⟩, hn.2.2⟩
  · have hc' := (hc.move hmt).part hbody
    exact (lined_reads hm hc' .arrowExpression (hc'.fruitful (by simp)) (fun _ => rfl) hlined).mono
      fun _ _ hn => ⟨⟨body, hn.2.1⟩, hn.2.2⟩

omit [Recursion] in
theorem startsAsyncArrow_reads :
    (startsAsyncArrow ctx).Reads s fun b t => s.Still t ∧ (b = true →
      t = s.flush ∧ s.token = .asyncKeyword ∧ (s.flush.consume .plain).OnLine) := by
  refine isAt_reads.and (fun t h => ⟨h.1 ▸ .refl s, nofun⟩) fun t _ _ _ ht => ?_
  obtain ⟨rfl, htok⟩ := ht
  refine (lookAhead_reads (P := fun b => b = true → (t.flush.consume .plain).OnLine) ?_).mono
    fun b u h => ⟨h.1 ▸ .flush t, fun hb => ⟨h.1, htok rfl, h.2 hb⟩⟩
  refine advance_run.bind fun _ u _ _ _ hu => .look (.ite (fun _ => .pure nofun) fun hline => ?_)
  have hline : (t.flush.consume .plain).OnLine := hu ▸ Bool.eq_false_iff.mpr hline
  refine .look (.ite (fun _ => ?_) fun _ => .pure nofun)
  exact advance_run.bind fun _ v _ _ _ _ => .observe fun _ => hline

end EcmaSyntax.Grammar
