import EcmaSyntax.Proofs.Grammar.Class
import EcmaSyntax.Proofs.Grammar.Variable

/-! # Reading declarations

A declaration may have begun before the place where it is met, with the prefix that its mark stands
before. Where none begins after all, a statement is read at the same token. -/
namespace EcmaSyntax.Grammar
open Parse ParseState Part
variable [Recursion] {W : Nat} [Lawful W] {r s t : ParseState} [r.Ready] [s.Ready] {ctx : Context}
variable {m : Mark}

/-! ## Types and enumerations -/

theorem interfaceDeclaration_reads (hb : s.left * 8 ≤ W) (hm : m.At r) (hr : Moves r s) :
    (interfaceDeclaration ctx m).Reads s fun n t => Built r ⟨.declaration, ctx, n⟩ t := by
  refine identifier_reads.bind fun name t _ _ hl hname => ?_
  refine (typeParameters?_reads (by omega)).bind fun tps u _ _ hl₂ htps => ?_
  refine (typeReferencesBehind_reads (by decide) (by omega)).bind fun bases v _ _ hl₃ hbases => ?_
  refine (typeMembers_reads (by omega)).bind fun members w _ _ _ hmembers => ?_
  have hc := (((hname.toExtends.after hr).append htps).append hbases).append hmembers.1
  exact node_built hm hc .interface (hc.fruitful (by simp)) (fun _ => rfl) rfl

theorem typeAlias_reads (hb : s.left * 8 + 2 ≤ W) (hm : m.At r) (hr : Moves r s) :
    (typeAlias ctx m).Reads s fun n t => Built r ⟨.declaration, ctx, n⟩ t := by
  refine identifier_reads.bind fun name t _ _ hl hname => ?_
  refine (typeParameters?_reads (by omega)).bind fun tps u _ _ hl₂ htps => ?_
  refine (expect_reads (by decide)).bind fun _ v _ hmv hl₃ _ => ?_
  refine (type_rule (by omega)).bind fun type w _ _ _ htype => ?_
  have hc := (((hname.toExtends.after hr).append htps).move hmv).part htype
  exact closed_reads hm hc (fun _ _ => .typeAlias) (hc.fruitful (by simp)) (fun _ => rfl) rfl

omit [r.Ready] in
theorem enumMember_reads (hb : s.left * 8 ≤ W) :
    (enumMember ctx).Reads s fun n t => Built s ⟨.enumMember, ctx, n⟩ t := by
  refine .look ((propertyName_reads hb).bind fun name t _ _ hl hname => ?_)
  refine (initializer_reads (by omega)).bind fun value u _ _ _ hvalue => ?_
  have hc := hname.toExtends.append hvalue
  exact node_built (.mark s) hc .enumMember (hc.fruitful (by simp)) (fun _ => rfl) rfl

omit [r.Ready] in
theorem enumTurn_reads {found : Array Node} [t.Ready] (hb : t.left * 8 ≤ W)
    (h : Extends s (all .enumMember ctx found.toList) t) :
    (enumTurn ctx found).Reads t
      (AfterTurn (fun found u => Extends s (all .enumMember ctx found.toList) u)
        (fun found u => Extends s (all .enumMember ctx found.toList) u) t) := by
  refine atListEnd_reads (.pure h) fun _ _ => .look (.ite (fun _ => ?_) fun _ => ?_)
  · refine (enumMember_reads hb).bind fun n u _ _ hl hn => ?_
    have hpush := h.all_push hn
    refine .ifAt (fun _ => .pure hpush) fun _ => ?_
    refine (expect_reads (by decide)).bind fun b v _ hm _ hb' => .pure ?_
    rcases hb' with ⟨rfl, -, hlt⟩ | ⟨rfl, -, -⟩
    · exact ⟨by omega, hpush.move hm⟩
    · exact hpush.move hm
  · exact reportHere_reads.bind fun _ u _ hm _ _ => .pure (h.move hm)

theorem enumDeclaration_reads (hb : s.left * 8 ≤ W) (hm : m.At r) (hr : Moves r s) :
    (enumDeclaration ctx m).Reads s fun n t => Built r ⟨.enumeration, ctx, n⟩ t := by
  refine identifier_reads.bind fun name t _ _ hl hname => ?_
  refine (within_reads (f := fun ms => all .enumMember ctx ms) (by decide) (by decide) rfl
    fun u _ _ _ => collect_reads .enumMember ctx fun found v _ _ _ h =>
      enumTurn_reads (by omega) h).bind fun members u _ _ _ hmembers => ?_
  have hc := (hname.toExtends.after hr).append hmembers.1
  exact node_built hm hc .enumeration (hc.fruitful (by simp)) (fun _ => rfl) rfl

/-! ## Imports -/

section Names
omit [r.Ready] [Recursion]

theorem moduleName_reads (ctx : Context) :
    moduleName.Reads s fun n t => Built s ⟨.moduleName, ctx, n⟩ t := by
  refine .ifAt (fun h => ?_) fun _ => ?_
  · exact (literal_reads ctx (h ▸ rfl)).mono fun _ _ hn => hn.1.choose (by simp)
  · refine reportHere_reads.bind fun _ t _ hm _ hr => ?_
    exact (missingIdentifier_reads .moduleName ctx hr.faulty).mono fun _ _ hn => hn.after hm nofun

theorem specifier_reads (ctx : Context) {direction : Direction} :
    (specifier direction).Reads s fun n t => Built s ⟨.specifier, ctx, n⟩ t := by
  refine .look ((advanceWhen_reads (peek_reads isAt_reads tokenIs_reads.said)).bind
    fun isTypeOnly t _ hmt _ _ => ?_)
  refine (name_reads ctx).bind fun first u _ _ _ hfirst => ?_
  have hfirst := hfirst.toExtends.after hmt
  refine .ifAccept (by decide) (fun v _ hmv _ _ => ?_) fun _ => ?_
  · refine (name_reads ctx).bind fun second w _ _ _ hsecond => ?_
    have hc : Extends s (opt .name ctx (some first) ++ _) w := (hfirst.move hmv).part hsecond
    exact node_built (.mark s) hc .specifier (hc.fruitful (by simp)) (fun _ => rfl) rfl
  · have hc := (Extends.opt_none .name ctx).append hfirst
    exact node_built (.mark s) hc .specifier (hc.fruitful (by simp)) (fun _ => rfl) rfl

theorem specifiers_reads (ctx : Context) {direction : Direction} :
    (specifiers direction).Reads s fun n t => Built s ⟨.specifiers, ctx, n⟩ t := by
  refine .look ((between_reads (f := fun es => all .specifier ctx es) (by decide) (by decide)
    fun t _ _ _ _ => commaItems_reads fun u _ _ _ => specifier_reads ctx).bind
      fun es t _ _ _ h => ?_)
  exact node_built (.mark s) h.1 .specifiers h.2.1 (fun _ => rfl) rfl

theorem namespaceImport_reads :
    (namespaceImport ctx).Reads s fun n t => Built s ⟨.importBindings, ctx, n⟩ t := by
  refine .look (advance_run.bind fun _ t _ hmt _ _ => ?_)
  refine (expect_reads (by decide)).bind fun _ u _ hmu _ _ => ?_
  refine identifier_reads.bind fun given v _ _ _ hgiven => ?_
  have hc := hgiven.toExtends.after (hmt.trans hmu)
  exact node_built (.mark s) hc .namespaceImport (hc.fruitful nofun) (fun _ => rfl) rfl

theorem importBindings_reads {isOnly : Bool} :
    (importBindings ctx isOnly).Reads s fun n t => Extends s (opt .importBindings ctx n) t := by
  refine .look ?_
  split
  case h_1 => exact .map (namespaceImport_reads.mono fun _ _ hn => hn.opt)
  case h_2 => exact .map ((specifiers_reads ctx).mono fun _ _ hn => (hn.choose (by simp)).opt)
  case h_3 => exact reportWhen_reads.bind fun _ t _ hm _ _ => .pure (.nil hm)

theorem importedBindings_reads {hasDefault : Bool} :
    (importedBindings ctx hasDefault).Reads s fun n t =>
      Extends s (opt .importBindings ctx n) t := by
  have hmore : ((return !hasDefault) <||> accept .commaToken : Parse Bool).Reads s fun _ _ => True :=
    .or (Q := fun _ _ => True) (.pure trivial) (fun _ _ => trivial) fun _ _ _ _ _ =>
      (accept_reads (by decide)).mono fun _ _ _ => trivial
  refine hmore.bind fun b t _ hm _ _ => .ite (fun _ => ?_) fun _ => .pure (.nil hm)
  exact importBindings_reads.mono fun _ _ hn => hn.after hm

theorem importClause_reads :
    (importClause ctx).Reads s fun n t => Built s ⟨.importClause, ctx, n⟩ t := by
  refine .look ((advanceWhen_reads (peek_reads isAt_reads tokenIs_reads.said)).bind
    fun isTypeOnly t _ hmt _ _ => ?_)
  refine identifier?_reads.bind fun name u _ _ _ hname => ?_
  refine importedBindings_reads.bind fun bindings v _ _ _ hbindings => ?_
  refine (expect_fruitful (by decide)).bind fun _ w _ hmw _ hfruit => ?_
  have hc := (hname.after hmt).append hbindings
  exact node_built (.mark s) (hc.move hmw) .importClause (hfruit.of_move hc.moves ‹_›) (fun _ => rfl) rfl

end Names

omit [Recursion] in
theorem importDeclaration_reads (hm : m.At r) (hr : Moves r s) :
    (importDeclaration ctx m).Reads s fun n t => Built r ⟨.importDeclaration, ctx, n⟩ t := by
  refine (expect_reads (by decide)).bind fun _ t _ hmt _ _ => ?_
  refine (unlessAtAny_reads (f := fun n => opt .importClause ctx n) rfl fun _ =>
    importClause_reads.mono fun _ _ hn => hn.opt).bind fun clause u _ _ _ hclause => ?_
  refine (moduleName_reads ctx).bind fun source v _ _ _ hsource => ?_
  have hc := (hclause.after (hr.trans hmt)).part hsource
  exact closed_reads hm hc (fun _ _ => .importDeclaration) (hc.fruitful (by simp)) (fun _ => rfl) rfl

omit [Recursion] [r.Ready] [s.Ready] in
theorem isBeforeImport_reads : isBeforeImport.Reads s fun _ t => s.Still t :=
  (nextIs_reads tokenIs_reads.said).mono fun _ _ h => h.1 ▸ .flush s

/-! ## Exports -/

omit [Recursion] in
theorem exportNames_reads {isTypeOnly : Bool} (hm : m.At r) (hr : Moves r s) :
    (exportNames m isTypeOnly).Reads s fun n t => Built r ⟨.exportDeclaration, ctx, n⟩ t := by
  refine (specifiers_reads ctx).bind fun clause t _ _ _ hclause => ?_
  refine (behind_opt (by decide) fun _ _ _ _ => moduleName_reads ctx).bind
    fun source u _ _ _ hsource => ?_
  have hc := (hclause.toExtends.after hr).append hsource
  exact closed_reads hm hc (fun _ _ => .exportNames) (hc.fruitful (by simp)) (fun _ => rfl) rfl

omit [Recursion] [r.Ready] in
theorem exportedNamespace_reads (ctx : Context) (ht : s.token ≠ .endOfFileToken) :
    exportedNamespace.Reads s fun n t => Built s ⟨.exportedNamespace, ctx, n⟩ t := by
  refine .look ((advance_reads ht).bind fun _ t _ hmt _ hlt => ?_)
  refine (behind_opt (by decide) fun _ _ _ _ => name_reads ctx).bind fun given u _ _ hl hgiven => ?_
  exact node_built (.mark s) (hgiven.after hmt) .exportedNamespace (.inl (by omega)) (fun _ => rfl) rfl

omit [Recursion] in
theorem exportAll_reads (ht : s.token ≠ .endOfFileToken) (hm : m.At r) (hr : Moves r s) :
    (exportAll m).Reads s fun n t => Built r ⟨.exportDeclaration, ctx, n⟩ t := by
  refine (exportedNamespace_reads ctx ht).bind fun clause t _ _ _ hclause => ?_
  refine (expect_reads (by decide)).bind fun _ u _ hmu _ _ => ?_
  refine (moduleName_reads ctx).bind fun source v _ _ _ hsource => ?_
  have hc := ((hclause.toExtends.after hr).move hmu).part hsource
  exact closed_reads hm hc (fun _ _ => .exportAll) (hc.fruitful (by simp)) (fun _ => rfl) rfl

theorem exportValue_reads {isEquals : Bool} (hb : s.left * 8 + 5 ≤ W) (hm : m.At r)
    (hr : Moves r s) :
    (exportValue ctx m isEquals).Reads s fun n t => Built r ⟨.exportDeclaration, ctx, n⟩ t := by
  refine (assignment_rule hb).bind fun value t _ _ _ hvalue => ?_
  have hc := hvalue.toExtends.after hr
  exact closed_reads hm hc (fun _ _ => .exportValue) (hc.fruitful nofun) (fun _ => rfl) rfl

omit [r.Ready] in
theorem defaultDeclaration?_reads (hb : s.left * 8 ≤ W) :
    (defaultDeclaration? ctx).Reads s fun answer t =>
      ∀ n ∈ answer, Built s ⟨.declaration, ctx, n⟩ t := by
  have hm := (Mark.At.mark s).withModifiers (.ofList [.exported, .default])
  have hfunction {t : ParseState} [t.Ready] (hmt : Moves s t) (hl : t.left ≤ s.left)
      (hline : t.token = .asyncKeyword → (t.consume .plain).OnLine) :
      (some <$> functionDeclaration ctx (s.mark.withModifiers (.ofList [.exported, .default]))).Reads
        t fun answer u => ∀ n ∈ answer, Built s ⟨.declaration, ctx, n⟩ u := by
    refine .map ((functionDeclaration_reads (by omega) hm hmt fun h => .inr (hline h)).mono
      fun n u hn n' heq => ?_)
    cases heq
    exact hn.choose (by simp)
  have hclass {t : ParseState} {m : Mark} [t.Ready] (hm : m.At s) (hmt : Moves s t)
      (hl : t.left ≤ s.left) :
      (some <$> classLike .declaration ctx m).Reads t fun answer u =>
        ∀ n ∈ answer, Built s ⟨.declaration, ctx, n⟩ u := by
    refine .map ((classLike_reads (by omega) hm hmt).mono fun n u hn n' heq => ?_)
    cases heq
    exact hn.choose (by simp)
  refine .look (.look ?_)
  split
  case h_1 h => exact hfunction (.refl s) (Nat.le_refl _) fun h' => nomatch h.symm.trans h'
  case h_2 =>
    refine isBeforeFunction_reads.bind fun b t _ hmt hl ht => .ite (fun hb' => ?_) ?_
    · obtain ⟨rfl, hline⟩ := ht
      exact hfunction hmt hl fun _ => hline hb'
    · exact fun _ => .pure nofun
  case h_3 | h_4 => exact hclass hm (.refl s) (Nat.le_refl _)
  case h_5 =>
    refine (nextIs_reads isAt_reads.said).bind fun b t _ hmt hl _ => .ite (fun _ => ?_) ?_
    · refine advance_run.bind fun _ u _ hmu hl' _ => ?_
      have hm := (hm.withFlags NodeFlag.abstract (by decide)).withModifiers
        ModifierFlag.abstract
      exact hclass hm (hmt.trans hmu) (by omega)
    · exact fun _ => .pure nofun
  case h_6 => exact .pure nofun

theorem exportDefault_reads (hb : s.left * 8 + 8 ≤ W) (hm : m.At r) (hr : Moves r s) :
    (exportDefault ctx m).Reads s fun n t => Built r ⟨.exportDeclaration, ctx, n⟩ t := by
  refine advance_run.bind fun _ t _ hmt hl _ => ?_
  refine (defaultDeclaration?_reads (by omega)).bind fun answer u _ hmu hl' h => ?_
  cases answer with
  | some declaration =>
    have hc := (h declaration rfl).toExtends.after (hr.trans hmt)
    exact node_built (hm.withModifiers _) hc .exportDeclared (hc.fruitful nofun) (fun _ => rfl) rfl
  | none => exact exportValue_reads (by omega) hm ((hr.trans hmt).trans hmu)

theorem exportDeclared_reads (hb : s.left * 8 + 7 ≤ W) (hm : m.At r) (hr : Moves r s) :
    (exportDeclared ctx m).Reads s fun n t => Built r ⟨.exportDeclaration, ctx, n⟩ t := by
  have hinner := (Mark.At.mark s).withModifiers ModifierFlag.exported
  refine .look ((declaration_rule hb hinner (.refl s)).bind fun declaration t _ _ _ h => ?_)
  have hc := h.toExtends.after hr
  exact node_built hm hc .exportDeclared (hc.fruitful nofun) (fun _ => rfl) rfl

theorem exportDeclaration_reads (hb : s.left * 8 ≤ W) (ht : s.token = .exportKeyword)
    (hm : m.At r) (hr : Moves r s) :
    (exportDeclaration ctx m).Reads s fun n t => Built r ⟨.exportDeclaration, ctx, n⟩ t := by
  refine (expect_here (by decide) ht).bind fun _ t _ hmt _ hlt => ?_
  have hlt := hlt.2
  have hr := hr.trans hmt
  have hm := hm.withModifiers ModifierFlag.exported
  refine .look ?_
  split
  case h_1 => exact exportDefault_reads (by omega) hm hr
  case h_2 =>
    refine advance_run.bind fun _ u _ hmu hl _ => ?_
    exact exportValue_reads (by omega) hm (hr.trans hmu)
  case h_3 h => exact exportAll_reads (h ▸ by decide) hm hr
  case h_4 => exact exportNames_reads hm hr
  case h_5 =>
    refine (nextIs_reads isAt_reads.said).bind fun b u _ hmu hl _ => .ite (fun _ => ?_) fun _ => ?_
    · exact advance_run.bind fun _ v _ hmv _ _ =>
        exportNames_reads hm ((hr.trans hmu).trans hmv)
    · exact exportDeclared_reads (by omega) hm (hr.trans hmu)
  case h_6 => exact exportDeclared_reads (by omega) hm hr

/-! ## The choice among declarations -/

section Words
omit [Recursion] [r.Ready]

theorem acceptBeforeName_reads (ht : s.token ≠ .endOfFileToken) :
    acceptBeforeName.Reads s fun b t =>
      (b = true ∧ t.left < s.left) ∨ (b = false ∧ t = s.flush) :=
  advanceIf_reads ht fun _ _ => onSameLine_reads.mono fun _ _ h => h.1

theorem acceptPrefix_reads (ht : s.token ≠ .endOfFileToken) :
    acceptPrefix.Reads s fun b t =>
      (b = true ∧ t.left < s.left) ∨ (b = false ∧ t = s.flush) :=
  advanceIf_reads ht fun _ _ => onSameLine_reads.mono fun _ _ h => h.1

end Words

theorem plainStatement_reads (hb : s.left * 8 + 6 ≤ W) (hr : Moves r s) :
    (plainStatement ctx).Reads s fun n t => Built r ⟨.declaration, ctx, n⟩ t :=
  (statement_rule hb).mono fun _ _ hn => (hn.choose (by simp)).after hr nofun

theorem abstractDeclaration_reads (hb : s.left * 8 + 6 ≤ W) (ht : s.token ≠ .endOfFileToken)
    (hm : m.At r) (hr : Moves r s) :
    (abstractDeclaration ctx m).Reads s fun n t => Built r ⟨.declaration, ctx, n⟩ t := by
  refine .look ((acceptPrefix_reads ht).bind fun b t _ hmt hl h => .ite (fun hb' => ?_) fun _ => ?_)
  · have hlt : t.left < s.left := by
      rcases h with ⟨-, hlt⟩ | ⟨hb'', -⟩
      · exact hlt
      · rw [hb''] at hb'
        cases hb'
    have hm := (hm.withFlags NodeFlag.abstract (by decide)).withModifiers
      ModifierFlag.abstract
    refine .ifAt (fun _ => ?_) fun _ => ?_
    · exact (classLike_reads (by omega) hm (hr.trans hmt)).mono fun _ _ hn => hn.choose (by simp)
    · refine reportAt_reads.bind fun _ u _ hmu hl' _ => ?_
      exact declaration_rule (by omega) hm ((hr.trans hmt).trans hmu)
  · exact plainStatement_reads (by omega) (hr.trans hmt)

theorem constDeclaration_reads (hb : s.left * 8 ≤ W) (ht : s.token ≠ .endOfFileToken)
    (hm : m.At r) (hr : Moves r s) :
    (constDeclaration ctx m).Reads s fun n t => Built r ⟨.declaration, ctx, n⟩ t := by
  refine (nextIs_reads isAt_reads.said).bind fun b t _ hmt hl h => .ite (fun _ => ?_) fun _ => ?_
  · refine advance_run.bind fun _ u _ hmu hl' _ => advance_run.bind fun _ v _ hmv hl'' _ => ?_
    have hm := hm.withFlags NodeFlag.constBinding (by decide)
    exact (enumDeclaration_reads (by omega) hm (((hr.trans hmt).trans hmu).trans hmv)).mono
      fun _ _ hn => hn.choose (by simp)
  · obtain ⟨rfl, -⟩ := h
    refine .look ((advance_reads (s := s.flush) ht).bind fun _ u _ hmu _ hlt => ?_)
    have hb' : u.left * 8 ≤ W := by omega
    exact (variableStatement_reads hb' hm (hr.trans hmt) (.mark s.flush) hmu hlt (by decide)).mono
      fun _ _ hn => hn.choose (by simp)

/-- What a word begins, or a statement where it is no more than a name. -/
theorem ifPrefix_reads {test : Parse Bool} {p : Parse Node} (hb : s.left * 8 + 6 ≤ W)
    (hr : Moves r s)
    (htest : test.Reads s fun b t => (b = true ∧ t.left < s.left) ∨ (b = false ∧ t = s.flush))
    (hp : ∀ (t : ParseState) [t.Ready], Moves s t → t.left < s.left →
      p.Reads t fun n u => Built r ⟨.declaration, ctx, n⟩ u) :
    (test >>= fun b => if b = true then p else plainStatement ctx).Reads s
      fun n t => Built r ⟨.declaration, ctx, n⟩ t := by
  refine htest.bind fun b t _ hmt hl h => ?_
  rcases h with ⟨rfl, hlt⟩ | ⟨rfl, rfl⟩
  · exact hp t hmt hlt
  · exact plainStatement_reads (by omega) (hr.trans hmt)

theorem declaration_reads (hb : s.left * 8 + 6 ≤ W) (hm : m.At r) (hr : Moves r s) :
    (declaration ctx m).Reads s fun n t => Built r ⟨.declaration, ctx, n⟩ t := by
  have hb' : s.left * 8 ≤ W := by omega
  refine .look ?_
  split
  case h_1 h =>
    exact (functionDeclaration_reads hb' hm hr fun h' => nomatch h.symm.trans h').mono
      fun _ _ hn => hn.choose (by simp)
  case h_2 =>
    refine isBeforeFunction_reads.bind fun b t _ hmt hl ht => .ite (fun hb' => ?_) fun _ => ?_
    · obtain ⟨rfl, hline⟩ := ht
      exact (functionDeclaration_reads (by omega) hm (hr.trans hmt) fun _ => .inr (hline hb')).mono
        fun _ _ hn => hn.choose (by simp)
    · exact plainStatement_reads (by omega) (hr.trans hmt)
  case h_3 | h_4 => exact (classLike_reads hb' hm hr).mono fun _ _ hn => hn.choose (by simp)
  case h_5 h => exact constDeclaration_reads hb' (h ▸ by decide) hm hr
  case h_6 h =>
    refine .look (ifPrefix_reads hb hr (acceptLet_reads (h ▸ by decide)) fun t _ hmt hlt => ?_)
    have hb' : t.left * 8 ≤ W := by omega
    exact (variableStatement_reads hb' hm hr (.mark s) hmt hlt (by decide)).mono
      fun _ _ hn => hn.choose (by simp)
  case h_7 h =>
    refine .look ((advance_reads (h ▸ by decide)).bind fun _ t _ hmt _ hlt => ?_)
    have hb' : t.left * 8 ≤ W := by omega
    exact (variableStatement_reads hb' hm hr (.mark s) hmt hlt (by decide)).mono
      fun _ _ hn => hn.choose (by simp)
  case h_8 h =>
    exact ifPrefix_reads hb hr (acceptBeforeName_reads (h ▸ by decide)) fun t _ hmt hlt =>
      interfaceDeclaration_reads (by omega) hm (hr.trans hmt)
  case h_9 h =>
    exact ifPrefix_reads hb hr (acceptBeforeName_reads (h ▸ by decide)) fun t _ hmt hlt =>
      (enumDeclaration_reads (by omega) hm (hr.trans hmt)).mono fun _ _ hn => hn.choose (by simp)
  case h_10 h =>
    exact ifPrefix_reads hb hr (acceptBeforeName_reads (h ▸ by decide)) fun t _ hmt hlt =>
      typeAlias_reads (by omega) hm (hr.trans hmt)
  case h_11 h => exact abstractDeclaration_reads hb (h ▸ by decide) hm hr
  case h_12 h =>
    refine ifPrefix_reads hb hr (acceptPrefix_reads (h ▸ by decide)) fun t _ hmt hlt => ?_
    exact declaration_rule (by omega) (hm.withFlags _ (by decide)) (hr.trans hmt)
  case h_13 =>
    refine isBeforeImport_reads.bind fun b t _ hmt hl _ => .ite (fun _ => ?_) fun _ => ?_
    · refine reportHere_reads.bind fun _ u _ hmu _ hr' => ?_
      exact (importDeclaration_reads hm ((hr.trans hmt).trans hmu)).last
        fun _ _ hm _ hn => hn.serve (.innerImport (hm.faulty hr'.faulty))
    · exact plainStatement_reads (by omega) (hr.trans hmt)
  case h_14 h =>
    refine reportHere_reads.bind fun _ t _ hmt hl hr' => ?_
    exact (exportDeclaration_reads (by omega) (hr'.still.token_eq.trans h) hm (hr.trans hmt)).last
      fun _ _ hm _ hn => hn.serve (.innerExport (hm.faulty hr'.faulty))
  case h_15 => exact plainStatement_reads hb hr

omit [r.Ready] in
theorem moduleItem_reads (hb : s.left * 8 + 7 ≤ W) :
    (moduleItem ctx).Reads s fun n t => Built s ⟨.item true, ctx, n⟩ t := by
  refine .look (.ifAt (fun h => ?_) fun _ => ?_)
  · exact (exportDeclaration_reads (by omega) h (.mark s) (.refl s)).mono fun _ _ hn => hn.choose (by simp)
  refine (isAt_reads.and_still fun _ => isBeforeImport_reads).bind
    fun b t _ hmt hl _ => .ite (fun _ => ?_) fun _ => ?_
  · exact (importDeclaration_reads (.mark s) hmt).mono fun _ _ hn => hn.choose (by simp)
  · exact (declaration_reads (by omega) (.mark s) hmt).mono fun _ _ hn => hn.choose (by simp)

omit [r.Ready] in
theorem item_reads {inModule : Bool} (hb : s.left * 8 + 7 ≤ W) :
    (item inModule ctx).Reads s fun n t => Built s ⟨.item inModule, ctx, n⟩ t := by
  cases inModule with
  | true => exact moduleItem_reads hb
  | false =>
    exact .look ((declaration_reads (by omega) (.mark s) (.refl s)).mono fun _ _ hn => hn.choose (by simp))

end EcmaSyntax.Grammar
