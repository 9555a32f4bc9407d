import EcmaSyntax.Proofs.Coupling.Expression

/-! # Statements side by side

Variables, declarations and statements. Early errors are found at a `with` and at functions that stand
in a place of their own; there the states still correspond whatever the contexts say. -/
namespace EcmaSyntax.Grammar
open Parse Coupling
variable {K : Coupling} [K.Lawful] {R R' : Recursion} [K.Recurs R R'] {ctx ctx' : Context}
  [K.Contexts ctx ctx'] {s s' : ParseState}

/-! ## Variables -/

theorem assertedMark_follows (name : K.NodePair) :
    K.Follows (assertedMark name.left) (assertedMark name.right) := by
  refine .same .afterLineBreak fun _ => ?_
  rw [name.matched.isIdentifier_eq]
  exact .ite (.accept _) (.pure false rfl)

theorem variableDeclaration_follows :
    K.Follows (@variableDeclaration R ctx) (@variableDeclaration R' ctx') :=
  .bind .mark fun m => .bind bindingName_follows fun name => .same (assertedMark_follows name)
    fun definite => .bind typeAscription_follows fun ascription => .bind initializer_follows
      fun value => .node m (.variableDeclaration name definite ascription value)

theorem variableDeclarations_follows (keyword : K.MarkPair) (flags : NodeFlags) :
    K.Follows (@variableDeclarations R ctx keyword.left flags)
      (@variableDeclarations R' ctx' keyword.right flags) := by
  refine .bind (.collect fun ns => .bind variableDeclaration_follows fun n =>
    .same (.accept _) fun b => ?_) fun found =>
      .node (keyword.withFlags flags) (.variableDeclarations found)
  cases b with
  | true => exact .pure (Turn.again (ns.push n)) rfl
  | false => exact .pure (Turn.done (ns.push n)) rfl

theorem variableStatement_follows (m keyword : K.MarkPair) (flags : NodeFlags) :
    K.Follows (@variableStatement R ctx m.left keyword.left flags)
      (@variableStatement R' ctx' m.right keyword.right flags) :=
  .bind (variableDeclarations_follows keyword flags) fun declarations =>
    .same .expectSemicolon fun _ => .node m (.variableStatement _ declarations)

theorem mayFollowLet_eq (K : Coupling) [K.Lawful] (ctx ctx' : Context) [K.Contexts ctx ctx'] :
    mayFollowLet ctx' = mayFollowLet ctx := by
  funext k
  unfold mayFollowLet
  rw [K.has_eq ctx ctx' .yieldOperator rfl, K.has_eq ctx ctx' .awaitOperator rfl]

theorem acceptLet_follows : K.Follows (acceptLet ctx) (acceptLet ctx') := by
  unfold acceptLet
  rw [mayFollowLet_eq K ctx ctx']
  exact .advanceIf (.tokenIs _)

/-! ## Types and enumerations -/

theorem interfaceDeclaration_follows (m : K.MarkPair) :
    K.Follows (@interfaceDeclaration R ctx m.left) (@interfaceDeclaration R' ctx' m.right) :=
  .bind identifier_follows fun name => .bind typeParameters?_follows fun typeParameters =>
    .bind (typeReferencesBehind_follows _) fun bases => .bind typeMembers_follows fun members =>
      .node m (.interfaceDeclaration name typeParameters bases members)

theorem typeAlias_follows (m : K.MarkPair) :
    K.Follows (@typeAlias R ctx m.left) (@typeAlias R' ctx' m.right) :=
  .bind identifier_follows fun name => .bind typeParameters?_follows fun typeParameters =>
    .same (.expect _) fun _ => .bind (Meets.recur .type) fun type => .same .expectSemicolon fun _ =>
      .node m (.typeAlias name typeParameters type)

theorem enumMember_follows : K.Follows (@enumMember R ctx) (@enumMember R' ctx') :=
  .bind .mark fun m => .bind propertyName_follows fun name => .bind initializer_follows fun value =>
    .node m (.enumMember name value)

theorem enumDeclaration_follows (m : K.MarkPair) :
    K.Follows (@enumDeclaration R ctx m.left) (@enumDeclaration R' ctx' m.right) := by
  refine .bind identifier_follows fun name => .bind (.within _ _ [] rfl (.collect fun ns => ?_))
    fun members => .node m (.enumDeclaration name members)
  refine .same (.isAtAny _) fun _ => .ite (.pure (Turn.done ns) rfl) <| .same .token fun _ => .ite
    (.bind enumMember_follows fun n => .same (.isAt _) fun _ => .ite (.pure (Turn.done (ns.push n)) rfl) ?_)
    (.same (.reportHere _ _ _) fun _ => .pure (Turn.done ns) rfl)
  refine .same (.expect _) fun b => ?_
  cases b with
  | true => exact .pure (Turn.again (ns.push n)) rfl
  | false => exact .pure (Turn.done (ns.push n)) rfl

/-! ## Imports and exports -/

theorem moduleName_follows : K.Follows moduleName moduleName :=
  .same (.isAt _) fun _ => .ite literal_follows <| .same (.reportHere _ _ _) fun _ =>
    missingIdentifier_follows

theorem specifiers_follows (direction : Direction) :
    K.Follows (specifiers direction) (specifiers direction) := by
  have hspecifier : K.Follows (specifier direction) (specifier direction) :=
    .bind .mark fun m => .same (.advanceWhen (.and (.isAt _) (.nextIs (.tokenIs _)))) fun isTypeOnly =>
      .bind name_follows fun first => .same (.accept _) fun _ => .ite
        (.bind name_follows fun second =>
          .node m (.specifier direction isTypeOnly (some first) second))
        (.node m (.specifier direction isTypeOnly none first))
  exact .bind .mark fun m => .bind (.between _ _ (commaItems_follows _ hspecifier)) fun elements =>
    .node m (.namedSpecifiers direction elements)

theorem importBindings_follows (isOnly : Bool) :
    K.Follows (importBindings ctx isOnly) (importBindings ctx' isOnly) := by
  have hnamespace : K.Follows (namespaceImport ctx) (namespaceImport ctx') :=
    .bind .mark fun m => .same .advance fun _ => .same (.expect _) fun _ =>
      .bind identifier_follows fun given => .node m (.namespaceBinding .imported (some given))
  refine .same .token fun k => ?_
  split
  · exact .some hnamespace
  · exact .some (specifiers_follows _)
  · exact .same (.reportWhen _ _ _) fun _ => .pure none rfl

theorem importClause_follows : K.Follows (importClause ctx) (importClause ctx') := by
  refine .bind .mark fun m => .same (.advanceWhen (.and (.isAt _) (.nextIs (.tokenIs _))))
    fun isTypeOnly => .bind identifier?_follows fun name => .bind ?_ fun bindings =>
      .same (.expect _) fun _ => .node m (.importClause isTypeOnly name bindings)
  have hsome : (Coupled.right (K := K) (α := Option Node) name).isSome =
      (Coupled.left (K := K) (α := Option Node) name).isSome := by
    cases name <;> rfl
  rw [hsome]
  exact .same (.or (.pure _ rfl) (.accept _)) fun _ => .ite (importBindings_follows _) (.pure none rfl)

theorem importDeclaration_follows (m : K.MarkPair) :
    K.Follows (importDeclaration ctx m.left) (importDeclaration ctx' m.right) :=
  .same (.expect _) fun _ => .bind (.unlessAtAny _ importClause_follows) fun clause =>
    .bind moduleName_follows fun source => .same .expectSemicolon fun _ =>
      .node m (.importDeclaration clause source)

theorem isBeforeImport_follows : K.Follows isBeforeImport isBeforeImport := .nextIs (.tokenIs _)

theorem exportNames_follows (m : K.MarkPair) (isTypeOnly : Bool) :
    K.Follows (exportNames m.left isTypeOnly) (exportNames m.right isTypeOnly) :=
  .bind (specifiers_follows _) fun clause => .bind (.behind _ moduleName_follows) fun source =>
    .same .expectSemicolon fun _ => .node m (.exportDeclaration isTypeOnly (some clause) source none)

theorem exportAll_follows (m : K.MarkPair) : K.Follows (exportAll m.left) (exportAll m.right) := by
  have hnamespace : K.Follows exportedNamespace exportedNamespace :=
    .bind .mark fun m => .same .advance fun _ => .bind (.behind _ name_follows) fun given =>
      .node m (.namespaceBinding .exported given)
  exact .bind hnamespace fun clause => .same (.expect _) fun _ => .bind moduleName_follows
    fun source => .same .expectSemicolon fun _ =>
      .node m (.exportDeclaration false (some clause) (some source) none)

theorem exportValue_follows (m : K.MarkPair) (isEquals : Bool) :
    K.Follows (@exportValue R ctx m.left isEquals) (@exportValue R' ctx' m.right isEquals) :=
  .bind (Meets.recur .assignment) fun value => .same .expectSemicolon fun _ =>
    .node m (.exportAssignment isEquals value)

theorem defaultDeclaration?_follows :
    K.Follows (@defaultDeclaration? R ctx) (@defaultDeclaration? R' ctx') := by
  refine .bind .mark fun m => .same .token fun k => ?_
  let m' := MarkPair.withModifiers m (.ofList [.exported, .default])
  split
  · exact .some (functionDeclaration_follows m')
  · exact .same isBeforeFunction_follows fun _ => .ite (.some (functionDeclaration_follows m'))
      (.pure none rfl)
  · exact .some (classLike_follows _ m')
  · exact .some (classLike_follows _ m')
  · exact .same (.nextIs (.isAt _)) fun _ => .ite (.same .advance fun _ => .some
      (classLike_follows _ ((m'.withFlags NodeFlag.abstract).withModifiers ModifierFlag.abstract)))
      (.pure none rfl)
  · exact .pure none rfl

theorem exportDefault_follows (m : K.MarkPair) :
    K.Follows (@exportDefault R ctx m.left) (@exportDefault R' ctx' m.right) := by
  refine .same .advance fun _ => .bind defaultDeclaration?_follows fun declaration => ?_
  cases declaration with
  | some declaration =>
    exact .node (m.withModifiers ModifierFlag.default)
      (.exportDeclaration false none none (some declaration))
  | none => exact exportValue_follows m false

theorem exportDeclared_follows (m : K.MarkPair) :
    K.Follows (@exportDeclared R ctx m.left) (@exportDeclared R' ctx' m.right) :=
  .bind .mark fun inner =>
    .bind (Meets.recur (.declaration (MarkPair.withModifiers inner ModifierFlag.exported)))
      fun declaration => .node m (.exportDeclaration false none none (some declaration))

theorem exportDeclaration_follows (m : K.MarkPair) :
    K.Follows (@exportDeclaration R ctx m.left) (@exportDeclaration R' ctx' m.right) := by
  let m' := m.withModifiers ModifierFlag.exported
  refine .same (.expect _) fun _ => .same .token fun k => ?_
  split
  · exact exportDefault_follows m'
  · exact .same .advance fun _ => exportValue_follows m' true
  · exact exportAll_follows m'
  · exact exportNames_follows m' false
  · exact .same (.nextIs (.isAt _)) fun _ => .ite
      (.same .advance fun _ => exportNames_follows m' true) (exportDeclared_follows m')
  · exact exportDeclared_follows m'

/-! ## The choice among declarations -/

theorem acceptBeforeName_follows : K.Follows acceptBeforeName acceptBeforeName :=
  .advanceIf (.onSameLine _)

theorem acceptPrefix_follows : K.Follows acceptPrefix acceptPrefix := .advanceIf (.onSameLine _)

omit [K.Lawful] in
theorem plainStatement_follows : K.Follows (@plainStatement R ctx) (@plainStatement R' ctx') :=
  Meets.recur (.statement .plain)

theorem abstractDeclaration_followsAt (m : K.MarkPair) (hs : K.state s s') :
    K.FollowsAt (@abstractDeclaration R ctx m.left) (@abstractDeclaration R' ctx' m.right) s s' := by
  have h := Lawful.aligned hs
  let m' := (m.withFlags NodeFlag.abstract).withModifiers ModifierFlag.abstract
  refine .look fun _ => ?_
  rw [h.tokenSpan_eq]
  refine .bindFrom hs (Nat.le_refl _) acceptPrefix_follows fun _ t t' ht hpos => .ite ?_ ?_
  · refine .bindFrom ht hpos (.isAt _) fun _ u u' hu hpos => .ite ?_ ?_
    · exact classLike_follows _ m' u u' hu
    · refine .bind (.reportAt (h.spans (Lawful.edged hs (.refl s))) hpos hu) fun _ v v' _ _ hv => ?_
      exact Meets.recur (.declaration m') v v' hv
  · exact plainStatement_follows t t' ht

theorem constDeclaration_follows (m : K.MarkPair) :
    K.Follows (@constDeclaration R ctx m.left) (@constDeclaration R' ctx' m.right) :=
  .same (.nextIs (.isAt _)) fun _ => .ite
    (.same .advance fun _ => .same .advance fun _ =>
      enumDeclaration_follows (m.withFlags NodeFlag.constBinding))
    (.bind .mark fun keyword => .same .advance fun _ =>
      variableStatement_follows m keyword NodeFlag.constBinding)

theorem declaration_follows (m : K.MarkPair) :
    K.Follows (@declaration R ctx m.left) (@declaration R' ctx' m.right) := by
  refine .same .token fun k => ?_
  split
  · exact functionDeclaration_follows m
  · exact .same isBeforeFunction_follows fun _ => .ite (functionDeclaration_follows m)
      plainStatement_follows
  · exact classLike_follows _ m
  · exact classLike_follows _ m
  · exact constDeclaration_follows m
  · exact .bind .mark fun keyword => .same acceptLet_follows fun _ => .ite
      (variableStatement_follows m keyword _) plainStatement_follows
  · exact .bind .mark fun keyword => .same .advance fun _ => variableStatement_follows m keyword ∅
  · exact .same acceptBeforeName_follows fun _ => .ite (interfaceDeclaration_follows m)
      plainStatement_follows
  · exact .same acceptBeforeName_follows fun _ => .ite (enumDeclaration_follows m)
      plainStatement_follows
  · exact .same acceptBeforeName_follows fun _ => .ite (typeAlias_follows m) plainStatement_follows
  · exact fun s s' hs => abstractDeclaration_followsAt m hs
  · exact .same acceptPrefix_follows fun _ => .ite
      (Meets.recur (.declaration (m.withFlags (.ofList [.declared, .ambient]))))
      plainStatement_follows
  · exact .same isBeforeImport_follows fun _ => .ite
      (.same (.reportHere _ _ _) fun _ => importDeclaration_follows m) plainStatement_follows
  · exact .same (.reportHere _ _ _) fun _ => exportDeclaration_follows m
  · exact plainStatement_follows

theorem item_follows (inModule : Bool) :
    K.Follows (@item R inModule ctx) (@item R' inModule ctx') := by
  have hmodule : K.Follows (@moduleItem R ctx) (@moduleItem R' ctx') :=
    .bind .mark fun m => .same (.isAt _) fun _ => .ite (exportDeclaration_follows m) <|
      .same (.and (.isAt _) isBeforeImport_follows) fun _ => .ite (importDeclaration_follows m)
        (declaration_follows m)
  exact .ite hmodule (.bind .mark fun m => declaration_follows m)

/-! ## Branches and loops -/

theorem condition_follows : K.Follows (@condition R ctx) (@condition R' ctx') :=
  .same (.expect _) fun _ => .bind expression_follows fun inner => .same (.expect _) fun _ =>
    .pure inner rfl

omit [K.Lawful] in
theorem innerStatement_follows : K.Follows (@innerStatement R ctx) (@innerStatement R' ctx') :=
  Meets.recur (.statement .plain)

theorem ifStatement_follows : K.Follows (@ifStatement R ctx) (@ifStatement R' ctx') :=
  .bind .mark fun m => .same .advance fun _ => .bind condition_follows fun test =>
    .bind (Meets.recur (.statement .branch)) fun whenTrue =>
      .bind (.behind _ (Meets.recur (.statement .branch))) fun whenFalse =>
        .node m (.ifStatement test whenTrue whenFalse)

theorem doStatement_follows : K.Follows (@doStatement R ctx) (@doStatement R' ctx') :=
  .bind .mark fun m => .same .advance fun _ => .bind innerStatement_follows fun body =>
    .same (.expect _) fun _ => .bind condition_follows fun test => .same (.accept _) fun _ =>
      .node m (.doStatement body test)

theorem whileStatement_follows : K.Follows (@whileStatement R ctx) (@whileStatement R' ctx') :=
  .bind .mark fun m => .same .advance fun _ => .bind condition_follows fun test =>
    .bind innerStatement_follows fun body => .node m (.whileStatement test body)

theorem forInitializer_follows : K.Follows (@forInitializer R ctx) (@forInitializer R' ctx') := by
  refine .bind .mark fun keyword => .same .token fun k => ?_
  split
  · exact .pure none rfl
  · exact .same .advance fun _ => .some (variableDeclarations_follows keyword ∅)
  · exact .same .advance fun _ => .some (variableDeclarations_follows keyword _)
  · exact .same acceptLet_follows fun _ => .ite (.some (variableDeclarations_follows keyword _))
      (.some expression_follows)
  · exact .some expression_follows

theorem forRest_follows (m : K.MarkPair) (first : Option K.NodePair) :
    K.Follows (@forRest R ctx m.left (first.map NodePair.left))
      (@forRest R' ctx' m.right (first.map NodePair.right)) :=
  .same (.expect _) fun _ => .bind (.unlessAtAny _ expression_follows) fun test =>
    .same (.expect _) fun _ => .bind (.unlessAtAny _ expression_follows) fun step =>
      .same (.expect _) fun _ => .bind innerStatement_follows fun body =>
        .node m (.forStatement first test step body)

theorem forEachRest_follows (m : K.MarkPair) (sort : IterationSort) (isAwait : Bool)
    (first : K.NodePair) :
    K.Follows (@forEachRest R ctx m.left sort isAwait first.left)
      (@forEachRest R' ctx' m.right sort isAwait first.right) :=
  .bind (.ite (Meets.recur .assignment) expression_follows) fun subject =>
    .same (.expect _) fun _ => .bind innerStatement_follows fun body =>
      .node m (.forEach sort isAwait first subject body)

theorem forLoop_follows : K.Follows (@forLoop R ctx) (@forLoop R' ctx') := by
  refine .bind .mark fun m => .same .advance fun _ => .same (.accept _) fun isAwait =>
    .same (.expect _) fun _ => .bind forInitializer_follows fun first => ?_
  cases first with
  | none => exact forRest_follows m none
  | some first =>
    exact .same (.accept _) fun _ => .ite (forEachRest_follows m _ isAwait first) <|
      .same (.accept _) fun _ => .ite (forEachRest_follows m _ isAwait first)
        (forRest_follows m (some first))

/-! ## Jumps -/

theorem jump_follows (sort : JumpSort) : K.Follows (jump ctx sort) (jump ctx' sort) := by
  have hlabel : K.Follows (jumpLabel? ctx) (jumpLabel? ctx') :=
    .same .afterLineBreak fun _ => .ite (.pure none rfl) identifier?_follows
  exact .bind .mark fun m => .same .advance fun _ => .bind hlabel fun label =>
    .same .expectSemicolon fun _ => .node m (.jump sort label)

theorem returnStatement_follows : K.Follows (@returnStatement R ctx) (@returnStatement R' ctx') := by
  have hvalue : K.Follows (@returnValue R ctx) (@returnValue R' ctx') :=
    .same .canOmitSemicolon fun _ => .ite (.pure none rfl) (.some expression_follows)
  refine .bind .mark fun m => ?_
  rw [K.has_eq ctx ctx' .returnStatement rfl]
  exact .same (.reportWhen _ _ _) fun _ => .same .advance fun _ => .bind hvalue fun value =>
    .same .expectSemicolon fun _ => .node m (.returnStatement value)

theorem throwStatement_follows : K.Follows (@throwStatement R ctx) (@throwStatement R' ctx') := by
  have hvalue : K.Follows (@thrownValue R ctx) (@thrownValue R' ctx') :=
    .same .afterLineBreak fun _ => .ite
      (.same (.reportHere _ _ _) fun _ => missingIdentifier_follows) expression_follows
  exact .bind .mark fun m => .same .advance fun _ => .bind hvalue fun value =>
    .same .expectSemicolon fun _ => .node m (.throwStatement value)

/-! ## Compound statements -/

theorem caseClause_follows : K.Follows (@caseClause R ctx) (@caseClause R' ctx') := by
  have hvalue : K.Follows (@caseValue R ctx) (@caseValue R' ctx') :=
    .same (.accept _) fun _ => .ite (.some expression_follows) (.same .advance fun _ => .pure none rfl)
  exact .bind .mark fun m => .bind hvalue fun value => .same (.expect _) fun _ =>
    .bind (statementList_follows _ _ _) fun statements => .node m (.caseClause value statements)

theorem switchStatement_follows : K.Follows (@switchStatement R ctx) (@switchStatement R' ctx') := by
  refine .bind .mark fun m => .same .advance fun _ => .bind condition_follows fun subject =>
    .bind (.within _ _ [] rfl (.collect fun ns => ?_)) fun clauses =>
      .node m (.switchStatement subject clauses)
  refine .same (.isAtAny _) fun _ => .ite (.pure (Turn.done ns) rfl) <| .same (.isAtAny _) fun _ => .ite
    (.bind caseClause_follows fun n => .pure (Turn.again (ns.push n)) rfl) ?_
  exact .same (.reportHere _ _ _) fun _ => .same (.consume _) fun _ => .pure (Turn.again ns) rfl

theorem catchClause_follows : K.Follows (@catchClause R ctx) (@catchClause R' ctx') := by
  have hvariable : K.Follows (@caughtVariable R ctx) (@caughtVariable R' ctx') :=
    .bind variableDeclaration_follows fun binding => .same (.expect _) fun _ => .pure binding rfl
  exact .bind .mark fun m => .same .advance fun _ => .bind (.behind _ hvariable) fun binding =>
    .bind block_follows fun body => .node m (.catchClause binding body)

theorem tryStatement_follows : K.Follows (@tryStatement R ctx) (@tryStatement R' ctx') := by
  have hchecked (isHandled : Bool) : K.Follows (checkHandled isHandled) (checkHandled isHandled) :=
    .ite (.pure () rfl) (.reportExpected _)
  refine .bind .mark fun m => .same (.expect _) fun _ => .bind block_follows fun body =>
    .bind (.whenAt _ catchClause_follows) fun handler =>
      .bind (.behind _ block_follows) fun finalizer => ?_
  have hsome (n : Coupled.Pair K (Option Node)) :
      (Coupled.right n).isSome = (Coupled.left n).isSome := by cases n <;> rfl
  rw [hsome handler, hsome finalizer]
  exact .same (hchecked _) fun _ => .node m (.tryStatement body handler finalizer)

/-! ## Early errors -/

theorem reportWhen_run {c : Bool} {message : Message} {h : message.isGrammatical = true} :
    (reportWhen c message h).run s = some ((), s.note (if c then some message else none)) := by
  cases c <;> rfl

theorem withStatement_follows : K.Follows (@withStatement R ctx) (@withStatement R' ctx') := by
  have hcontexts : K.Contexts ctx ctx' := inferInstance
  refine .bind .mark fun m => .bind (.early ?_ ?_ (fun h _ => ?_) (fun _ => reportWhen_run)
    fun _ => reportWhen_run) fun _ => .same .advance fun _ => .bind condition_follows fun subject =>
      .bind innerStatement_follows fun body => .node m (.withStatement subject body)
  · rintro message hmessage
    split at hmessage
    · cases hmessage
      decide
    · cases hmessage
  · intro hnone
    refine if_neg fun h => ?_
    have hstrict : ctx.isStrict = true := hcontexts.has_of_has .strict h
    rw [if_pos hstrict] at hnone
    cases hnone
  · have hstrict : ctx'.has .strict = ctx.has .strict := Contexts.has_eq .strict h
    rw [Context.isStrict, hstrict]
    rfl

theorem checkFunction_run {site : StatementSite} :
    (checkFunction ctx site).run s = some ((), s.note (misplacedFunction? ctx site)) := by
  unfold checkFunction
  split
  case h_1 h => rw [h]; rfl
  case h_2 message h => exact (congrArg (fun o => some ((), s.note o)) h).symm

theorem misplacedFunction?_early {site : StatementSite} :
    ∀ m ∈ misplacedFunction? ctx site, m ∈ earlyErrors := by
  unfold misplacedFunction?
  repeat' split
  all_goals simp [earlyErrors]

theorem misplacedFunction?_none (K : Coupling) [hK : K.Contexts ctx ctx'] {site : StatementSite}
    (h : misplacedFunction? ctx site = none) : misplacedFunction? ctx' site = none := by
  have hstrict := mt (hK.has_of_has .strict)
  have hweb := mt (hK.has_of_has .withoutWebCompat)
  unfold misplacedFunction? Context.isStrict at h ⊢
  split at h
  · cases h
  case isFalse hs =>
    split at h
    · cases h
    case isFalse hw => rw [if_neg (hstrict hs), if_neg (hweb hw), h]

theorem functionStatement_follows (site : StatementSite) :
    K.Follows (@functionStatement R ctx site) (@functionStatement R' ctx' site) := by
  refine .bind .mark fun m => .bind (.early misplacedFunction?_early (misplacedFunction?_none K)
    (fun h h' => ?_) (fun _ => checkFunction_run) fun _ => checkFunction_run)
      fun _ => functionDeclaration_follows m
  have hstrict : ctx'.has .strict = ctx.has .strict := Contexts.has_eq .strict h
  have hweb : ctx'.has .withoutWebCompat = ctx.has .withoutWebCompat := Contexts.has_eq _ h'
  unfold misplacedFunction? Context.isStrict
  rw [hstrict, hweb]

/-! ## Statements -/

theorem expressionStatement_follows :
    K.Follows (@expressionStatement R ctx) (@expressionStatement R' ctx') := by
  refine .bind .mark fun m => .same isIdentifier_follows fun startsWithName =>
    .bind expression_follows fun inner => .same .token fun k => ?_
  have hinner : (Coupled.right (K := K) inner).isIdentifier =
      (Coupled.left (K := K) inner).isIdentifier := inner.matched.isIdentifier_eq
  rw [hinner]
  refine .ite ?_ (.same .afterLineBreak fun _ => ?_)
  · exact .same .advance fun _ => .bind (Meets.recur (.statement .labeled)) fun body =>
      .node m (.labeled inner body)
  · exact .same (.reportWhen _ _ _) fun _ => .same .expectSemicolon fun _ =>
      .node m (.expressionStatement inner)

theorem statement_follows (site : StatementSite) :
    K.Follows (@statement R ctx site) (@statement R' ctx' site) := by
  have hexpression := @expressionStatement_follows K _ R R' _ ctx ctx' _
  refine .bind .mark fun m => .same .token fun k => ?_
  split
  · exact block_follows
  · exact .bind .mark fun m => .same .advance fun _ => .node m .emptyStatement
  · exact .same .advance fun _ => variableStatement_follows m m ∅
  · exact ifStatement_follows
  · exact doStatement_follows
  · exact whileStatement_follows
  · exact forLoop_follows
  · exact jump_follows _
  · exact jump_follows _
  · exact returnStatement_follows
  · exact withStatement_follows
  · exact switchStatement_follows
  · exact throwStatement_follows
  · exact tryStatement_follows
  · exact tryStatement_follows
  · exact tryStatement_follows
  · exact .bind .mark fun m => .same .advance fun _ => .same .expectSemicolon fun _ =>
      .node m .debuggerStatement
  · exact functionStatement_follows site
  · exact .same isBeforeFunction_follows fun _ => .ite (functionStatement_follows site) hexpression
  · exact .same (.reportHere _ _ _) fun _ => classLike_follows .declaration m
  · exact .same acceptBeforeName_follows fun _ => .ite (enumDeclaration_follows m) hexpression
  · exact hexpression

end EcmaSyntax.Grammar
