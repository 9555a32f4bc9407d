import EcmaSyntax.Proofs.Coupling.Parameter

/-! # Types side by side

Type ascriptions, signatures and object types. The two routines that decide by the number of
diagnostics follow each other where the runs report alike. -/
namespace EcmaSyntax.Grammar
open Parse Coupling
variable {K : Coupling} [K.Lawful] {R R' : Recursion} {ctx ctx' : Context} [K.Contexts ctx ctx']

section Meets
variable [K.Meets R R']

/-! ## Type parameters and arguments -/

theorem typeArguments_follows : K.Follows (@typeArguments R ctx) (@typeArguments R' ctx') :=
  .between _ _ (commaItems_follows _ (Meets.recur .type))

theorem typeParameter_follows : K.Follows (@typeParameter R ctx) (@typeParameter R' ctx') :=
  .bind .mark fun m => .same (.accept _) fun _ => .bind identifier_follows fun name =>
    .bind (.behind _ (Meets.recur .type)) fun bound =>
      .bind (.behind _ (Meets.recur .type)) fun default => .node m (.typeParameter name bound default)

theorem typeParameters_follows : K.Follows (@typeParameters R ctx) (@typeParameters R' ctx') :=
  .between _ _ (commaItems_follows _ typeParameter_follows)

theorem typeParameters?_follows : K.Follows (@typeParameters? R ctx) (@typeParameters? R' ctx') :=
  .whenAt _ typeParameters_follows

/-! ## References -/

theorem entityHead_follows : K.Follows (entityHead ctx) (entityHead ctx') :=
  .same .token fun _ => .ite identifierToken_follows identifier_follows

theorem entityName_follows : K.Follows (entityName ctx) (entityName ctx') := by
  refine .bind .mark fun m => .bind entityHead_follows fun first => .loop first rfl fun left => ?_
  refine .same (.accept _) fun _ => .ite ?_ (.pure (Turn.done left) rfl)
  exact .bind name_follows fun right => .bind (.node m (.qualifiedName left right)) fun n =>
    .pure (Turn.again n) rfl

theorem referenceArguments?_follows :
    K.Follows (@referenceArguments? R ctx) (@referenceArguments? R' ctx') :=
  .same .afterLineBreak fun _ => .ite (.pure none rfl) (.whenAt _ typeArguments_follows)

theorem typeReference_follows : K.Follows (@typeReference R ctx) (@typeReference R' ctx') :=
  .bind .mark fun m => .bind entityName_follows fun name => .bind referenceArguments?_follows
    fun arguments => .node m (.typeReference name arguments)

theorem typeReferences_follows : K.Follows (@typeReferences R ctx) (@typeReferences R' ctx') :=
  .bind typeReference_follows fun first => .bind (more_follows _ typeReference_follows)
    fun others => .pure (first :: others) rfl

theorem typeReferencesBehind_follows (word : Kind) :
    K.Follows (@typeReferencesBehind R word ctx) (@typeReferencesBehind R' word ctx') :=
  .same (.accept _) fun _ => .ite typeReferences_follows (.pure [] rfl)

/-! ## Signatures -/

theorem startsAssertion_follows : K.Follows startsAssertion startsAssertion :=
  .and (.isAt _) (.nextIs (.onSameLine _))

theorem startsPredicate_follows : K.Follows startsPredicate startsPredicate :=
  .and (.tokenIs _) (.nextIs (.onSameLine _))

theorem typeOrPredicate_follows : K.Follows (@typeOrPredicate R ctx) (@typeOrPredicate R' ctx') := by
  refine .bind .mark fun m => .same startsAssertion_follows fun _ => .ite ?_ ?_
  · exact .same .advance fun _ => .bind identifierToken_follows fun parameter =>
      .bind (.behind _ (Meets.recur .type)) fun type =>
        .node m (.typePredicate true parameter type)
  · refine .same startsPredicate_follows fun _ => .ite ?_ (Meets.recur .type)
    exact .bind identifierToken_follows fun parameter => .same .advance fun _ =>
      .bind (Meets.recur .type) fun type => .node m (.typePredicate false parameter (some type))

theorem returnType_follows : K.Follows (@returnType R ctx) (@returnType R' ctx') :=
  .behind _ typeOrPredicate_follows

theorem arrowResult_follows : K.Follows (@arrowResult R ctx) (@arrowResult R' ctx') :=
  .same (.expect _) fun _ => .ite (.some typeOrPredicate_follows) (.pure none rfl)

theorem signature_follows (m : K.MarkPair) (sort : SignatureSort) :
    K.Follows (@signature R m.left sort ctx) (@signature R' m.right sort ctx') :=
  .bind typeParameters?_follows fun typeParameters => .bind formalParameters_follows
    fun parameters => .bind returnType_follows fun result =>
      .node m (.signature sort typeParameters parameters result)

theorem functionType_follows : K.Follows (@functionType R ctx) (@functionType R' ctx') :=
  .bind .mark fun m => .same (.accept _) fun _ => .bind typeParameters?_follows
    fun typeParameters => .bind formalParameters_follows fun parameters =>
      .bind arrowResult_follows fun result => .node m (.signature _ typeParameters parameters result)

/-! ## Members of object types -/

theorem opensIndexSignature_follows : K.Follows opensIndexSignature opensIndexSignature :=
  .lookAhead <| .same .advance fun _ => .same (.isAtAny _) fun _ => .ite (.pure true rfl) <|
    .same (.advanceWhen (.tokenIs _)) fun _ => .same .token fun _ => .ite
      (.same .advance fun _ => .same (.accept _) fun _ => .ite (.isAtAny _) (.isAtAny _))
      (.pure false rfl)

theorem indexParameter_follows : K.Follows (@indexParameter R ctx) (@indexParameter R' ctx') :=
  .bind .mark fun m => .same parameterModifiers_follows fun modifiers =>
    .bind identifier_follows fun binding =>
      parameterTail_follows (m.withModifiers modifiers) binding [] false false

theorem indexParameters_follows : K.Follows (@indexParameters R ctx) (@indexParameters R' ctx') := by
  refine .bind .mark fun m => .bind (.between _ _ (.collect fun ns => ?_)) fun keys =>
    .node m (.formalParameters keys false)
  refine .same (.isAtAny _) fun _ => .ite (.pure (Turn.done ns) rfl) <|
    .bind indexParameter_follows fun n => .same (.accept _) fun b => ?_
  cases b with
  | true => exact .pure (Turn.again (ns.push n)) rfl
  | false => exact .pure (Turn.done (ns.push n)) rfl

theorem indexSignature_follows (m : K.MarkPair) :
    K.Follows (@indexSignature R m.left ctx) (@indexSignature R' m.right ctx') :=
  .bind indexParameters_follows fun parameters => .bind typeAscription_follows fun ascription =>
    .node m (.indexSignature parameters ascription)

theorem atSignature_follows : K.Follows atSignature atSignature := .isAtAny _

theorem namedMember_follows (m : K.MarkPair) :
    K.Follows (@namedMember R m.left ctx) (@namedMember R' m.right ctx') :=
  .bind propertyName_follows fun name => .same (.accept _) fun optional =>
    .same atSignature_follows fun _ => .ite
      (.bind typeParameters?_follows fun typeParameters => .bind formalParameters_follows
        fun parameters => .bind returnType_follows fun result =>
          .node m (.methodSignature name optional typeParameters parameters result))
      (.bind typeAscription_follows fun ascription =>
        .node m (.propertySignature name optional ascription))

theorem isBeforePropertyName_follows : K.Follows isBeforePropertyName isBeforePropertyName :=
  .onSameLine _

theorem typeMember_follows : K.Follows (@typeMember R ctx) (@typeMember R' ctx') := by
  refine .bind .mark fun m => .same atSignature_follows fun _ => .ite (signature_follows m _) ?_
  refine .same (.and (.isAt _) (.nextIs atSignature_follows)) fun _ => .ite
    (.same .advance fun _ => signature_follows m _) ?_
  refine .same (.advanceWhen (.and (.isAt _) (.nextIs isBeforePropertyName_follows))) fun b => ?_
  exact .same (.and (.isAt _) opensIndexSignature_follows) fun _ => .ite
    (indexSignature_follows (m.withModifiers _)) (namedMember_follows (m.withModifiers _))

theorem endTypeMember_follows : K.Follows endTypeMember endTypeMember :=
  .same (.accept _) fun _ => .ite (.pure () rfl) .expectSemicolon

theorem typeMembers_follows : K.Follows (@typeMembers R ctx) (@typeMembers R' ctx') := by
  refine .within _ _ [] rfl (.collect fun ns => .same (.isAtAny _) fun _ => .ite (.pure (Turn.done ns) rfl) ?_)
  refine .same .token fun _ => .ite (.tokenStart fun start => ?_) <|
    .same (.reportHere _ _ _) fun _ => .same .advance fun _ => .pure (Turn.again ns) rfl
  refine .bind (Meets.recur .typeMember) fun member => ?_
  cases member with
  | none => exact .pure (Turn.done ns) rfl
  | some n =>
    exact .same endTypeMember_follows fun _ => .same (.ifUnmoved start .advance) fun _ =>
      .pure (Turn.again (ns.push n)) rfl

/-! ## Types -/

theorem tupleLabel_follows : K.Follows tupleLabel tupleLabel := by
  have hlabel : K.Follows startsLabel startsLabel :=
    .and (.tokenIs _) <| .lookAhead <| .same .advance fun _ => .same (.accept _) fun _ => .isAt _
  exact .same (.advanceWhen hlabel) fun _ => .ite
    (.same (.accept _) fun optional => .same (.expect _) fun _ => .pure (some optional) rfl) (.pure none rfl)

theorem isOptionalElement_follows (label : Option Bool) :
    K.Follows (isOptionalElement label) (isOptionalElement label) := by
  cases label with
  | some optional => exact .pure optional rfl
  | none => exact .accept _

theorem wrappedIf_follows (c : Bool) (m : K.MarkPair) (sort : WrapperSort) (inner : K.NodePair) :
    K.Follows (wrappedIf c m.left sort inner.left) (wrappedIf c m.right sort inner.right) :=
  .ite (.node m (.wrappedType sort inner)) (.pure inner rfl)

theorem tupleElement_follows : K.Follows (@tupleElement R ctx) (@tupleElement R' ctx') :=
  .bind .mark fun m => .same (.accept _) fun rest => .same tupleLabel_follows fun label =>
    .bind (Meets.recur .type) fun inner => .same (isOptionalElement_follows label) fun optional =>
      .bind (wrappedIf_follows optional m .optional inner) fun inner =>
        wrappedIf_follows rest m .rest inner

theorem tupleType_follows : K.Follows (@tupleType R ctx) (@tupleType R' ctx') :=
  .bind .mark fun m => .bind (.between _ _ (commaItems_follows _ tupleElement_follows))
    fun elements => .node m (.tupleType elements)

theorem negativeNumber_follows : K.Follows negativeNumber negativeNumber :=
  .bind .mark fun m => .same .advance fun _ => .bind literal_follows fun number =>
    .node m (.prefixUnary .minusToken number)

theorem isKeywordType_follows (k : Kind) : K.Follows (isKeywordType k) (isKeywordType k) :=
  .ite (.same (.nextIs (.isAt _)) fun _ => .pure _ rfl) (.pure false rfl)

theorem missingType_follows : K.Follows missingType missingType :=
  .bind missingIdentifier_follows fun name => .missing (.typeReference name none)

theorem primaryType_follows : K.Follows (@primaryType R ctx) (@primaryType R' ctx') := by
  refine .bind .mark fun m => .same .token fun k => .same (isKeywordType_follows k) fun _ => .ite
    (.same .advance fun _ => .node m (.keywordType k)) ?_
  split
  · exact .same .advance fun _ => .node m .thisType
  · exact .same .advance fun _ => .bind entityName_follows fun name => .node m (.typeQuery name)
  · exact .bind keywordExpression_follows fun value => .node m (.literalType value)
  · exact .bind keywordExpression_follows fun value => .node m (.literalType value)
  · exact .bind literal_follows fun value => .node m (.literalType value)
  · exact .bind literal_follows fun value => .node m (.literalType value)
  · exact .bind literal_follows fun value => .node m (.literalType value)
  · exact .bind literal_follows fun value => .node m (.literalType value)
  · exact .bind typeMembers_follows fun members => .node m (.typeLiteral members)
  · exact tupleType_follows
  · exact .same .advance fun _ => .bind (Meets.recur .type) fun inner =>
      .same (.expect _) fun _ => .node m (.wrappedType .parenthesized inner)
  · refine .ite typeReference_follows ?_
    refine .same (.and (.isAt _) (.nextIs (.isAtAny _))) fun _ => .ite
      (.bind negativeNumber_follows fun value => .node m (.literalType value)) ?_
    exact .same (.reportHere _ _ _) fun _ => missingType_follows

theorem postfixType_follows : K.Follows (@postfixType R ctx) (@postfixType R' ctx') := by
  refine .bind .mark fun m => .bind primaryType_follows fun first => .loop first rfl fun left => ?_
  refine .same .afterLineBreak fun _ => .ite (.pure (Turn.done left) rfl) ?_
  refine .same (.accept _) fun _ => .ite ?_ (.pure (Turn.done left) rfl)
  refine .same (.accept _) fun _ => .ite
    (.bind (.node m (.arrayType left)) fun n => .pure (Turn.again n) rfl) ?_
  exact .bind (Meets.recur .type) fun index => .same (.expect _) fun _ =>
    .bind (.node m (.indexedAccessType left index)) fun n => .pure (Turn.again n) rfl

theorem inferredBound_follows : K.Follows (@inferredBound R ctx) (@inferredBound R' ctx') := by
  refine .attempt <| .same (.accept _) fun _ => .ite ?_ (.pure none rfl)
  refine .bind (Meets.recur .type) fun bound => .same (.isAt _) fun b => ?_
  rw [K.has_eq ctx ctx' .conditionalTypes rfl]
  exact .ite (.pure none rfl) (.pure (some bound) rfl)

theorem inferType_follows : K.Follows (@inferType R ctx) (@inferType R' ctx') := by
  refine .bind .mark fun m => .same .advance fun _ => .bind ?_ fun parameter =>
    .node m (.inferType parameter)
  exact .bind .mark fun m => .bind identifier_follows fun name => .bind inferredBound_follows
    fun bound => .node m (.typeParameter name bound none)

theorem typeOperator_follows : K.Follows (@typeOperator R ctx) (@typeOperator R' ctx') := by
  have hoperator (m : K.MarkPair) : K.Follows
      (do
        let operator ← token
        advance
        let operand ← R.recur (.typeOperator ctx)
        node m.left (.typeOperator operator operand))
      (do
        let operator ← token
        advance
        let operand ← R'.recur (.typeOperator ctx')
        node m.right (.typeOperator operator operand)) :=
    .same .token fun operator => .same .advance fun _ => .bind (Meets.recur .typeOperator)
      fun operand => .node m (.typeOperator operator operand)
  refine .bind .mark fun m => .same .token fun k => ?_
  split
  · exact inferType_follows
  · exact hoperator m
  · exact hoperator m
  · exact hoperator m
  · exact postfixType_follows

/-! ## Decisions by the number of diagnostics -/

omit [K.Meets R R'] [K.Contexts ctx ctx'] in
/-- Whether nothing has been reported since, where the runs report alike. -/
theorem reportedSince_follows {α : Type} [Coupled K α] {f g : Bool → Parse α} {n n' : Nat}
    (hexact : K.exact) (hn : K.count n n') (hf : ∀ b, K.Follows (f b) (g b)) :
    K.Follows (do f ((← reported) == n)) (do g ((← reported) == n')) := by
  refine .reported fun m m' hm => ?_
  have heq : (m' == n') = (m == n) := by
    have hlt := Lawful.count_lt hexact hm hn
    have hgt := Lawful.count_lt hexact hn hm
    rw [Bool.eq_iff_iff, beq_iff_eq, beq_iff_eq]
    omega
  rw [heq]
  exact hf _

/-- Type arguments are taken if a call follows and nothing has been reported. -/
theorem takenArguments_follows (hexact : K.exact) {n n' : Nat} (hn : K.count n n')
    (arguments : List K.NodePair) : K.Follows
      (do
        let follows ← isAtAny [.openParenToken, .noSubstitutionTemplateLiteral, .templateHead]
        return if follows && (← reported) == n then some (arguments.map NodePair.left) else none)
      (do
        let follows ← isAtAny [.openParenToken, .noSubstitutionTemplateLiteral, .templateHead]
        return if follows && (← reported) == n' then some (arguments.map NodePair.right) else none) := by
  refine .same (.isAtAny _) fun follows => ?_
  refine reportedSince_follows (f := fun b => pure (if follows && b then some _ else none))
    (g := fun b => pure (if follows && b then some _ else none)) hexact hn fun b => ?_
  exact .pure (if follows && b then some arguments else none) (by split <;> rfl)

theorem typeArgumentsOfCall_follows (hexact : K.exact) :
    K.Follows (@typeArgumentsOfCall R ctx) (@typeArgumentsOfCall R' ctx') :=
  .reported fun _ _ hn => .bind typeArguments_follows (takenArguments_follows hexact hn)

theorem callTypeArguments?_follows (hexact : K.exact) :
    K.Follows (@callTypeArguments? R ctx) (@callTypeArguments? R' ctx') :=
  .same (.isAt _) fun _ => .ite (.attempt (typeArgumentsOfCall_follows hexact)) (.pure none rfl)

omit [K.Meets R R'] [K.Contexts ctx ctx'] in
theorem skipModifiers_follows : K.Follows skipModifiers skipModifiers :=
  .loop (α := Unit) () rfl fun _ => .same .token fun _ => .ite
    (.same .advance fun _ => .pure (Turn.again ()) rfl) (.pure (Turn.done ()) rfl)

omit [K.Contexts ctx ctx'] in
theorem skipParameterStart_follows (hexact : K.exact) :
    K.Follows (@skipParameterStart R) (@skipParameterStart R') := by
  have hempty : K.Contexts ∅ ∅ := K.contexts_rfl ∅
  refine .same skipModifiers_follows fun _ => .same .token fun _ => .ite
    (.same .advance fun _ => .pure true rfl) (.ite ?_ (.pure false rfl))
  exact .reported fun n n' hn => .bind bindingName_follows fun _ =>
    reportedSince_follows hexact hn fun b => .pure b rfl

omit [K.Meets R R'] [K.Contexts ctx ctx'] in
theorem startsFunctionType_follows
    (hstart : K.Follows (@skipParameterStart R) (@skipParameterStart R')) :
    K.Follows (@startsFunctionType R) (@startsFunctionType R') := by
  refine .same .token fun k => ?_
  split
  · exact .pure true rfl
  · exact .pure true rfl
  · refine .lookAhead (.same .advance fun _ => .same (.isAtAny _) fun _ => .ite (.pure true rfl) ?_)
    refine .same hstart fun _ => .ite ?_ (.pure false rfl)
    exact .same (.isAtAny _) fun _ => .ite (.pure true rfl) <| .same (.accept _) fun _ => .ite
      (.isAt _) (.pure false rfl)
  · exact .pure false rfl

/-! ## Operators on types -/

theorem combinedType_follows (operator : Kind) (sort : CombinationSort) {p q : Parse Node}
    (h : K.Follows p q) :
    K.Follows (combinedType operator sort p) (combinedType operator sort q) :=
  .bind .mark fun m => .same (.accept _) fun _ => .bind h fun first => .same (.isAt _) fun _ =>
    .ite (.bind (more_follows _ h) fun others => .node m (.combinedType sort (first :: others)))
      (.pure first rfl)

end Meets

/-! ## Types with function types in them -/

section Recurs
variable [K.Recurs R R']

theorem intersectionMember_follows :
    K.Follows (@intersectionMember R ctx) (@intersectionMember R' ctx') :=
  .same Recurs.functionType fun _ => .ite functionType_follows (Meets.recur .typeOperator)

theorem unionType_follows : K.Follows (@unionType R ctx) (@unionType R' ctx') :=
  combinedType_follows _ _ (combinedType_follows _ _ intersectionMember_follows)

theorem type_follows : K.Follows (@type R ctx) (@type R' ctx') := by
  refine .same Recurs.functionType fun _ => .ite functionType_follows ?_
  refine .bind .mark fun m => .bind unionType_follows fun check => .same .afterLineBreak fun b => ?_
  rw [K.has_eq ctx ctx' .conditionalTypes rfl]
  refine .ite (.pure check rfl) <| .same (.accept _) fun _ => .ite ?_ (.pure check rfl)
  exact .bind (Meets.recur .type) fun bound => .same (.expect _) fun _ =>
    .bind (Meets.recur .type) fun whenTrue => .same (.expect _) fun _ =>
      .bind (Meets.recur .type) fun whenFalse =>
        .node m (.conditionalType check bound whenTrue whenFalse)

end Recurs
end EcmaSyntax.Grammar
