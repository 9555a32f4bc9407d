import EcmaSyntax.Proofs.Coupling.Cover

/-! # Expressions side by side

Primary expressions, what follows them, operators and assignments, and the elements of parenthesized
lists. -/
namespace EcmaSyntax.Grammar
open Parse Coupling
variable {K : Coupling} [K.Lawful] {R R' : Recursion} [K.Recurs R R'] {ctx ctx' : Context}
  [K.Contexts ctx ctx'] {s s' : ParseState}

/-! ## Arguments -/

theorem argument_follows : K.Follows (@argument R ctx) (@argument R' ctx') :=
  .same .token fun _ => .ite (.bind spread_follows fun n => .pure (some n) rfl) <|
    .ite (.bind (Meets.recur .assignment) fun n => .pure (some n) rfl) <|
      .same (.reportHere _ _ _) fun _ => .pure none rfl

theorem argumentList_follows : K.Follows (@argumentList R ctx) (@argumentList R' ctx') := by
  refine .bind .mark fun m =>
    .bind (.between _ _ (commaList_follows _ fun _ => argument_follows)) fun l => ?_
  obtain ⟨qs, hleft, hright⟩ := ListedPair.exists_list l
  rw [ListedPair.hasTrailingComma_left, ListedPair.hasTrailingComma_right, ← hleft, ← hright]
  exact .node m (.argumentList qs _)

theorem accessArgument_follows : K.Follows (@accessArgument R ctx) (@accessArgument R' ctx') :=
  .between _ _ <| .same (.isAt _) fun _ => .ite
    (.same (.reportHere _ _ _) fun _ => missingIdentifier_follows) expression_follows

/-! ## Primary expressions -/

theorem importHead_follows : K.Follows importHead importHead :=
  .bind .mark fun m => .bind identifierToken_follows fun word => .same (.accept _) fun _ => .ite
    (.bind name_follows fun n => .node m (.metaProperty .importKeyword n)) <|
    .same (.same (.isAt _) fun _ => .ite (.pure () rfl) (.reportExpected _)) fun _ => .pure word rfl

theorem identifierExpression_follows :
    K.Follows (identifierExpression ctx) (identifierExpression ctx') :=
  .same isIdentifier_follows fun _ => .ite identifierToken_follows <| .same .token fun _ =>
    .ite identifier_follows <| .same (.reportHere _ _ _) fun _ => missingIdentifier_follows

theorem asyncExpression_follows : K.Follows (@asyncExpression R ctx) (@asyncExpression R' ctx') :=
  .same isBeforeFunction_follows fun _ => .ite functionExpression_follows <|
    .same (.nextIs (.onSameLine _)) fun _ => .ite asyncCallOrArrow_follows
      identifierExpression_follows

theorem primary_follows : K.Follows (@primary R ctx) (@primary R' ctx') := by
  intro s s' hs
  refine .look fun hcalm => ?_
  rw [(Lawful.aligned hs).token_eq]
  generalize hk : s.token = k
  have hslash : K.Follows (do reread .slash; literal) (do reread .slash; literal) :=
    .same (.reread _) fun _ => literal_follows
  have hclass : K.Follows (do @classLike R .expression ctx (← mark))
      (do @classLike R' .expression ctx' (← mark)) := .bind .mark fun m => classLike_follows _ m
  split
  · exact keywordExpression_follows s s' hs
  · exact keywordExpression_follows s s' hs
  · exact keywordExpression_follows s s' hs
  · exact keywordExpression_follows s s' hs
  · exact keywordExpression_follows s s' hs
  · exact literal_follows s s' hs
  · exact literal_follows s s' hs
  · exact literal_follows s s' hs
  · exact literal_follows s s' hs
  · exact hslash s s' hs
  · exact hslash s s' hs
  · exact template_follows s s' hs
  · exact template_follows s s' hs
  · exact parenthesized_followsAt hs hk
  · exact arrayLiteral_follows s s' hs
  · exact objectLiteral_follows s s' hs
  · exact functionExpression_follows s s' hs
  · exact asyncExpression_follows s s' hs
  · exact hclass s s' hs
  · exact hclass s s' hs
  · exact Meets.recur .newExpression s s' hs
  · exact importHead_follows s s' hs
  · rw [jsx_eq ctx ctx' hcalm hk]
    exact .ite (Meets.recur (.element true) s s' hs) (identifierExpression_follows s s' hs)
  · exact (Follows.same checkPrivate_follows fun _ => identifierToken_follows) s s' hs
  · exact identifierExpression_follows s s' hs

/-! ## What follows a primary expression -/

omit [K.Lawful] in
theorem takesSuffixes_eq (n : K.NodePair) : takesSuffixes n.right = takesSuffixes n.left := by
  rw [takesSuffixes, n.matched.isArrowParameters_eq, n.matched.isArrowFunction_eq, takesSuffixes]

theorem chainLink_follows (m : K.MarkPair) (base : K.NodePair) :
    K.Follows (@chainLink R ctx m.left base.left) (@chainLink R' ctx' m.right base.right) := by
  let m := m.withFlags NodeFlag.optionalChain
  have hcall : K.Follows
      (do
        let typeArguments ← @callTypeArguments? R ctx
        let arguments ← @argumentList R ctx
        node m.left (.call base.left true typeArguments arguments))
      (do
        let typeArguments ← @callTypeArguments? R' ctx'
        let arguments ← @argumentList R' ctx'
        node m.right (.call base.right true typeArguments arguments)) :=
    .bind Recurs.typeArguments fun typeArguments => .bind argumentList_follows fun arguments =>
      .node m (.call base true typeArguments arguments)
  refine .same .token fun k => ?_
  split
  · exact hcall
  · exact hcall
  · exact .bind accessArgument_follows fun argument => .node m (.elementAccess base true argument)
  · exact .bind memberName_follows fun member => .node m (.propertyAccess base true member)

theorem genericCall_follows (m : K.MarkPair) (base : K.NodePair) (typeArguments : List K.NodePair) :
    K.Follows (@genericCall R ctx m.left base.left (typeArguments.map NodePair.left))
      (@genericCall R' ctx' m.right base.right (typeArguments.map NodePair.right)) :=
  .same (.isAt _) fun _ => .ite
    (.bind argumentList_follows fun arguments =>
      .node m (.call base false (some typeArguments) arguments))
    (.bind template_follows fun quasi => .node m (.taggedTemplate base (some typeArguments) quasi))

theorem suffix_follows (m : K.MarkPair) (calls : Bool) (base : K.NodePair) :
    K.Follows (@suffix R ctx m.left calls base.left) (@suffix R' ctx' m.right calls base.right) := by
  have htemplate : K.Follows
      (do
        let quasi ← @template R ctx.argument
        return Turn.again (← node m.left (.taggedTemplate base.left none quasi)))
      (do
        let quasi ← @template R' ctx'.argument
        return Turn.again (← node m.right (.taggedTemplate base.right none quasi))) :=
    .bind template_follows fun quasi => .bind (.node m (.taggedTemplate base none quasi)) fun n =>
      .pure (Turn.again n) rfl
  refine .same .token fun k => ?_
  rw [K.has_eq ctx ctx' .decorator rfl]
  split
  · exact .same .advance fun _ => .bind memberName_follows fun member =>
      .bind (.node m (.propertyAccess base false member)) fun n => .pure (Turn.again n) rfl
  · exact .ite (.same .advance fun _ => .bind (chainLink_follows m base) fun n =>
      .pure (Turn.again n) rfl) (.pure (Turn.done base) rfl)
  · exact .ite (.pure (Turn.done base) rfl) <| .bind accessArgument_follows fun argument =>
      .bind (.node m (.elementAccess base false argument)) fun n => .pure (Turn.again n) rfl
  · exact .same .afterLineBreak fun _ => .ite (.pure (Turn.done base) rfl) <| .same .advance fun _ =>
      .bind (.node m (.nonNull base)) fun n => .pure (Turn.again n) rfl
  · exact htemplate
  · exact htemplate
  · exact .ite (.bind argumentList_follows fun arguments =>
      .bind (.node m (.call base false none arguments)) fun n => .pure (Turn.again n) rfl)
      (.pure (Turn.done base) rfl)
  · refine .ite (.bind Recurs.typeArguments fun typeArguments => ?_) (.pure (Turn.done base) rfl)
    cases typeArguments with
    | none => exact .pure (Turn.done base) rfl
    | some typeArguments =>
      exact .bind (genericCall_follows m base typeArguments) fun n => .pure (Turn.again n) rfl
  · exact .pure (Turn.done base) rfl

theorem suffixes_follows (m : K.MarkPair) (calls : Bool) (base : K.NodePair) :
    K.Follows (@suffixes R ctx m.left calls base.left)
      (@suffixes R' ctx' m.right calls base.right) := by
  unfold suffixes
  rw [takesSuffixes_eq base]
  exact .ite (.loop base rfl (suffix_follows m calls)) (.pure base rfl)

theorem memberBase_follows : K.Follows (@memberBase R ctx) (@memberBase R' ctx') :=
  .same (.isAt _) fun _ => .ite (Meets.recur .newExpression) primary_follows

theorem leftHandSide_follows : K.Follows (@leftHandSide R ctx) (@leftHandSide R' ctx') :=
  .bind .mark fun m => .bind memberBase_follows fun base => suffixes_follows m true base

theorem newExpression_follows : K.Follows (@newExpression R ctx) (@newExpression R' ctx') :=
  .bind .mark fun m => .same (.expect _) fun _ => .same (.accept _) fun _ => .ite
    (.bind name_follows fun n => .node m (.metaProperty .newKeyword n)) <|
    .bind .mark fun inner => .bind memberBase_follows fun base =>
      .bind (suffixes_follows inner false base) fun callee =>
        .bind Recurs.typeArguments fun typeArguments =>
          .bind (.whenAt _ argumentList_follows) fun arguments =>
            .node m (.new callee typeArguments arguments)

/-! ## Operators -/

theorem assertedType_follows (sort : AssertionSort) :
    K.Follows (@assertedType R ctx sort) (@assertedType R' ctx' sort) := by
  have hconst : K.Follows constType constType :=
    .bind .mark fun m => .bind identifierToken_follows fun word =>
      .node m (.typeReference word none)
  exact .same (.isAt _) fun _ => .ite hconst (Meets.recur .type)

theorem operation_follows (precedence : Precedence) (m : K.MarkPair) (left : K.NodePair) :
    K.Follows (@operation R ctx precedence m.left left.left)
      (@operation R' ctx' precedence m.right left.right) := by
  refine .same (.reread _) fun _ => .same .token fun operator => .ite ?_ (.pure (Turn.done left) rfl)
  rw [K.has_eq ctx ctx' .withoutIn rfl]
  refine .ite (.pure (Turn.done left) rfl) ?_
  split
  · exact .same .afterLineBreak fun _ => .ite (.pure (Turn.done left) rfl) <| .same .advance fun _ =>
      .bind (assertedType_follows _) fun type =>
        .bind (.node m (.typeAssertion _ left type)) fun n => .pure (Turn.again n) rfl
  · exact .same .advance fun _ => .bind (Meets.recur (.operand _)) fun right =>
      .bind (.node m (.binary left operator right)) fun n => .pure (Turn.again n) rfl

theorem operand_follows (precedence : Precedence) :
    K.Follows (@operand R ctx precedence) (@operand R' ctx' precedence) :=
  .bind .mark fun m => .bind (Meets.recur .unary) fun first =>
    .loop first rfl (operation_follows precedence m)

theorem unary_follows : K.Follows (@unary R ctx) (@unary R' ctx') := by
  refine .bind .mark fun m => .same .token fun operator => .ite ?_ ?_
  · exact .same .advance fun _ => .bind (Meets.recur .unary) fun inner =>
      .node m (.prefixUnary operator inner)
  rw [K.has_eq ctx ctx' .awaitOperator rfl]
  refine .ite ?_ (.bind leftHandSide_follows fun inner => .same .token fun operator => ?_)
  · exact .same .advance fun _ => .bind (Meets.recur .unary) fun inner => .node m (.await inner)
  · exact .same .afterLineBreak fun _ => .ite
      (.same .advance fun _ => .node m (.postfixUnary inner operator)) (.pure inner rfl)

/-! ## Conditionals and assignments -/

theorem falseBranch_follows : K.Follows (@falseBranch R ctx) (@falseBranch R' ctx') :=
  .same (.expect _) fun _ => .ite (Meets.recur .assignment) missingIdentifier_follows

theorem conditionalRest_follows (m : K.MarkPair) (condition : K.NodePair) :
    K.Follows (@conditionalRest R ctx m.left condition.left)
      (@conditionalRest R' ctx' m.right condition.right) :=
  .same .advance fun _ => .bind (Meets.recur .assignment) fun whenTrue =>
    .bind falseBranch_follows fun whenFalse => .node m (.conditional condition whenTrue whenFalse)

theorem assignmentRest_follows (m : K.MarkPair) (left : K.NodePair) :
    K.Follows (@assignmentRest R ctx m.left left.left)
      (@assignmentRest R' ctx' m.right left.right) := by
  refine .same .token fun operator => ?_
  rw [left.matched.isIdentifier_eq, left.matched.isArrowParameters_eq,
    left.matched.isLeftHandSide_eq]
  refine .ite (arrowFunction_follows m false (simplePair left)) ?_
  refine .ite (arrowFunction_follows m false left) (.ite ?_ ?_)
  · exact .same .advance fun _ => .bind (Meets.recur .assignment) fun right =>
      .node m (.assignment left operator right)
  · exact .ite (conditionalRest_follows m left) (.pure left rfl)

theorem yieldExpression_follows : K.Follows (@yieldExpression R ctx) (@yieldExpression R' ctx') :=
  .bind .mark fun m => .same .advance fun _ => .same .token fun _ => .same .afterLineBreak fun _ =>
    .ite (.same (.accept _) fun delegate => .bind (Meets.recur .assignment) fun inner =>
      .node m (.yield delegate (some inner))) (.node m (.yield false none))

theorem genericArrow?_follows : K.Follows (@genericArrow? R ctx) (@genericArrow? R' ctx') := by
  have hstarts : K.Follows (isAt .lessThanToken <&&> mayOpenTypeParameters ctx)
      (isAt .lessThanToken <&&> mayOpenTypeParameters ctx') := by
    intro s s' hs
    refine .look fun hcalm => ?_
    rw [(Lawful.aligned hs).token_eq]
    cases h : s.token == .lessThanToken with
    | false => exact .pure hs false rfl
    | true => exact mayOpenTypeParameters_followsAt hcalm (eq_of_beq h) hs
  exact .same hstarts fun _ => .ite (.attempt genericParameters_follows) (.pure none rfl)

theorem asyncArrow_follows (m : K.MarkPair) :
    K.Follows (@asyncArrow R ctx m.left) (@asyncArrow R' ctx' m.right) :=
  .same .advance fun _ => .bind identifier_follows fun parameter =>
    arrowFunction_follows m true (simplePair parameter)

theorem assignment_follows : K.Follows (@assignment R ctx) (@assignment R' ctx') := by
  refine .same (.isAt _) fun _ => ?_
  rw [K.has_eq ctx ctx' .yieldOperator rfl]
  refine .ite yieldExpression_follows <| .bind .mark fun m => .bind genericArrow?_follows
    fun parameters => ?_
  cases parameters with
  | some parameters => exact arrowFunction_follows m false parameters
  | none =>
    exact .same startsAsyncArrow_follows fun _ => .ite (asyncArrow_follows m) <|
      .bind (operand_follows .comma) fun left => assignmentRest_follows m left

/-! ## Elements of parenthesized lists -/

/-- Corresponding starts of elements. -/
structure StartPair (K : Coupling) where
  m : K.MarkPair
  operand : Option K.MarkPair

namespace StartPair

def left (start : StartPair K) : ElementStart := ⟨start.m.left, start.operand.map MarkPair.left⟩
def right (start : StartPair K) : ElementStart := ⟨start.m.right, start.operand.map MarkPair.right⟩
def inner (start : StartPair K) : K.MarkPair := start.operand.getD start.m

omit [K.Lawful]

theorem isRest_left (start : StartPair K) : start.left.isRest = start.operand.isSome :=
  Option.isSome_map

theorem isRest_right (start : StartPair K) : start.right.isRest = start.operand.isSome :=
  Option.isSome_map

theorem inner_left (start : StartPair K) : start.left.inner = start.inner.left := by
  obtain ⟨m, _ | operand⟩ := start <;> rfl

theorem inner_right (start : StartPair K) : start.right.inner = start.inner.right := by
  obtain ⟨m, _ | operand⟩ := start <;> rfl

end StartPair

section Elements
variable (start : StartPair K)

theorem argumentOf_follows (value : K.NodePair) :
    K.Follows (argumentOf start.left value.left) (argumentOf start.right value.right) := by
  unfold argumentOf
  rw [start.isRest_left, start.isRest_right]
  exact .ite (.node start.m (.spread value)) (.pure value rfl)

theorem coverConditional_follows (m : K.MarkPair) (condition : K.NodePair) :
    K.Follows (@coverConditional R ctx m.left condition.left)
      (@coverConditional R' ctx' m.right condition.right) :=
  .same (.expect _) fun _ => .bind (Meets.recur .assignment) fun whenTrue =>
    .same (.accept _) fun _ => .ite
      (.bind (Meets.recur .assignment) fun whenFalse =>
        .bind (.node m (.conditional condition whenTrue whenFalse)) fun n => .pure (some n) rfl)
      (.pure none rfl)

theorem parameterElement_follows (binding : K.NodePair) (optional : Bool) :
    K.Follows (@parameterElement R ctx start.left binding.left optional)
      (@parameterElement R' ctx' start.right binding.right optional) := by
  unfold parameterElement
  rw [start.isRest_left, start.isRest_right]
  exact .bind (parameterTail_follows start.m binding [] _ optional) fun n =>
    .pure (n, Certainty.yes) rfl

theorem coverConditional?_follows (condition : K.NodePair) :
    K.Follows (@coverConditional? R ctx start.left condition.left)
      (@coverConditional? R' ctx' start.right condition.right) := by
  have hnext : K.Follows nextToken nextToken := .lookAhead (.same .advance fun _ => .token)
  unfold coverConditional?
  rw [start.inner_left, start.inner_right]
  exact .same hnext fun _ => .ite (.attempt (coverConditional_follows _ condition)) (.pure none rfl)

theorem questionedElement_follows (binding : K.NodePair) :
    K.Follows (@questionedElement R ctx start.left binding.left)
      (@questionedElement R' ctx' start.right binding.right) := by
  refine .bind (coverConditional?_follows start binding) fun value => ?_
  cases value with
  | some value => exact .bind (argumentOf_follows start value) fun n => .pure (n, Certainty.no) rfl
  | none => exact .same .advance fun _ => parameterElement_follows start binding true

theorem closesParameters_follows (k : Kind) :
    K.Follows (closesParameters start.left k) (closesParameters start.right k) := by
  unfold closesParameters
  rw [start.isRest_left, start.isRest_right]
  exact .and (.tokenIs _) (.nextIs (.isAt _))

theorem bindingElement_follows (binding : K.NodePair) :
    K.Follows (@bindingElement R ctx start.left binding.left)
      (@bindingElement R' ctx' start.right binding.right) := by
  refine .same .token fun k => ?_
  rw [start.isRest_left, start.isRest_right, start.inner_left, start.inner_right]
  split
  · exact questionedElement_follows start binding
  · exact parameterElement_follows start binding false
  · exact parameterElement_follows start binding false
  · exact .bind (assignmentRest_follows start.m binding) fun n => .pure (n, Certainty.unknown) rfl
  · exact .bind (assignmentRest_follows start.m binding) fun n => .pure (n, Certainty.no) rfl
  · refine .ite (.bind (assignmentRest_follows start.inner binding) fun value =>
      .bind (argumentOf_follows start value) fun n => .pure (n, Certainty.no) rfl) ?_
    refine .same (closesParameters_follows start _) fun _ => .ite ?_ ?_
    · exact .bind (.node start.m (.formalParameter [] true binding false none none)) fun n =>
        .pure (n, Certainty.yes) rfl
    · exact .bind (argumentOf_follows start binding) fun n => .pure (n, Certainty.unknown) rfl

theorem plainElement_follows :
    K.Follows (@plainElement R ctx start.left) (@plainElement R' ctx' start.right) := by
  refine .bind (operand_follows .comma) fun left => ?_
  rw [start.inner_left, start.inner_right]
  change K.Follows (if left.left.isIdentifierOrPattern then _ else _)
    (if left.right.isIdentifierOrPattern then _ else _)
  rw [left.matched.isIdentifierOrPattern_eq]
  refine .ite (bindingElement_follows start left) ?_
  exact .bind (assignmentRest_follows start.inner left) fun value =>
    .bind (argumentOf_follows start value) fun n => .pure (n, Certainty.no) rfl

end Elements

theorem modifiedParameter_follows (m : K.MarkPair) :
    K.Follows (@modifiedParameter R ctx m.left) (@modifiedParameter R' ctx' m.right) :=
  .same parameterModifiers_follows fun modifiers => .bind bindingName_follows fun binding =>
    .same (.accept _) fun optional =>
      parameterElement_follows ⟨m.withModifiers modifiers, none⟩ binding optional

theorem startsArgument_follows : K.Follows (startsArgument ctx) (startsArgument ctx') := by
  intro s s' hs
  refine .look fun hcalm => ?_
  rw [(Lawful.aligned hs).token_eq, K.has_eq ctx ctx' .yieldOperator rfl]
  generalize hk : s.token = k
  split
  · exact .pure hs _ rfl
  · rw [jsx_eq ctx ctx' hcalm hk]
    exact .pure hs _ rfl
  · exact startsAsyncArrow_follows s s' hs

theorem coverElement_follows : K.Follows (@coverElement R ctx) (@coverElement R' ctx') := by
  refine .bind .mark fun m => .same .token fun k => .ite ?_ ?_
  · exact .same (.reportHere _ _ _) fun _ => .bind (.missing .omitted) fun n =>
      .pure (n, Certainty.no) rfl
  refine .same (.and (.tokenIs _) (.nextIs (.onSameLine _))) fun _ => .ite
    (modifiedParameter_follows m) (.ite ?_ ?_)
  · exact .same .advance fun _ => .bind .mark fun inner => plainElement_follows ⟨m, some inner⟩
  · exact .same startsArgument_follows fun _ => .ite
      (.bind (Meets.recur .assignment) fun n => .pure (n, Certainty.no) rfl)
      (plainElement_follows ⟨m, none⟩)

end EcmaSyntax.Grammar
