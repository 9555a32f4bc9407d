import EcmaSyntax.Proofs.Coupling.Type

/-! # Functions and classes side by side

Functions, methods, members of object literals and of classes. A context decides about early errors
of functions, but nothing of that is read here. -/
namespace EcmaSyntax.Grammar
open Parse Coupling
variable {K : Coupling} [K.Lawful] {R R' : Recursion} [K.Recurs R R'] {ctx ctx' : Context}
  [K.Contexts ctx ctx']

/-! ## Bodies -/

theorem missingBody_follows (required : Bool) :
    K.Follows (missingBody required) (missingBody required) :=
  .ite (.reportExpected _) .expectSemicolon

theorem functionBody_follows (required : Bool) :
    K.Follows (@functionBody R ctx required) (@functionBody R' ctx' required) :=
  .same (.isAt _) fun _ => .ite (.bind functionBlock_follows fun body => .pure (some body) rfl) <|
    .same (missingBody_follows required) fun _ => .pure none rfl

theorem functionRest_follows (m : K.MarkPair) (placement : Placement) (name : Option K.NodePair)
    (isAsync isGenerator : Bool) :
    K.Follows
      (@functionRest R ctx ⟨m.left, placement, name.map NodePair.left, isAsync, isGenerator⟩)
      (@functionRest R' ctx' ⟨m.right, placement, name.map NodePair.right, isAsync, isGenerator⟩) :=
  .bind typeParameters?_follows fun typeParameters => .bind formalParameters_follows
    fun parameters => .bind returnType_follows fun result =>
      .bind (functionBody_follows _) fun body =>
        .node m (.function placement name isAsync isGenerator typeParameters parameters result body)

theorem declaredName_follows (m : K.MarkPair) :
    K.Follows (declaredName ctx m.left) (declaredName ctx' m.right) := by
  refine .same isIdentifier_follows fun _ => ?_
  rw [m.modifiers_eq]
  exact .ite (.pure none rfl) (.some identifier_follows)

theorem functionDeclaration_follows (m : K.MarkPair) :
    K.Follows (@functionDeclaration R ctx m.left) (@functionDeclaration R' ctx' m.right) :=
  .same (.accept _) fun isAsync => .same (.expect _) fun _ => .same (.accept _) fun isGenerator =>
    .bind (declaredName_follows m) fun name =>
      functionRest_follows m .declaration name isAsync isGenerator

theorem functionExpression_follows :
    K.Follows (@functionExpression R ctx) (@functionExpression R' ctx') :=
  .bind .mark fun m => .same (.accept _) fun isAsync => .same (.expect _) fun _ =>
    .same (.accept _) fun isGenerator => .bind identifier?_follows fun name =>
      functionRest_follows m .expression name isAsync isGenerator

theorem isBeforeFunction_follows : K.Follows isBeforeFunction isBeforeFunction :=
  .nextIs (.onSameLine _)

/-! ## Methods -/

theorem methodRest_follows (m : K.MarkPair) (sort : MethodSort) (decorators : List K.NodePair)
    (name : K.NodePair) (optional isAsync isGenerator bodyRequired : Bool) :
    K.Follows
      (@methodRest R ctx ⟨m.left, sort, decorators.map NodePair.left, name.left, optional, isAsync,
        isGenerator⟩ bodyRequired)
      (@methodRest R' ctx' ⟨m.right, sort, decorators.map NodePair.right, name.right, optional,
        isAsync, isGenerator⟩ bodyRequired) :=
  .bind typeParameters?_follows fun typeParameters => .bind formalParameters_follows
    fun parameters => .bind returnType_follows fun result =>
      .bind (functionBody_follows bodyRequired) fun body =>
        .node m (.method sort decorators name optional isAsync isGenerator typeParameters parameters
          result body)

theorem accessorSort?_follows :
    @Follows (Option MethodSort) K (.plain K _) accessorSort? accessorSort? := by
  refine .same .token fun k => ?_
  split
  · exact .pure none rfl
  · exact .same (.nextIs isBeforePropertyName_follows) fun _ => .ite
      (.same .advance fun _ => .pure _ rfl) (.pure none rfl)

theorem acceptAsyncMethod_follows : K.Follows acceptAsyncMethod acceptAsyncMethod :=
  .advanceWhen (.and (.isAt _) (.nextIs (.onSameLine _)))

theorem shorthandRest_follows (m : K.MarkPair) (name : K.NodePair) :
    K.Follows (@shorthandRest R m.left ctx name.left) (@shorthandRest R' m.right ctx' name.right) :=
  .bind initializer_follows fun value => .node m (.shorthandProperty name value)

theorem objectElement_follows : K.Follows (@objectElement R ctx) (@objectElement R' ctx') := by
  refine .bind .mark fun m => .same (.isAt _) fun _ => .ite spread_follows ?_
  refine .same acceptAsyncMethod_follows fun isAsync => .same (.accept _) fun isGenerator =>
    .same accessorSort?_follows fun accessor => .same isIdentifier_follows fun b =>
      .bind propertyName_follows fun name => .same atSignature_follows fun _ => .ite
        (methodRest_follows m _ [] name false isAsync isGenerator true) ?_
  refine .same (.isAt _) fun _ => .ite (shorthandRest_follows m name) ?_
  exact .same (.expect _) fun _ => .bind (Meets.recur .assignment) fun value =>
    .node m (.propertyAssignment name value)

/-! ## Arrow functions -/

/-- A single name as the parameters of both arrow functions. -/
def simplePair (n : K.NodePair) : K.NodePair :=
  .ofForm (n.matched.header.marked (hasErrors_eq n)) (.arrowParameters none [n] none false)

theorem arrowBody_follows (isAsync : Bool) :
    K.Follows (@arrowBody R ctx isAsync) (@arrowBody R' ctx' isAsync) :=
  .same (.isAt _) fun _ => .ite functionBlock_follows (Meets.recur .assignment)

theorem expectArrow_follows : K.Follows expectArrow expectArrow :=
  .same (.isAt _) fun _ => .same .afterLineBreak fun _ => .same (.reportWhen _ _ _) fun _ =>
    .same (.expect _) fun _ => .pure () rfl

theorem arrowFunction_follows (m : K.MarkPair) (isAsync : Bool) (parameters : K.NodePair) :
    K.Follows (@arrowFunction R ctx m.left isAsync parameters.left)
      (@arrowFunction R' ctx' m.right isAsync parameters.right) :=
  .same expectArrow_follows fun _ => .bind (arrowBody_follows isAsync) fun body =>
    .node m (.arrowFunction isAsync parameters body)

theorem startsAsyncArrow_follows : K.Follows (startsAsyncArrow ctx) (startsAsyncArrow ctx') :=
  .and (.isAt _) <| .lookAhead <| .same .advance fun _ => .same .afterLineBreak fun _ =>
    .ite (.pure false rfl) <| .same isIdentifier_follows fun _ => .ite
      (.same .advance fun _ => .isAt _) (.pure false rfl)

/-! ## Classes -/

theorem isBeforeMember_follows (modifier : Kind) :
    K.Follows (isBeforeMember modifier) (isBeforeMember modifier) :=
  .ite (.tokenIs _) (.onSameLine _)

theorem staticBlock_follows (m : K.MarkPair) :
    K.Follows (@staticBlock R m.left ctx) (@staticBlock R' m.right ctx') :=
  .same .advance fun _ => .bind block_follows fun body => .node m (.staticBlock body)

theorem definiteMark_follows (optional : Bool) :
    K.Follows (definiteMark optional) (definiteMark optional) :=
  .ite (.pure false rfl) (.accept _)

theorem propertyRest_follows (m : K.MarkPair) (decorators : List K.NodePair) (name : K.NodePair)
    (optional : Bool) :
    K.Follows (@propertyRest R m.left ctx (decorators.map NodePair.left) name.left optional)
      (@propertyRest R' m.right ctx' (decorators.map NodePair.right) name.right optional) :=
  .same (definiteMark_follows optional) fun definite => .bind typeAscription_follows
    fun ascription => .bind initializer_follows fun value => .same .expectSemicolon fun _ =>
      .node m (.propertyDefinition decorators name optional definite ascription value)

theorem classElement_follows : K.Follows (@classElement R ctx) (@classElement R' ctx') := by
  refine .bind .mark fun m => .bind decorators_follows fun decorators => ?_
  refine .same (.and (.isAt _) (.nextIs (.isAt _))) fun _ => .ite
    (.bind (staticBlock_follows m) fun n => .pure (some n) rfl) ?_
  refine .same (modifiers_follows _ isBeforeMember_follows) fun modifiers => ?_
  let marked := m.withModifiers modifiers
  refine .same (.and (.isAt _) opensIndexSignature_follows) fun _ => .ite
    (.bind (indexSignature_follows marked) fun n => .same .expectSemicolon fun _ =>
      .pure (some n) rfl) ?_
  refine .same acceptAsyncMethod_follows fun isAsync => .same (.accept _) fun isGenerator =>
    .same accessorSort?_follows fun accessor => .same .token fun k => ?_
  have hempty : (Coupled.right (K := K) (α := List Node) decorators).isEmpty =
      (Coupled.left (K := K) (α := List Node) decorators).isEmpty := by
    cases decorators <;> rfl
  rw [hempty]
  refine .ite (.pure none rfl) <| .bind propertyName_follows fun name => .same (.accept _) fun optional =>
    .same atSignature_follows fun _ => .ite ?_
      (.bind (propertyRest_follows marked decorators name optional) fun n => .pure (some n) rfl)
  have hname : isConstructorName (Coupled.right (K := K) (α := Node) name) =
      isConstructorName (Coupled.left (K := K) (α := Node) name) :=
    NodePair.matched name |>.isConstructorName_eq
  rw [hname]
  exact .bind (methodRest_follows marked _ decorators name optional isAsync isGenerator false)
    fun n => .pure (some n) rfl

theorem classMembers_follows : K.Follows (@classMembers R ctx) (@classMembers R' ctx') := by
  refine .within _ _ [] rfl (.collect fun ns => .same (.isAtAny _) fun _ => .ite (.pure (Turn.done ns) rfl) ?_)
  refine .same (.isAt _) fun _ => .ite ?_ (.tokenStart fun start => ?_)
  · exact .bind .mark fun m => .same .advance fun _ => .bind (.node m .semicolonElement) fun n =>
      .pure (Turn.again (ns.push n)) rfl
  refine .bind (Meets.recur .classElement) fun member => ?_
  rcases member with _ | _ | n
  · exact .pure (Turn.done ns) rfl
  · exact .same (.reportHere _ _ _) fun _ => .same .advance fun _ =>
      .same (.ifUnmoved start (.skip _)) fun _ => .pure (Turn.again ns) rfl
  · exact .same (.ifUnmoved start (.skip _)) fun _ => .pure (Turn.again (ns.push n)) rfl

theorem className_follows (m : K.MarkPair) (placement : Placement) :
    K.Follows (className ctx m.left placement) (className ctx' m.right placement) := by
  refine .same (.isAt _) fun _ => .same isIdentifier_follows fun _ => .ite
    (.bind identifier_follows fun name => .pure (some name) rfl) ?_
  rw [m.modifiers_eq]
  exact .same (.reportWhen _ _ _) fun _ => .pure none rfl

theorem baseClass_follows : K.Follows (@baseClass R ctx) (@baseClass R' ctx') :=
  .bind (Meets.recur .leftHandSide) fun base => .bind (.whenAt _ typeArguments_follows) fun _ =>
    .pure base rfl

theorem classLike_follows (placement : Placement) (m : K.MarkPair) :
    K.Follows (@classLike R placement ctx m.left) (@classLike R' placement ctx' m.right) :=
  .bind decorators_follows fun decorators => .same (.expect _) fun _ =>
    .bind (className_follows m placement) fun name => .bind typeParameters?_follows
      fun typeParameters => .bind (.behind _ baseClass_follows) fun base =>
        .bind (typeReferencesBehind_follows _) fun interfaces => .bind classMembers_follows
          fun members =>
            .node m (.classLike placement decorators name typeParameters base interfaces members)

end EcmaSyntax.Grammar
