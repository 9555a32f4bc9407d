import EcmaSyntax.Grammar.Source
import EcmaSyntax.Proofs.Coupling.Routine

/-! # Lists and literals side by side

Two grammars are coupled if their rules follow each other in corresponding contexts. Besides, the
routines that decide by the number of diagnostics have to follow each other. Names, literals and
lists meet rules only. -/
namespace EcmaSyntax
open Parse Grammar

/-! ## Rules -/

namespace Coupling

/-- Corresponding rules are the same in corresponding contexts. -/
inductive Rules (K : Coupling) : {α : Type} → [Coupled K α] → Rule α → Rule α → Prop
  | item {ctx ctx' : Context} [K.Contexts ctx ctx'] (inModule : Bool) :
      Rules K (.item inModule ctx) (.item inModule ctx')
  | statement {ctx ctx' : Context} [K.Contexts ctx ctx'] (site : StatementSite) :
      Rules K (.statement ctx site) (.statement ctx' site)
  | declaration {ctx ctx' : Context} [K.Contexts ctx ctx'] (m : K.MarkPair) :
      Rules K (.declaration ctx m.left) (.declaration ctx' m.right)
  | coverElement {ctx ctx' : Context} [K.Contexts ctx ctx'] :
      Rules K (.coverElement ctx) (.coverElement ctx')
  | assignment {ctx ctx' : Context} [K.Contexts ctx ctx'] :
      Rules K (.assignment ctx) (.assignment ctx')
  | operand {ctx ctx' : Context} [K.Contexts ctx ctx'] (precedence : Precedence) :
      Rules K (.operand ctx precedence) (.operand ctx' precedence)
  | unary {ctx ctx' : Context} [K.Contexts ctx ctx'] : Rules K (.unary ctx) (.unary ctx')
  | leftHandSide {ctx ctx' : Context} [K.Contexts ctx ctx'] :
      Rules K (.leftHandSide ctx) (.leftHandSide ctx')
  | newExpression {ctx ctx' : Context} [K.Contexts ctx ctx'] :
      Rules K (.newExpression ctx) (.newExpression ctx')
  | objectElement {ctx ctx' : Context} [K.Contexts ctx ctx'] :
      Rules K (.objectElement ctx) (.objectElement ctx')
  | classElement {ctx ctx' : Context} [K.Contexts ctx ctx'] :
      Rules K (.classElement ctx) (.classElement ctx')
  | type {ctx ctx' : Context} [K.Contexts ctx ctx'] : Rules K (.type ctx) (.type ctx')
  | typeOperator {ctx ctx' : Context} [K.Contexts ctx ctx'] :
      Rules K (.typeOperator ctx) (.typeOperator ctx')
  | typeMember {ctx ctx' : Context} [K.Contexts ctx ctx'] :
      Rules K (.typeMember ctx) (.typeMember ctx')
  | element {ctx ctx' : Context} [K.Contexts ctx ctx'] (inExpression : Bool) :
      Rules K (.element ctx inExpression) (.element ctx' inExpression)

/-- Two grammars whose rules follow each other. -/
class Meets (K : Coupling) (R R' : Recursion) : Prop where
  recur {α : Type} [Coupled K α] {rule rule' : Rule α} :
    K.Rules rule rule' → K.Follows (R.recur rule) (R'.recur rule')
  /-- A directive has been read before the present token. -/
  directive {inModule : Bool} {ctx : Context} {s t : ParseState} {n : Node} {text : String}
    {range : Range} : s.Ready → (R.recur (.item inModule ctx)).run s = some (n, t) →
      n.directiveText? = some (text, range) → range.pos ≤ t.start.offset
  /-- An element of a list is left out at the limit of nesting only. -/
  covered {ctx : Context} {s t : ParseState} :
    (R.recur (.coverElement ctx)).run s = some (none, t) → t.limitReported = true

/-- Two grammars whose rules follow each other, with the routines that decide by the number of
diagnostics. -/
class Recurs (K : Coupling) (R R' : Recursion) : Prop extends K.Meets R R' where
  /-- Type arguments of a call are taken if nothing is reported about them. -/
  typeArguments {ctx ctx' : Context} [K.Contexts ctx ctx'] :
    K.Follows (@callTypeArguments? R ctx) (@callTypeArguments? R' ctx')
  /-- A pattern begins the parameters of a function type if nothing is reported about it. -/
  functionType : K.Follows (@startsFunctionType R) (@startsFunctionType R')

/-! ## Lists under construction -/

/-- A span that has been read. -/
instance (K : Coupling) : Coupled K Span where
  Pair := { span : Span // K.Spans span }
  left := Subtype.val
  right span := span.val.moved K.shift

/-- Corresponding lists. -/
structure ListedPair (K : Coupling) where
  items : K.ArrayPair
  trailingComma : Option (Coupled.Pair K Span)

instance (K : Coupling) : Coupled K Listed where
  Pair := K.ListedPair
  left l := ⟨l.items.left, l.trailingComma.map Coupled.left⟩
  right l := ⟨l.items.right, l.trailingComma.map Coupled.right⟩

namespace ListedPair
variable {K : Coupling}

def empty (K : Coupling) : K.ListedPair := ⟨.empty K, none⟩

def push (l : K.ListedPair) (n : K.NodePair) : K.ListedPair := { l with items := l.items.push n }

abbrev left (l : K.ListedPair) : Listed := Coupled.left (K := K) l
abbrev right (l : K.ListedPair) : Listed := Coupled.right (K := K) l

theorem exists_list (l : K.ListedPair) : ∃ qs : List K.NodePair,
    qs.map EcmaSyntax.NodePair.left = l.left.toList ∧
      qs.map EcmaSyntax.NodePair.right = l.right.toList := l.items.exists_list

theorem hasTrailingComma_left (l : K.ListedPair) :
    l.left.hasTrailingComma = l.trailingComma.isSome := Option.isSome_map

theorem hasTrailingComma_right (l : K.ListedPair) :
    l.right.hasTrailingComma = l.trailingComma.isSome := Option.isSome_map

end ListedPair

/-- Corresponding bodies. -/
structure BodyPair (K : Coupling) where
  ctx : Context
  ctx' : Context
  contexts : K.Contexts ctx ctx'
  inDirectives : Bool
  statements : K.ArrayPair

namespace BodyPair
variable {K : Coupling}

def left (b : K.BodyPair) : Body := ⟨b.ctx, b.inDirectives, b.statements.left⟩
def right (b : K.BodyPair) : Body := ⟨b.ctx', b.inDirectives, b.statements.right⟩

instance (b : K.BodyPair) : K.Contexts b.left.ctx b.right.ctx := b.contexts

end BodyPair

instance (K : Coupling) : Coupled K Body := ⟨K.BodyPair, BodyPair.left, BodyPair.right⟩

/-- A string literal with its place. -/
def literalText? (n : Node) : Option (String × Range) :=
  match n.form with
  | .literal .stringLiteral text _ => some (text, n.range)
  | _ => none

theorem literalText_eq {K : Coupling} {n n' : Node} (h : n.Matches K.header n') :
    literalText? n' = (literalText? n).map fun (text, range) => (text, range.moved K.shift) := by
  obtain ⟨form, hheader, hform, hform', -⟩ := h
  have hrange : n'.range = n.range.moved K.shift := hheader.range_eq
  unfold literalText?
  rw [hform, hform', hrange]
  cases form
  case literal kind text flags => cases kind <;> rfl
  all_goals rfl

/-- Corresponding statements are directives of the same text at corresponding places. -/
theorem directiveText_eq {K : Coupling} {n n' : Node} (h : n.Matches K.header n') :
    n'.directiveText? = n.directiveText?.map fun (text, range) => (text, range.moved K.shift) := by
  obtain ⟨form, -, hform, hform', hchildren⟩ := h
  unfold Node.directiveText?
  rw [hform, hform']
  cases form
  case expressionStatement e => exact literalText_eq (hchildren e List.mem_cons_self)
  all_goals rfl

theorem directiveText_spans {K : Coupling} {n n' : Node} {text : String} {range : Range}
    (h : n.Matches K.header n') (htext : n.directiveText? = some (text, range)) :
    K.Spans range.toSpan := by
  obtain ⟨form, -, hform, -, hchildren⟩ := h
  unfold Node.directiveText? at htext
  rw [hform] at htext
  cases form
  case expressionStatement e =>
    have he := Spans.of_header (hchildren e List.mem_cons_self).header
    change literalText? e.1 = _ at htext
    unfold literalText? at htext
    split at htext
    · cases htext
      exact he
    · cases htext
  all_goals cases htext

section Body
variable {K : Coupling}

theorem isUnnecessary_eq (K : Coupling) [K.Lawful] (ctx ctx' : Context) [K.Contexts ctx ctx']
    (text : String) : isUnnecessary ctx' text = isUnnecessary ctx text :=
  congrArg (holdsExactly "use strict" text && ·) (K.has_eq ctx ctx' .moduleGoal rfl)

theorem directiveContext_contexts [K.Lawful] {ctx ctx' : Context} [h : K.Contexts ctx ctx'] (text : String) :
    K.Contexts (directiveContext ctx text) (directiveContext ctx' text) := by
  unfold directiveContext Context.isModule
  rw [K.has_eq ctx ctx' .moduleGoal rfl]
  split
  · exact inferInstance
  · exact h

theorem directive_eq (b : K.BodyPair) (n : K.NodePair) :
    b.right.directive? n.right =
      (b.left.directive? n.left).map fun (text, range) => (text, range.moved K.shift) := by
  unfold Body.directive? BodyPair.left BodyPair.right
  dsimp only
  split
  · exact directiveText_eq n.matched
  · rfl

/-- Corresponding bodies with corresponding statements behind them. -/
theorem BodyPair.exists_push [K.Lawful] (b : K.BodyPair) (n : K.NodePair) : ∃ c : K.BodyPair,
    c.left = b.left.push n.left ∧ c.right = b.right.push n.right := by
  have hdirective := directive_eq b n
  unfold Body.push
  cases h : b.left.directive? n.left with
  | none =>
    rw [h] at hdirective
    rw [hdirective]
    exact ⟨⟨b.ctx, b.ctx', b.contexts, false, b.statements.push n⟩, rfl, rfl⟩
  | some found =>
    obtain ⟨text, range⟩ := found
    rw [h] at hdirective
    rw [hdirective]
    exact ⟨⟨_, _, directiveContext_contexts text, true, b.statements.push n⟩, rfl, rfl⟩

end Body

end Coupling

namespace Grammar
open Coupling

/-! ## Names and literals -/

theorem admits_eq (K : Coupling) [K.Lawful] (ctx ctx' : Context) [K.Contexts ctx ctx'] (k : Kind) :
    admits ctx' k = admits ctx k := by
  unfold admits
  rw [K.has_eq ctx ctx' .yieldOperator rfl, K.has_eq ctx ctx' .awaitOperator rfl]

variable {K : Coupling} [K.Lawful] {ctx ctx' : Context} [K.Contexts ctx ctx']

theorem isIdentifier_follows : K.Follows (isIdentifier ctx) (isIdentifier ctx') :=
  .look fun _ _ h => by rw [h.token_eq, admits_eq K ctx ctx']

theorem identifierToken_follows : K.Follows identifierToken identifierToken := by
  refine .leaf (fun r => ?_) fun r r' htoken hflags hspelling => ?_
  · unfold nameForm
    split <;> rfl
  · unfold nameForm Reading.text
    rw [htoken, hspelling]

theorem reportNoIdentifier_follows : K.Follows reportNoIdentifier reportNoIdentifier :=
  .same .token fun _ => .ite (.same .tokenText fun _ => .reportHere _ _ _) (.reportHere _ _ _)

theorem missingIdentifier_follows : K.Follows missingIdentifier missingIdentifier :=
  .missing (.identifier false "" none)

theorem identifier_follows : K.Follows (identifier ctx) (identifier ctx') :=
  .same isIdentifier_follows fun _ => .ite identifierToken_follows <|
    .same reportNoIdentifier_follows fun _ => missingIdentifier_follows

theorem identifier?_follows : K.Follows (identifier? ctx) (identifier? ctx') :=
  .same isIdentifier_follows fun _ => .ite (.some identifier_follows) (.pure none rfl)

theorem name_follows : K.Follows name name :=
  .same .token fun _ => .ite identifierToken_follows <|
    .same (.reportHere _ _ _) fun _ => missingIdentifier_follows

theorem checkPrivate_follows : K.Follows (checkPrivate ctx) (checkPrivate ctx') := by
  unfold checkPrivate
  rw [K.has_eq ctx ctx' .classBody rfl]
  exact .reportWhen _ _ _

theorem memberName_follows : K.Follows (memberName ctx) (memberName ctx') :=
  .same (.isAt _) fun _ => .ite (.same checkPrivate_follows fun _ => identifierToken_follows)
    name_follows

theorem literal_follows : K.Follows literal literal := by
  refine .leaf (fun _ => rfl) fun r r' htoken hflags hspelling => ?_
  unfold literalForm Reading.text
  rw [htoken, hflags, hspelling]

theorem keywordExpression_follows : K.Follows keywordExpression keywordExpression :=
  .leaf (fun _ => rfl) fun _ _ htoken _ _ => congrArg Form.keyword htoken

/-! ## Lists between commas -/

theorem atListEnd_follows (close : Kind) : K.Follows (atListEnd close) (atListEnd close) :=
  .isAtAny _

theorem afterItem_follows (close : Kind) (start : Nat) (l : K.ListedPair) :
    K.Follows (afterItem close start l.left) (afterItem close (start + K.shift) l.right) := by
  refine .same (.isAt _) fun _ => .ite (.pure (Turn.done l) rfl) ?_
  refine .tokenSpan fun comma hcomma => .same (.accept _) fun _ => .ite ?_ ?_
  · refine .same (.isAt _) fun b => ?_
    let trailing : Option (Coupled.Pair K Span) := if b then some ⟨comma, hcomma⟩ else none
    exact .pure (Turn.again ⟨l.items, trailing⟩) (by cases b <;> rfl)
  · refine .same (.reportExpected _) fun _ => .tokenStart fun n => ?_
    have heq : (n + K.shift == start + K.shift) = (n == start) := by simp
    rw [heq]
    exact .pure (if n == start then Turn.done l else .again l) (by split <;> rfl)

theorem commaTurn_followsAt {item item' : Array Node → Parse (Option Node)} {s s' : ParseState}
    {close : Kind} {l : K.ListedPair} (hs : K.state s s')
    (hitem : K.FollowsAt (item l.items.left) (item' l.items.right) s s') :
    K.FollowsAt (commaTurn close item l.left) (commaTurn close item' l.right) s s' := by
  have h := Lawful.aligned hs
  refine .look fun _ => ?_
  rw [h.token_eq]
  refine .ite (.pure hs (Turn.done l) rfl) (.look fun _ => ?_)
  rw [h.offset_eq]
  refine .bind hitem fun n t t' _ _ ht => ?_
  cases n with
  | none => exact .pure ht (Turn.done l) rfl
  | some n => exact afterItem_follows close _ (l.push n) t t' ht

theorem commaList_follows (close : Kind) {item item' : Array Node → Parse (Option Node)}
    (hitem : ∀ ns : K.ArrayPair, K.Follows (item ns.left) (item' ns.right)) :
    K.Follows (commaList close item) (commaList close item') :=
  .loop (ListedPair.empty K) rfl fun l s s' hs => commaTurn_followsAt hs (hitem l.items s s' hs)

theorem commaItems_follows (close : Kind) {item item' : Parse Node} (hitem : K.Follows item item') :
    K.Follows (commaItems close item) (commaItems close item') := by
  refine .bind (commaList_follows close fun _ => .some hitem) fun l => ?_
  obtain ⟨qs, hleft, hright⟩ := l.items.exists_list
  exact .pure qs (congrArg₂ Prod.mk hleft hright)

theorem more_follows (separator : Kind) {item item' : Parse Node} (hitem : K.Follows item item') :
    K.Follows (more separator item) (more separator item') :=
  .collect fun ns => .same (.accept _) fun _ => .ite
    (.bind hitem fun n => .pure (Turn.again (ns.push n)) rfl) (.pure (Turn.done ns) rfl)

/-! ## Lists of statements -/

section Statements
variable {R R' : Recursion} [K.Meets R R']

theorem check_followsAt {s s' : ParseState} (b : K.BodyPair) (n : K.NodePair) (hs : K.state s s')
    (hn : ∀ text range, n.left.directiveText? = some (text, range) →
      range.pos ≤ s.start.offset) :
    K.FollowsAt (b.left.check n.left) (b.right.check n.right) s s' := by
  unfold Body.check
  rw [directive_eq b n]
  cases hd : b.left.directive? n.left with
  | none => exact .pure hs () rfl
  | some found =>
    obtain ⟨text, range⟩ := found
    have hd : n.left.directiveText? = some (text, range) := by
      unfold Body.directive? at hd
      split at hd
      · exact hd
      · cases hd
    change K.FollowsAt (if isUnnecessary b.left.ctx text then _ else _)
      (if isUnnecessary b.right.ctx text then reportAt (range.moved K.shift).toSpan _ _ _ else _) s s'
    rw [isUnnecessary_eq K b.left.ctx b.right.ctx text, Range.toSpan_moved]
    exact .ite (.reportAt (directiveText_spans n.matched hd) (hn text range hd) hs) (.pure hs () rfl)

theorem bodyTurn_follows (inModule : Bool) (isEnd : Kind → Bool) (b : K.BodyPair) :
    K.Follows (@bodyTurn R inModule isEnd b.left) (@bodyTurn R' inModule isEnd b.right) := by
  refine .same .token fun k => .ite (.pure (Turn.done b) rfl) (.ite (.tokenStart fun n => ?_) ?_)
  · intro s s' hs
    refine .bind (Meets.recur (.item inModule) s s' hs) fun statement t t' hrun _ ht => ?_
    refine .bind (check_followsAt b statement ht fun text range => ?_) fun _ u u' _ _ hu => ?_
    · exact Meets.directive K R' (Lawful.aligned hs).ready hrun
    · obtain ⟨c, hleft, hright⟩ := b.exists_push statement
      exact (Follows.same (.ifUnmoved n (.skip _)) fun _ => .pure (Turn.again c)
        (congrArg₂ (fun b b' => (Turn.again b, Turn.again b')) hleft hright)) u u' hu
  · exact .same (.reportHere _ _ _) fun _ => .same (.consume _) fun _ => .pure (Turn.again b) rfl

theorem statementList_follows (inModule directives : Bool) (isEnd : Kind → Bool) :
    K.Follows (@statementList R ctx inModule directives isEnd)
      (@statementList R' ctx' inModule directives isEnd) := by
  refine .bind (.loop (BodyPair.mk ctx ctx' ‹_› directives (.empty K)) rfl
    (bodyTurn_follows inModule isEnd)) fun b => ?_
  obtain ⟨qs, hleft, hright⟩ := b.statements.exists_list
  exact .pure qs (congrArg₂ Prod.mk hleft hright)

theorem braced_follows {p q : Parse (List Node)} (h : K.Follows p q) :
    K.Follows (braced p) (braced q) :=
  .bind .mark fun m => .bind (.within _ _ [] rfl h) fun inner => .node m (.block inner)

theorem block_follows : K.Follows (@block R ctx) (@block R' ctx') :=
  braced_follows (statementList_follows _ _ _)

theorem functionBlock_follows : K.Follows (@functionBlock R ctx) (@functionBlock R' ctx') :=
  braced_follows (statementList_follows _ _ _)

/-! ## Expressions between commas -/

theorem expression_follows : K.Follows (@expression R ctx) (@expression R' ctx') := by
  refine .bind .mark fun m => .bind (Meets.recur .assignment) fun first => .loop first rfl fun left => ?_
  refine .same (.accept _) fun _ => .ite ?_ (.pure (Turn.done left) rfl)
  exact .bind (Meets.recur .assignment) fun right =>
    .bind (.node m (.binary left .commaToken right)) fun n => .pure (Turn.again n) rfl

end Statements

end Grammar
end EcmaSyntax
