import EcmaSyntax.Proofs.Spans

/-! # Heads of loops

In the head of a loop the word `in` stands between what is initialized and what is gone through, so
that it is no operator there. Within brackets it is one again. A node that is read in the head with
no bracket around it is read in a context without the operator, whatever lies between the head and
the node. -/
namespace EcmaSyntax
open Part

/-! ## Brackets -/

/-- Whether a child in a field of a form stands outside brackets if the form does. -/
def Form.exposes (form : Form Node) (name : String) : Bool :=
  match form with
  | .parenthesized _ | .arrowParameters .. | .argumentList .. | .arrayLiteral .. | .objectLiteral _
  | .computedName _ | .templateSpan .. => false
  | .elementAccess .. => name != "argument_expression"
  | .conditional .. => name != "when_true"
  | .function .. | .method .. => name != "parameters" && name != "body"
  | .arrowFunction _ _ body => name != "parameters" && !(name == "body" && body.kind == .block)
  | .classLike .. => name != "members"
  -- Types.
  | .keywordType _ | .thisType | .typeReference .. | .signature .functionType ..
  | .signature .constructorType .. | .typeQuery _ | .typeLiteral _ | .arrayType _ | .tupleType _
  | .wrappedType .. | .combinedType .. | .conditionalType .. | .inferType _ | .typeOperator ..
  | .indexedAccessType .. | .literalType _ | .typePredicate .. => false
  -- Elements of markup.
  | .jsxElement .. | .jsxOpening .. | .jsxClosing _ | .jsxFragment _ | .jsxNamespacedName ..
  | .jsxMemberName .. | .jsxAttributes _ | .jsxAttribute .. | .jsxSpreadAttribute _
  | .jsxExpression .. | .jsxChildren _ | .jsxText .. => false
  | _ => true

namespace Node

/-- A node that is reached from a root without passing through brackets. -/
inductive Bare (root : Node) : Node → Prop
  | root : Bare root root
  | edge {n c : Node} {name : String} : Bare root n → (name, c) ∈ n.form.edges →
      n.form.exposes name = true → Bare root c

/-- No operation with the operator `in` is reached without passing through brackets. -/
inductive WithoutIn : Node → Prop
  | intro {n : Node} : n.operator? ≠ some .inKeyword →
      (∀ e ∈ n.form.edges, n.form.exposes e.1 = true → WithoutIn e.2) → WithoutIn n

theorem WithoutIn.bare {root n : Node} (h : root.WithoutIn) (hn : root.Bare n) : n.WithoutIn := by
  induction hn with
  | root => exact h
  | edge _ he hexposes ih =>
    obtain ⟨-, hinner⟩ := ih
    exact hinner _ he hexposes

theorem WithoutIn.of_childless {n : Node} (hoperator : n.operator? = none)
    (h : n.form.edges = []) : n.WithoutIn :=
  .intro (hoperator ▸ nofun) (h ▸ nofun)

theorem WithoutIn.of_bracket {n : Node} (hoperator : n.operator? = none)
    (h : ∀ name, n.form.exposes name = false) : n.WithoutIn :=
  .intro (hoperator ▸ nofun) fun e _ hexposes => nomatch (h e.1).symm.trans hexposes

end Node

/-! ## Phrases -/

namespace Phrase

/-- Phrases whose nodes stand for themselves or in brackets of their own, in any context. -/
def isShut : Phrase → Bool
  | .identifier | .literal | .template | .templateText | .templateSpan => true
  | _ => false

/-- Phrases that are read in the head of a loop. What they are made of is read in the same context,
or in brackets. -/
def isOpen : Phrase → Bool
  | .name | .privateName | .memberName | .word | .keyword | .expression | .pattern | .bindingName
  | .propertyName | .decorator
  | .type | .typeParameter | .entityName | .typeReference | .subject | .typeOrPredicate
  | .functionType | .primaryType | .postfixType | .typeOperator | .intersectionMember
  | .intersectionType | .unionType
  | .function .expression | .parameterName | .arrowParameters | .arrowFunction
  | .classLike .expression | .element | .coverList | .argumentList | .primary | .newExpression
  | .suffixed _ | .assertedType | .unary | .operand _ | .assignment | .assigned | .variable
  | .variableList | .forInitializer => true
  | _ => false

/-- A phrase that is read where `in` is no operator. -/
def Quiet (ph : Phrase) (ctx : Context) : Prop :=
  ph.isShut = true ∨ ph.isOpen = true ∧ ctx.has .withoutIn = true

theorem quiet_of_choice {ph ph' : Phrase} {ctx : Context} (h : ph ∈ ph'.choices)
    (hquiet : ph'.Quiet ctx) : ph.Quiet ctx := by
  revert ph hquiet
  cases ph' <;> simp [choices, Quiet, isShut, isOpen]

end Phrase

/-- A part of a node that stands outside brackets is read where `in` is no operator. -/
structure Exposed (form : Form Node) (edge : String × Node) (p : Part) : Prop where
  node_eq : p.node = edge.2
  quiet : form.exposes edge.1 = true → p.phrase.Quiet p.ctx ∨ p.node.WithoutIn

section Cases
variable {faulty : Prop} {ph ph' : Phrase} {ctx ctx' : Context} {form : Form Node} {n : Node}

theorem exposed_iff {name : String} : Exposed form (name, n) ⟨ph, ctx, n⟩ ↔
    (form.exposes name = true → ph.Quiet ctx ∨ n.WithoutIn) :=
  ⟨fun h => h.quiet, fun h => ⟨rfl, h⟩⟩

namespace Context

@[simp] theorem withoutIn_withConditionalTypes :
    (Grammar.withConditionalTypes ctx).has .withoutIn = ctx.has .withoutIn := by
  simp [Grammar.withConditionalTypes]

@[simp] theorem withoutIn_arrowContext (isAsync : Bool) :
    (Grammar.arrowContext ctx isAsync).has .withoutIn = ctx.has .withoutIn := by
  cases isAsync <;> simp [Grammar.arrowContext, FlagSet.has_when]

end Context

theorem Production.exposed {ps : List Part} (h : Production faulty ph ctx form ps)
    (hquiet : ph.Quiet ctx)
    (hblocks : ∀ p ∈ ps, p.phrase = .block true → p.node.kind = .block ∨ p.node.WithoutIn) :
    List.Forall₂ (Exposed form) form.edges ps := by
  unfold Phrase.Quiet at hquiet
  cases h
  case' signature sort _ _ _ | combinedType sort _ _ _ | function sort _ _ _ _ _ _ _
    | classLike sort _ _ _ _ _ _ => cases sort
  all_goals
    simp only [Phrase.ofSignature, Phrase.joined, Phrase.isShut, Phrase.isOpen,
      Bool.false_eq_true, false_and, false_or, true_and, or_self] at hquiet
  all_goals
    simp only [Form.edges, Form.fields, Field.children, Field.name, List.flatMap_cons,
      List.flatMap_nil, List.map_cons, List.map_nil, List.append_nil, List.append_assoc,
      List.cons_append, List.nil_append, opt, optAll, Option.getD_none, forall_all,
      forall_all_last, List.forall₂_cons, List.forall₂_nil_left_iff, exposed_iff]
  case arrowBlock b =>
    refine ⟨fun h => absurd h Bool.false_ne_true, fun hexposes => ?_, trivial⟩
    rcases hblocks _ (List.mem_append_right _ (List.mem_singleton_self _)) rfl with hb | hb
    · simp [Form.exposes, hb] at hexposes
    · exact .inr hb
  all_goals simp [Form.exposes, Phrase.Quiet, Phrase.isShut, Phrase.isOpen, hquiet]

/-- No operator `in` is read where it is none. -/
theorem Production.operator?_ne_in {header : Header} {ps : List Part}
    (h : Production faulty ph ctx form ps) (hquiet : ph.Quiet ctx) :
    (Node.mk header form).operator? ≠ some .inKeyword := by
  cases h
  case binary hin =>
    rcases hquiet with hopen | ⟨-, hctx⟩
    · cases hopen
    · exact fun heq => hin ⟨Option.some.inj heq, hctx⟩
  case typeAssertion sort _ _ _ => cases sort <;> exact fun heq => nomatch heq
  all_goals exact fun heq => nomatch heq

theorem Serves.quiet (h : Serves faulty n ph ctx ph' ctx') (hquiet : ph'.Quiet ctx') :
    ph.Quiet ctx := by
  cases h with
  | choice h => exact Phrase.quiet_of_choice h hquiet
  | enclosed | asyncParameter => exact .inl rfl
  | asyncArrow | operand | arrow | coveredArrow | parameter =>
    rcases hquiet with hopen | ⟨-, hctx⟩
    · cases hopen
    · exact .inr ⟨rfl, hctx⟩
  | functionBody | classBody | innerImport | innerExport | coverOperand | binding =>
    rcases hquiet with hopen | ⟨hopen, -⟩ <;> cases hopen

theorem Leaf.withoutIn {header : Header} {r : Reading} (h : Leaf faulty r ph ctx form) :
    (Node.mk header form).WithoutIn := by
  refine .of_childless h.operator?_eq_none ?_
  have hchildren : form.children = [] := h.children_eq
  rw [Form.children_eq_edges] at hchildren
  exact List.map_eq_nil_iff.mp hchildren

theorem Absence.withoutIn {header : Header} {ps : List Part} (h : Absence form ps) :
    (Node.mk header form).WithoutIn := by
  cases h with
  | type | closing => exact .of_bracket rfl fun _ => rfl
  | _ => exact .of_childless rfl rfl

theorem Production.kind_block {directives : Bool} {header : Header} {ps : List Part}
    (h : Production faulty ph ctx form ps) (hblock : ph = .block directives) :
    (Node.mk header form).kind = .block := by
  cases h
  case signature sort _ _ _ | combinedType sort _ _ _ => cases sort <;> cases hblock
  all_goals first | rfl | cases hblock

/-- What is read for a block is one, or else it is missing. -/
theorem Parsed.block {p : Part} {directives : Bool} (h : Parsed faulty p)
    (hblock : p.phrase = .block directives) : p.node.kind = .block ∨ p.node.WithoutIn := by
  induction h with
  | node hp => exact .inl (hp.kind_block hblock)
  | leaf _ hl => exact .inr hl.withoutIn
  | missing _ ha => exact .inr ha.withoutIn
  | serve _ hs =>
    cases hs with
    | choice h =>
      subst hblock
      cases h
    | _ => cases hblock
  | simple | parenthesized => cases hblock
  | deeper _ ih =>
    subst hblock
    exact ih rfl

theorem Parsed.withoutIn {p : Part} (h : Parsed faulty p) (hquiet : p.phrase.Quiet p.ctx) :
    p.node.WithoutIn := by
  induction h with
  | @node header _ _ _ _ hp hparts ih =>
    have hexposed := hp.exposed hquiet fun p hmem hblock => (hparts p hmem).block hblock
    refine .intro (hp.operator?_ne_in hquiet) fun e he hexposes => ?_
    obtain ⟨p, hmem, hp⟩ := exists_of_forall₂ hexposed he
    rw [← hp.node_eq]
    exact (hp.quiet hexposes).elim (ih p hmem) id
  | leaf _ hl => exact hl.withoutIn
  | missing _ ha => exact ha.withoutIn
  | serve _ hs ih => exact ih (hs.quiet hquiet)
  | simple => exact .of_bracket rfl fun _ => rfl
  | parenthesized => exact .of_bracket rfl fun _ => rfl
  | @deeper _ ph _ _ ih => cases ph <;> exact ih hquiet

end Cases

/-! ## Sources -/

/-- What is initialized in the head of a loop. -/
def Form.initializer? {α : Type} : Form α → Option α
  | .forStatement initializer _ _ _ => initializer
  | .forEach _ _ initializer _ _ => some initializer
  | _ => none

theorem Leaf.initializer?_eq_none {faulty : Prop} {r : Reading} {ph : Phrase} {ctx : Context}
    {form : Form Node} (h : Leaf faulty r ph ctx form) : form.initializer? = none := by
  have hname : (Grammar.nameForm r).initializer? = none := by
    unfold Grammar.nameForm
    split <;> rfl
  cases h <;> first | exact hname | rfl

/-- No operator `in` stands in the head of a loop but within brackets. -/
def Node.HeadsWithoutIn (n : Node) : Prop :=
  ∀ i ∈ n.form.initializer?, ∀ m, i.Bare m → ∀ l r, m.form ≠ .binary l .inKeyword r

theorem Production.headsWithoutIn {faulty : Prop} {header : Header} {ph : Phrase} {ctx : Context}
    {form : Form Node} {ps : List Part} (hp : Production faulty ph ctx form ps)
    (hparts : ∀ p ∈ ps, Parsed faulty p) : (Node.mk header form).HeadsWithoutIn := by
  intro i hi m hm l r heq
  have hoperator : m.operator? = some .inKeyword := by rw [Node.operator?, heq]
  have hinitializer (h : ⟨.forInitializer, ctx.including [.withoutIn], i⟩ ∈ ps) : False := by
    have hwithout := (hparts _ h).withoutIn (.inr ⟨rfl, by simp⟩)
    obtain ⟨hne, -⟩ := hwithout.bare hm
    exact hne hoperator
  cases hp
  case forStatement =>
    obtain rfl := Option.mem_def.mp hi
    exact hinitializer (by simp [opt, all])
  case forEach =>
    obtain rfl := Option.some.inj hi
    exact hinitializer (by simp)
  all_goals cases hi

/-- In every tree, no operator `in` is reached from what the head of a loop initializes without
passing through brackets. -/
theorem parse_headsWithoutIn (source : String) (options : ParseOptions) {n : Node}
    (hn : n.Within (parse source options).root) : n.HeadsWithoutIn := by
  have hplain {header : Header} {form : Form Node} (h : form.initializer? = none) :
      (Node.mk header form).HeadsWithoutIn := by
    intro i hi
    cases h.symm.trans hi
  rcases parse_within hn with ⟨header, statements, rfl⟩ | ⟨p, hp, hin⟩
  · exact hplain rfl
  · exact hp.forall_within Production.headsWithoutIn (fun hl => hplain hl.initializer?_eq_none)
      (fun ha => hplain (by cases ha <;> rfl)) (fun _ => hplain rfl) (fun _ _ => hplain rfl)
      (fun _ _ => hplain rfl) n hin

/-- Between the marks of a conditional and within brackets, `in` is an operator in the head of a
loop as well. -/
theorem bracketed_headWithoutIn : ∃ n : Node,
    n.Within (parse "for (let x = a ? b in c : [d in e]; ; );" {}).root ∧
      n.form.initializer?.isSome = true ∧ n.HeadsWithoutIn := by
  have hpath : ((parse "for (let x = a ? b in c : [d in e]; ; );" {}).root.at?
      [("statements", 0)]).any (·.form.initializer?.isSome) = true := by decide +kernel
  obtain ⟨n, hwithin, hn⟩ := Node.within_of_any hpath
  exact ⟨n, hwithin, hn, parse_headsWithoutIn _ _ hwithin⟩

end EcmaSyntax
