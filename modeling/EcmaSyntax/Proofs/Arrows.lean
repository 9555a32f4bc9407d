import EcmaSyntax.Proofs.Edges

/-! # Arrow functions and their parameters

The parameters of an arrow function are read as a primary expression and wait for the arrow behind
them. Neither they nor the function may become the base of an access or of a call. As operands they
are not kept apart from other primary expressions: there, parameters may stay without a function,
and an asynchronous function, which is read with its body at once, may stand bare. -/
namespace EcmaSyntax
open Part

/-! ## Fields -/

namespace Form
variable {α : Type}

/-- The field that holds the parameters of an arrow function. -/
def parameterFields : Form α → List String
  | .arrowFunction .. => ["parameters"]
  | _ => []

/-- The fields that hold the base of an access, a call or a template. -/
def suffixBases : Form α → List String
  | .propertyAccess .. | .elementAccess .. | .nonNull .. | .call .. => ["expression"]
  | .taggedTemplate .. => ["tag"]
  | _ => []

/-- The field that holds the condition of a conditional. -/
def conditions : Form α → List String
  | .conditional .. => ["condition"]
  | _ => []

/-- The other fields that hold an operand tighter than an assignment. -/
def openOperands : Form α → List String
  | .binary _ operator _ => if operator = .commaToken then [] else ["left", "right"]
  | .prefixUnary .. | .postfixUnary .. => ["operand"]
  | .await .. | .typeAssertion .. | .new .. | .decorator .. => ["expression"]
  | .classLike .. => ["extends_clause"]
  | _ => []

end Form

/-- The arrow functions and arrow parameters among the children of a node stand where they may. -/
structure Node.ArrowsPlaced (n : Node) : Prop where
  parameters : ∀ e ∈ n.form.edges, e.2.isArrowParameters = true →
    e.1 ∈ n.form.parameterFields ∨ e.1 ∈ n.form.openOperands
  bases : ∀ e ∈ n.form.edges, e.1 ∈ n.form.suffixBases → e.2.isArrowFunction = false
  operands : ∀ e ∈ n.form.edges, e.1 ∈ n.form.openOperands ∨ e.1 ∈ n.form.conditions →
    ∀ isAsync parameters body, e.2.form = .arrowFunction isAsync parameters body → isAsync = true

/-- Arrow parameters end with a parameter, or with an expression that can be taken for one. -/
def Node.EndsAsParameters (n : Node) : Prop :=
  ∀ typeParameters elements result comma,
    n.form = .arrowParameters typeParameters elements result comma →
      ∀ e ∈ elements.getLast?, e.endsParameters = true

/-! ## Phrases -/

namespace Phrase

/-- The phrases for which any arrow function can stand. -/
def takesArrow : Phrase → Bool
  | .arrowFunction | .assigned | .assignment | .expression | .arrayElement | .coverArgument
  | .covered | .coverElement | .argument | .forInitializer => true
  | _ => false

/-- The phrases for which an asynchronous arrow function can stand as an operand. -/
def takesAsync : Phrase → Bool
  | .primary | .suffixed _ | .unary | .operand _ => true
  | _ => false

/-- The phrases for which arrow parameters can stand. -/
def takesHead : Phrase → Bool
  | .coverList | .arrowParameters => true
  | ph => ph.takesAsync

variable {ph ph' : Phrase}

theorem takesArrow_of_choice (h : ph ∈ ph'.choices) (hph : ph.takesArrow = true) :
    ph'.takesArrow = true := by
  revert ph
  cases ph'
  case item inModule => cases inModule <;> simp [choices, takesArrow]
  all_goals simp [choices, takesArrow]

theorem takesAsync_of_choice (h : ph ∈ ph'.choices) (hph : ph.takesAsync = true) :
    ph'.takesAsync = true := by
  revert ph
  cases ph'
  case item inModule => cases inModule <;> simp [choices, takesAsync]
  all_goals simp [choices, takesAsync]

theorem takesHead_of_choice (h : ph ∈ ph'.choices) (hph : ph.takesHead = true) :
    ph'.takesHead = true := by
  revert ph
  cases ph'
  case item inModule => cases inModule <;> simp [choices, takesHead, takesAsync]
  all_goals simp [choices, takesHead, takesAsync]

theorem takes_of_body (ph : Phrase) : ph.body.takesArrow = ph.takesArrow ∧
    ph.body.takesAsync = ph.takesAsync ∧ ph.body.takesHead = ph.takesHead := by
  cases ph <;> exact ⟨rfl, rfl, rfl⟩

end Phrase

/-- A node may stand for a phrase: arrow functions and their parameters do so in few places. -/
structure Node.ArrowFor (n : Node) (ph : Phrase) : Prop where
  function : ∀ isAsync parameters body, n.form = .arrowFunction isAsync parameters body →
    ph.takesArrow = true ∨ isAsync = true ∧ ph.takesAsync = true
  head : n.isArrowParameters = true → ph.takesHead = true

section Cases
variable {faulty : Prop} {ph ph' : Phrase} {ctx ctx' : Context} {form : Form Node} {n : Node}

namespace Node.ArrowFor

theorem of_plain (hfunction : n.isArrowFunction = false) (hhead : n.isArrowParameters = false) :
    n.ArrowFor ph := by
  refine ⟨fun isAsync parameters body heq => ?_, fun h => ?_⟩
  · simp [isArrowFunction, heq] at hfunction
  · rw [hhead] at h
    cases h

theorem deeper (h : n.ArrowFor ph.body) : n.ArrowFor ph := by
  obtain ⟨harrow, hasync, hhead⟩ := ph.takes_of_body
  exact ⟨harrow ▸ hasync ▸ h.function, hhead ▸ h.head⟩

theorem isArrowParameters_eq_false (h : n.ArrowFor ph) (hhead : ph.takesHead = false) :
    n.isArrowParameters = false :=
  Bool.eq_false_iff.mpr fun hn => Bool.eq_false_iff.mp hhead (h.head hn)

theorem isArrowFunction_eq_false (h : n.ArrowFor ph) (harrow : ph.takesArrow = false)
    (hasync : ph.takesAsync = false) : n.isArrowFunction = false := by
  refine Bool.eq_false_iff.mpr fun hn => ?_
  unfold isArrowFunction at hn
  split at hn
  case h_1 isAsync parameters body heq =>
    rcases h.function _ _ _ heq with h | ⟨-, h⟩
    · exact Bool.eq_false_iff.mp harrow h
    · exact Bool.eq_false_iff.mp hasync h
  case h_2 => cases hn

/-- What stands for a phrase that takes no arrow function may stand anywhere. -/
theorem elsewhere (h : n.ArrowFor ph) (harrow : ph.takesArrow = false)
    (hasync : ph.takesAsync = false) (hhead : ph.takesHead = false) : n.ArrowFor ph' :=
  of_plain (h.isArrowFunction_eq_false harrow hasync)
    (Bool.eq_false_iff.mpr fun hn => Bool.eq_false_iff.mp hhead (h.head hn))

theorem choose (h : n.ArrowFor ph) (hs : ph ∈ ph'.choices) : n.ArrowFor ph' :=
  ⟨fun _ _ _ heq => (h.function _ _ _ heq).imp (Phrase.takesArrow_of_choice hs)
    (And.imp_right (Phrase.takesAsync_of_choice hs)), fun hn => Phrase.takesHead_of_choice hs (h.head hn)⟩

end Node.ArrowFor

theorem Node.not_arrow_of_pattern (h : n.isIdentifierOrPattern = true) :
    n.isArrowFunction = false ∧ n.isArrowParameters = false := by
  obtain ⟨_, form⟩ := n
  cases form <;> first | exact ⟨rfl, rfl⟩ | cases h

theorem Node.isArrowFunction_of_head (h : n.isArrowParameters = true) :
    n.isArrowFunction = false := by
  obtain ⟨_, form⟩ := n
  cases form <;> first | rfl | cases h

theorem Production.arrowFor {h : Header} {ps : List Part} (hp : Production faulty ph ctx form ps) :
    (Node.mk h form).ArrowFor ph := by
  cases hp
  case arrowBlock | arrowExpression => exact ⟨fun _ _ _ _ => .inl rfl, nofun⟩
  case arrowParameters => exact ⟨nofun, fun _ => rfl⟩
  all_goals exact .of_plain rfl rfl

theorem Leaf.arrowFor {h : Header} {r : Reading} (hl : Leaf faulty r ph ctx form) :
    (Node.mk h form).ArrowFor ph := by
  have hname : (Node.mk h (Grammar.nameForm r)).ArrowFor ph := by
    unfold Grammar.nameForm
    split <;> exact .of_plain rfl rfl
  cases hl <;> first | exact hname | exact .of_plain rfl rfl

theorem Serves.arrowFor (hs : Serves faulty n ph ctx ph' ctx') (h : n.ArrowFor ph) :
    n.ArrowFor ph' := by
  cases hs with
  | choice hs => exact h.choose hs
  | asyncArrow heq =>
    refine ⟨fun isAsync parameters body heq' => ?_, fun hn => ?_⟩
    · cases heq.symm.trans heq'
      exact .inr ⟨rfl, rfl⟩
    · simp [Node.isArrowParameters, heq] at hn
  | operand hn =>
    refine ⟨fun _ _ _ _ => .inl rfl, fun hn' => ?_⟩
    rw [hn] at hn'
    cases hn'
  | coverOperand hn | binding hn =>
    exact .of_plain (Node.not_arrow_of_pattern hn).1 (Node.not_arrow_of_pattern hn).2
  | arrow hn | coveredArrow hn =>
    refine ⟨fun _ _ _ heq => ?_, fun _ => rfl⟩
    simp [Node.isArrowParameters, heq] at hn
  | parameter hn =>
    have hpattern : n.isIdentifierOrPattern = true := by simp [Node.isIdentifierOrPattern, hn]
    exact .of_plain (Node.not_arrow_of_pattern hpattern).1 (Node.not_arrow_of_pattern hpattern).2
  | _ => exact h.elsewhere rfl rfl rfl

theorem Parsed.arrowFor {p : Part} (h : Parsed faulty p) : p.node.ArrowFor p.phrase := by
  induction h with
  | node hp => exact hp.arrowFor
  | leaf _ hl => exact hl.arrowFor
  | missing _ ha => cases ha <;> exact .of_plain rfl rfl
  | serve _ hs ih => exact hs.arrowFor ih
  | simple => exact ⟨nofun, fun _ => rfl⟩
  | parenthesized => exact .of_plain rfl rfl
  | deeper _ ih => exact .deeper ih

end Cases

/-! ## Parts of a node -/

/-- A part is no arrow function and no arrow parameters but where the edge to it allows. -/
structure Arrowed (form : Form Node) (edge : String × Node) (p : Part) : Prop where
  node_eq : p.node = edge.2
  head : p.phrase.takesHead = true → p.node.isArrowParameters = true →
    edge.1 ∈ form.parameterFields ∨ edge.1 ∈ form.openOperands
  base : edge.1 ∈ form.suffixBases →
    p.phrase.takesArrow = false ∧ p.phrase.takesAsync = false ∨ p.node.isArrowFunction = false
  operand : edge.1 ∈ form.openOperands ∨ edge.1 ∈ form.conditions → p.phrase.takesArrow = false

theorem arrowed_iff {form : Form Node} {name : String} {ctx : Context} {n : Node} {ph : Phrase} :
    Arrowed form (name, n) ⟨ph, ctx, n⟩ ↔
      (ph.takesHead = true → n.isArrowParameters = true →
        name ∈ form.parameterFields ∨ name ∈ form.openOperands) ∧
      (name ∈ form.suffixBases →
        ph.takesArrow = false ∧ ph.takesAsync = false ∨ n.isArrowFunction = false) ∧
      (name ∈ form.openOperands ∨ name ∈ form.conditions → ph.takesArrow = false) :=
  ⟨fun h => ⟨h.head, h.base, h.operand⟩, fun h => ⟨rfl, h.1, h.2.1, h.2.2⟩⟩

theorem Node.isArrowParameters_of_leftHandSide {n : Node} (h : n.isLeftHandSide = true) :
    n.isArrowParameters = false := by
  obtain ⟨_, form⟩ := n
  cases form <;> first | rfl | cases h

theorem Production.arrows {faulty : Prop} {ph : Phrase} {ctx : Context} {form : Form Node}
    {ps : List Part} (h : Production faulty ph ctx form ps) :
    List.Forall₂ (Arrowed form) form.edges ps := by
  cases h <;>
    simp only [Form.edges, Form.fields, Field.children, Field.name, List.flatMap_cons,
      List.flatMap_nil, List.map_cons, List.map_nil, List.append_nil, List.append_assoc,
      List.cons_append, List.nil_append, opt, optAll, Option.toList_none, Option.toList_some,
      Option.getD_none, forall_all, forall_all_last, List.forall₂_cons,
      List.forall₂_nil_left_iff, arrowed_iff]
  case block =>
    refine forall_body fun _ _ => ⟨rfl, (by rintro ⟨⟩), (by rintro ⟨⟩), ?_⟩
    simp [Form.openOperands, Form.conditions]
  case caseClause =>
    refine ⟨by simp [Phrase.takesHead, Phrase.takesAsync, Form.suffixBases, Form.openOperands,
      Form.conditions], forall_body fun _ _ => ⟨rfl, (by rintro ⟨⟩), (by rintro ⟨⟩), ?_⟩⟩
    simp [Form.openOperands, Form.conditions]
  case' combinedType sort _ _ _ => cases sort
  all_goals
    simp [Phrase.takesHead, Phrase.takesArrow, Phrase.takesAsync, Phrase.joined,
      Form.parameterFields, Form.suffixBases, Form.openOperands, Form.conditions]
  case coverConditional hc => exact Node.isArrowParameters_of_pattern hc
  case asyncCall hc | conditional hc => exact hc
  case propertyAccess hc | elementAccess hc | nonNull hc | taggedTemplate hc | call hc =>
    simpa [Grammar.takesSuffixes] using hc
  case assignment hc => exact Node.isArrowParameters_of_leftHandSide hc
  case binary p _ k _ hc _ _ =>
    have hk : k ≠ .commaToken := by
      rintro rfl
      cases p <;> cases hc
    exact ⟨fun _ => hk, fun _ => hk⟩

/-! ## Trees -/

/-- What is known of the arrow functions and arrow parameters at a node. -/
structure Node.ArrowsRead (faulty : Prop) (n : Node) : Prop where
  placed : n.ArrowsPlaced
  ends : faulty ∨ n.EndsAsParameters

section Trees
variable {faulty : Prop} {ph ph' : Phrase} {ctx ctx' : Context} {form : Form Node} {n : Node}

theorem Node.ArrowsPlaced.of_plain (hoperands : n.form.openOperands = [])
    (hconditions : n.form.conditions = []) (hbases : n.form.suffixBases = [])
    (h : ∀ e ∈ n.form.edges, e.2.isArrowParameters = false) : n.ArrowsPlaced := by
  refine ⟨fun e he hhead => ?_, fun e _ hbase => ?_, fun e _ hoperand => ?_⟩
  · rw [h e he] at hhead
    cases hhead
  · simp [hbases] at hbase
  · simp [hoperands, hconditions] at hoperand

/-- A node that is itself no arrow parameters, and has no operands. -/
theorem Node.ArrowsRead.of_plain (hoperands : n.form.openOperands = [])
    (hconditions : n.form.conditions = []) (hbases : n.form.suffixBases = [])
    (hhead : n.isArrowParameters = false) (h : ∀ e ∈ n.form.edges, e.2.isArrowParameters = false) :
    n.ArrowsRead faulty := by
  refine ⟨.of_plain hoperands hconditions hbases h, .inr fun _ _ _ _ heq => ?_⟩
  simp [Node.isArrowParameters, heq] at hhead

/-- A node without children that is itself no arrow parameters. -/
theorem Node.ArrowsRead.of_childless (hoperands : n.form.openOperands = [])
    (hconditions : n.form.conditions = []) (hbases : n.form.suffixBases = [])
    (hhead : n.isArrowParameters = false) (hedges : n.form.edges = []) :
    n.ArrowsRead faulty := by
  refine .of_plain hoperands hconditions hbases hhead fun e he => ?_
  rw [hedges] at he
  cases he

theorem Production.arrowsRead {h : Header} {ps : List Part} (hp : Production faulty ph ctx form ps)
    (hparts : ∀ p ∈ ps, Parsed faulty p) : (Node.mk h form).ArrowsRead faulty := by
  refine ⟨⟨fun e he hhead => ?_, fun e he hbase => ?_, fun e he hoperand isAsync _ _ heq => ?_⟩, ?_⟩
  · obtain ⟨p, hmem, harrowed⟩ := exists_of_forall₂ hp.arrows he
    rw [← harrowed.node_eq] at hhead
    exact harrowed.head ((hparts p hmem).arrowFor.head hhead) hhead
  · obtain ⟨p, hmem, harrowed⟩ := exists_of_forall₂ hp.arrows he
    rw [← harrowed.node_eq]
    rcases harrowed.base hbase with ⟨harrow, hasync⟩ | hbase
    · exact (hparts p hmem).arrowFor.isArrowFunction_eq_false harrow hasync
    · exact hbase
  · obtain ⟨p, hmem, harrowed⟩ := exists_of_forall₂ hp.arrows he
    rw [← harrowed.node_eq] at heq
    rcases (hparts p hmem).arrowFor.function _ _ _ heq with harrow | hasync
    · rw [harrowed.operand hoperand] at harrow
      cases harrow
    · exact hasync.1
  · refine .inr fun _ _ _ _ heq => ?_
    obtain rfl : form = _ := heq
    cases hp with
    | arrowParameters hends => exact hends

theorem Leaf.arrowsRead {h : Header} {r : Reading} (hl : Leaf faulty r ph ctx form) :
    (Node.mk h form).ArrowsRead faulty ∧ form.edges = [] := by
  have hname : (Node.mk h (Grammar.nameForm r)).ArrowsRead faulty ∧
      (Grammar.nameForm r).edges = [] := by
    unfold Grammar.nameForm
    split <;> exact ⟨.of_childless rfl rfl rfl rfl rfl, rfl⟩
  cases hl <;> first | exact hname | exact ⟨.of_childless rfl rfl rfl rfl rfl, rfl⟩

theorem Production.phrase_ne_parameterName {ps : List Part}
    (h : Production faulty ph ctx form ps) : ph ≠ .parameterName := by
  intro heq
  cases h
  case signature sort _ _ _ => cases sort <;> cases heq
  case combinedType sort _ _ _ => cases sort <;> cases heq
  all_goals cases heq

theorem isIdentifier_of_admits {h : Header} {r : Reading}
    (hk : Grammar.admits ctx r.token = true) :
    (Node.mk h (Grammar.nameForm r)).isIdentifier = true := by
  unfold Grammar.nameForm
  split
  case h_2 htoken =>
    rw [htoken] at hk
    cases hk
  all_goals rfl

theorem Parsed.isIdentifier {p : Part} (h : Parsed faulty p) (hph : p.phrase = .identifier) :
    faulty ∨ p.node.isIdentifier = true := by
  induction h with
  | node hp => exact absurd hph hp.phrase_ne_identifier
  | leaf _ hl =>
    cases hl with
    | identifier hk => exact .inr (isIdentifier_of_admits hk)
    | _ => cases hph
  | missing hf => exact .inl hf
  | serve _ hs =>
    cases hph
    cases hs with
    | choice hs => cases hs
  | simple | parenthesized => cases hph
  | deeper _ ih =>
    cases hph
    exact ih rfl

/-- The name that is the only parameter of an arrow function. -/
theorem Parsed.isParameterName {p : Part} (h : Parsed faulty p) (hph : p.phrase = .parameterName) :
    faulty ∨ p.node.isIdentifier = true := by
  induction h with
  | node hp => exact absurd hph hp.phrase_ne_parameterName
  | leaf _ hl => cases hl <;> cases hph
  | missing hf => exact .inl hf
  | serve hn hs =>
    cases hph
    cases hs with
    | choice hs => cases hs
    | parameter hname => exact .inr hname
    | asyncParameter => exact hn.isIdentifier rfl
  | simple | parenthesized => cases hph
  | deeper _ ih =>
    cases hph
    exact ih rfl

/-- A tree that says all that is known of its arrow functions and arrow parameters, and is no arrow
parameters itself. -/
def Node.Headless (faulty : Prop) (n : Node) : Prop :=
  n.All (ArrowsRead faulty) ∧ n.isArrowParameters = false

theorem Node.All.child (h : n.All (ArrowsRead faulty)) (hparameters : n.form.parameterFields = [])
    (hoperands : n.form.openOperands = []) {e : String × Node} (he : e ∈ n.form.edges) :
    e.2.Headless faulty := by
  obtain ⟨⟨hplaced, -⟩, hinner⟩ := h
  refine ⟨hinner e he, Bool.eq_false_iff.mpr fun hhead => ?_⟩
  simpa [hparameters, hoperands] using hplaced.parameters e he hhead

namespace Grammar

theorem headless_joined {left right : Node} (hleft : left.Headless faulty)
    (hright : right.Headless faulty) : (commaJoined left right).Headless faulty := by
  refine ⟨.intro (.of_plain rfl rfl rfl rfl ?_) ?_, rfl⟩ <;>
    simp [commaJoined, Node.form, Form.edges, Form.fields, Field.children, Field.name, hleft.1,
      hleft.2, hright.1, hright.2]

theorem headless_element {arguments e : Node} (h : arguments.All (Node.ArrowsRead faulty))
    (he : e ∈ argumentElements arguments) : (elementExpression e).Headless faulty := by
  have helement : e.Headless faulty := by
    unfold argumentElements at he
    split at he
    case h_1 elements _ hform =>
      refine h.child (by rw [hform]; rfl) (by rw [hform]; rfl) (e := ("elements", e)) ?_
      simp [hform, Form.edges, Form.fields, Field.children, Field.name, he]
    case h_2 => cases he
  unfold elementExpression
  split
  case h_1 binding _ _ _ hform =>
    refine helement.1.child (by rw [hform]; rfl) (by rw [hform]; rfl) (e := ("binding", binding)) ?_
    simp [hform, Form.edges, Form.fields, Field.children, Field.name]
  case h_2 => exact helement

theorem Regrouped.headless {u : ParseState} {arguments inner : Node}
    (h : arguments.All (Node.ArrowsRead faulty)) (hr : Regrouped u arguments inner) :
    inner.Headless faulty := by
  refine hr.induct (fun _ _ => headless_joined) (fun e he => headless_element h he) fun _ => ?_
  exact ⟨.childless rfl (.of_childless rfl rfl rfl rfl rfl), rfl⟩

end Grammar

theorem Parsed.arrowsRead {p : Part} (h : Parsed faulty p) : p.node.All (Node.ArrowsRead faulty) := by
  induction h with
  | node hp hparts ih =>
    refine .intro (hp.arrowsRead hparts) fun e he => ?_
    obtain ⟨p, hmem, harrowed⟩ := exists_of_forall₂ hp.arrows he
    exact harrowed.node_eq ▸ ih p hmem
  | leaf _ hl =>
    obtain ⟨hread, hedges⟩ := hl.arrowsRead
    exact .childless hedges hread
  | missing _ ha hparts ih =>
    cases ha with
    | type ctx name | closing ctx name =>
      have hname := ih _ (List.mem_singleton_self _)
      have hhead : name.isArrowParameters = false :=
        (hparts _ (List.mem_singleton_self _)).arrowFor.isArrowParameters_eq_false rfl
      refine .intro (.of_plain rfl rfl rfl rfl ?_) ?_ <;>
        simp [Node.form, Form.edges, Form.fields, Field.children, Field.name, hname, hhead]
    | _ => exact .childless rfl (.of_childless rfl rfl rfl rfl rfl)
  | serve _ _ ih => exact ih
  | @simple ctx n hn ih =>
    have hhead : n.isArrowParameters = false := hn.arrowFor.isArrowParameters_eq_false rfl
    refine .intro ⟨.of_plain rfl rfl rfl ?_, ?_⟩ ?_
    · simp [Grammar.simpleParameters, Node.form, Form.edges, Form.fields, Field.children,
        Field.name, hhead]
    · refine (hn.isParameterName rfl).imp_right fun hname _ _ _ _ heq => ?_
      cases heq
      simp [Node.endsParameters, Node.isParameterShaped_of_pattern,
        Node.isIdentifierOrPattern, hname]
    · simp [Grammar.simpleParameters, Node.form, Form.edges, Form.fields, Field.children,
        Field.name, ih]
  | parenthesized _ _ hr ih =>
    have hinner := hr.headless ih
    refine .intro (.of_plain rfl rfl rfl rfl ?_) ?_ <;>
      simp [Node.form, Form.edges, Form.fields, Field.children, Field.name, hinner.1, hinner.2]
  | deeper _ ih => exact ih

end Trees

/-! ## Sources -/

theorem parse_arrowsRead (source : String) (options : ParseOptions) :
    (parse source options).root.All
      (Node.ArrowsRead ((parse source options).diagnostics ≠ ∅)) := by
  obtain ⟨h, statements, hroot, hparsed⟩ := parse_parsed source options
  rw [hroot]
  have hpart : ∀ c ∈ statements, c.Headless ((parse source options).diagnostics ≠ ∅) := by
    intro c hc
    obtain ⟨before, after, rfl⟩ := List.append_of_mem hc
    have hp := hparsed _ mem_body
    exact ⟨hp.arrowsRead, hp.arrowFor.isArrowParameters_eq_false rfl⟩
  refine .intro (.of_plain rfl rfl rfl rfl ?_) ?_
  · simpa [Node.form, Form.edges, Form.fields, Field.children, Field.name] using
      fun c hc => (hpart c hc).2
  · simpa [Node.form, Form.edges, Form.fields, Field.children, Field.name] using
      fun c hc => (hpart c hc).1

/-- In every tree, arrow functions and arrow parameters are no bases of accesses and calls, and where
they are operands, the functions are asynchronous. -/
theorem parse_arrows_placed (source : String) (options : ParseOptions) {n : Node}
    (hn : n.Within (parse source options).root) : n.ArrowsPlaced := by
  obtain ⟨hread, -⟩ := (parse_arrowsRead source options).within hn
  exact hread.placed

/-- An asynchronous arrow function as an operand. -/
theorem async_operand_placed : ∃ n : Node, n.Within (parse "async () => \x7b\x7d - 1;" {}).root ∧
    n.kind = .binaryExpression ∧ n.ArrowsPlaced := by
  have hpath : ((parse "async () => \x7b\x7d - 1;" {}).root.at?
      [("statements", 0), ("expression", 0)]).any (·.kind == .binaryExpression) = true := by
    decide +kernel
  obtain ⟨n, hwithin, hn⟩ := Node.within_of_any hpath
  exact ⟨n, hwithin, eq_of_beq hn, parse_arrows_placed _ _ hwithin⟩

/-- Whether all arrow functions and arrow parameters among the children of a node are kept apart
from operands. -/
def Node.keepsArrows (n : Node) : Bool :=
  n.form.edges.all fun e =>
    (!e.2.isArrowParameters || e.1 ∈ n.form.parameterFields) &&
      (!e.2.isArrowFunction || e.1 ∉ n.form.suffixBases ++ n.form.conditions ++ n.form.openOperands)

/-- Arrow parameters with a return type stay without a function behind a prefix operator. -/
theorem not_keepsArrows : (parse "-(a: number): T;" {}).diagnostics = ∅ ∧
    ∃ n : Node, n.Within (parse "-(a: number): T;" {}).root ∧ n.keepsArrows = false := by
  refine ⟨by decide +kernel, ?_⟩
  have hpath : ((parse "-(a: number): T;" {}).root.at?
      [("statements", 0), ("expression", 0)]).any (!·.keepsArrows) = true := by decide +kernel
  obtain ⟨n, hwithin, hn⟩ := Node.within_of_any hpath
  exact ⟨n, hwithin, by simpa using hn⟩

/-- Where nothing is reported, arrow parameters end with a parameter. -/
theorem parse_parameters_end (source : String) (options : ParseOptions)
    (hclean : (parse source options).diagnostics = ∅) {n : Node}
    (hn : n.Within (parse source options).root) : n.EndsAsParameters := by
  obtain ⟨hread, -⟩ := (parse_arrowsRead source options).within hn
  exact hread.ends.resolve_left (not_not_intro hclean)

/-- Parameters that end with a pattern that has a default. -/
theorem pattern_ends_parameters : (parse "(a, [b] = c) => a;" {}).diagnostics = ∅ ∧
    ∃ n : Node, n.Within (parse "(a, [b] = c) => a;" {}).root ∧ n.isArrowParameters = true ∧
      n.EndsAsParameters := by
  have hclean : (parse "(a, [b] = c) => a;" {}).diagnostics = ∅ := by decide +kernel
  have hpath : ((parse "(a, [b] = c) => a;" {}).root.at?
      [("statements", 0), ("expression", 0), ("parameters", 0)]).any (·.isArrowParameters) = true := by
    decide +kernel
  obtain ⟨n, hwithin, hn⟩ := Node.within_of_any hpath
  exact ⟨hclean, n, hwithin, hn, parse_parameters_end _ _ hclean hwithin⟩

/-- An element that takes up all that is left. -/
def Node.isRest (n : Node) : Bool :=
  match n.form with
  | .spread .. => true
  | .formalParameter _ rest .. => rest
  | _ => false

/-- Whether arrow parameters are parameters only, with one that takes up the rest at the end only. -/
def Node.holdsParameters (n : Node) : Bool :=
  match n.form with
  | .arrowParameters _ elements _ comma =>
    elements.all (·.endsParameters) && elements.dropLast.all (!·.isRest) &&
      !(comma && elements.getLast?.any (·.isRest))
  | _ => true

/-- A rest element that is not the last. -/
theorem not_holdsParameters : (parse "(...a, b) => a;" {}).diagnostics = ∅ ∧
    ∃ n : Node, n.Within (parse "(...a, b) => a;" {}).root ∧ n.holdsParameters = false := by
  refine ⟨by decide +kernel, ?_⟩
  have hpath : ((parse "(...a, b) => a;" {}).root.at?
      [("statements", 0), ("expression", 0), ("parameters", 0)]).any (!·.holdsParameters) = true := by
    decide +kernel
  obtain ⟨n, hwithin, hn⟩ := Node.within_of_any hpath
  exact ⟨n, hwithin, by simpa using hn⟩

end EcmaSyntax
