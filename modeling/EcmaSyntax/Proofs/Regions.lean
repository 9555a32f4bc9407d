import EcmaSyntax.Proofs.Edges

/-! # Regions of a tree

The words `yield` and `await` are operators in some regions of a tree and names in others. Some
edges of a tree are boundaries: behind them the function above alone decides about the words. A
region is handed on over all other edges. The contexts in which the parts of a node are read agree
with this, except for names, which are read in contexts of their own. -/
namespace EcmaSyntax
open Part

/-- Which words are operators in a region. -/
structure Region where
  yields : Bool
  awaits : Bool

/-- The region for which a context is made. -/
def Context.region (ctx : Context) : Region := ⟨ctx.has .yieldOperator, ctx.has .awaitOperator⟩

namespace Form
variable {α : Type}

/-- The fields that lie behind a boundary. -/
def boundaries : Form α → List String
  | .function .. | .method .. => ["parameters", "body"]
  | .arrowFunction .. | .staticBlock .. => ["body"]
  | .propertyDefinition .. => ["initializer"]
  | _ => []

def isGenerator : Form α → Bool
  | .function _ _ _ isGenerator _ _ _ _ => isGenerator
  | .method _ _ _ _ _ isGenerator _ _ _ _ => isGenerator
  | _ => false

def isAsync : Form α → Bool
  | .function _ _ isAsync _ _ _ _ _ => isAsync
  | .method _ _ _ _ isAsync _ _ _ _ _ => isAsync
  | .arrowFunction isAsync _ _ => isAsync
  | _ => false

/-- The region behind a boundary of a form. -/
def region (form : Form α) : Region := ⟨form.isGenerator, form.isAsync⟩

/-- The fields that hold expressions. -/
def expressionFields : Form α → List String
  | .computedName .. | .decorator .. | .templateSpan .. | .propertyAccess .. | .call .. | .new ..
  | .parenthesized .. | .yield .. | .await .. | .spread .. | .typeAssertion .. | .nonNull ..
  | .expressionStatement .. | .ifStatement .. | .doStatement .. | .whileStatement ..
  | .returnStatement .. | .withStatement .. | .switchStatement .. | .caseClause ..
  | .throwStatement .. | .exportAssignment .. | .jsxSpreadAttribute .. | .jsxExpression .. =>
    ["expression"]
  | .propertyAssignment .. | .propertyDefinition .. | .enumMember .. | .jsxAttribute .. =>
    ["initializer"]
  | .arrowParameters .. | .argumentList .. | .arrayLiteral .. => ["elements"]
  | .prefixUnary .. | .postfixUnary .. => ["operand"]
  | .binary .. | .assignment .. => ["left", "right"]
  | .importDeclaration .. | .exportDeclaration .. => ["module_specifier"]
  | .formalParameter .. => ["binding", "initializer"]
  | .variableDeclaration .. => ["name", "initializer"]
  | .literalType .. => ["literal"]
  | .shorthandProperty .. => ["object_assignment_initializer"]
  | .elementAccess .. => ["expression", "argument_expression"]
  | .taggedTemplate .. => ["tag", "template"]
  | .arrowFunction .. => ["body"]
  | .conditional .. => ["condition", "when_true", "when_false"]
  | .classLike .. => ["extends_clause"]
  | .forStatement .. => ["initializer", "condition", "incrementor"]
  | .forEach .. => ["initializer", "expression"]
  | .jsxChildren .. => ["children"]
  | _ => []

end Form

/-- The region behind an edge of a form, given the region before it. -/
def Region.across {α : Type} (r : Region) (form : Form α) (name : String) : Region :=
  if name ∈ form.boundaries then form.region else r

/-- Whether a form may stand in a region: an operator stands where its word is one. -/
def Region.Permits {α : Type} (r : Region) : Form α → Prop
  | .yield .. => r.yields = true
  | .await .. => r.awaits = true
  | _ => True

/-- Whether a node may be an expression of a region: no name is a word that is an operator. -/
def Region.Names (r : Region) (n : Node) : Prop :=
  ∀ text word, n.form = .identifier false text word →
    (text = "yield" → r.yields = false) ∧ (text = "await" → r.awaits = false)

/-- Whether a word may stand as it is for a phrase, whatever the region is. -/
def Phrase.isPlainName : Phrase → Bool
  | .name | .memberName | .propertyName | .entityName | .subject | .tagName | .attributeName => true
  | _ => false

/-! ## Contexts -/

namespace Context
variable (ctx : Context)

theorem region_including {modes : List Mode}
    (h : .yieldOperator ∉ modes ∧ .awaitOperator ∉ modes) :
    (ctx.including modes).region = ctx.region := by
  simp [region, h]

theorem region_excluding {modes : List Mode}
    (h : .yieldOperator ∉ modes ∧ .awaitOperator ∉ modes) :
    (ctx.excluding modes).region = ctx.region := by
  simp [region, h]

@[simp] theorem region_argument : ctx.argument.region = ctx.region :=
  ctx.region_excluding (by decide)

@[simp] theorem region_enclosed : ctx.enclosed.region = ctx.region :=
  ctx.region_excluding (by decide)

@[simp] theorem region_withIn : ctx.withIn.region = ctx.region :=
  ctx.region_excluding (by decide)

@[simp] theorem region_branch : ctx.branch.region = ctx.region :=
  ctx.region_including (by decide)

@[simp] theorem region_conditionalTypes :
    (Grammar.withConditionalTypes ctx).region = ctx.region :=
  ctx.region_including (by decide)

@[simp] theorem region_functionBody (isAsync isGenerator : Bool) :
    (ctx.functionBody isAsync isGenerator).region = ⟨isGenerator, isAsync⟩ := by
  cases isAsync <;> cases isGenerator <;>
    simp [region, functionBody, FlagSet.when]

@[simp] theorem region_parameters (isAsync isGenerator : Bool) :
    (ctx.parameters isAsync isGenerator).region = ⟨isGenerator, isAsync⟩ :=
  (region_excluding _ (by decide)).trans (ctx.region_functionBody isAsync isGenerator)

@[simp] theorem region_classInitializer : ctx.classInitializer.region = ⟨false, false⟩ :=
  (region_excluding _ (by decide)).trans (ctx.region_functionBody false false)

@[simp] theorem region_arrowContext (isAsync : Bool) :
    (Grammar.arrowContext ctx isAsync).region = ⟨false, isAsync⟩ := by
  cases isAsync <;> simp [region, Grammar.arrowContext, FlagSet.when]

end Context

/-! ## Parts of a node -/

/-- A part is read as the edge to it demands. -/
structure Fills (ctx : Context) (form : Form Node) (edge : String × Node) (p : Part) : Prop where
  node_eq : p.node = edge.2
  region_eq : p.phrase ≠ .identifier ∨ edge.1 ∈ form.expressionFields →
    p.ctx.region = ctx.region.across form edge.1
  phrase : edge.1 ∈ form.expressionFields → p.phrase.isPlainName = false

theorem fills_iff {ctx ctx' : Context} {form : Form Node} {name : String} {n : Node} {ph : Phrase} :
    Fills ctx form (name, n) ⟨ph, ctx', n⟩ ↔
      (ph ≠ .identifier ∨ name ∈ form.expressionFields →
        ctx'.region = ctx.region.across form name) ∧
      (name ∈ form.expressionFields → ph.isPlainName = false) :=
  ⟨fun h => ⟨h.region_eq, h.phrase⟩, fun h => ⟨rfl, h.1, h.2⟩⟩

theorem directiveContext_region (ctx : Context) (text : String) :
    (Grammar.directiveContext ctx text).region = ctx.region := by
  unfold Grammar.directiveContext
  split
  · exact ctx.region_including (by decide)
  · rfl

theorem push_region (b : Grammar.Body) (statement : Node) :
    (b.push statement).ctx.region = b.ctx.region := by
  unfold Grammar.Body.push
  dsimp only
  split
  · rfl
  · exact directiveContext_region _ _

/-- The statements of a body are read in one region. -/
theorem fills_body {ctx : Context} {form : Form Node} {name : String} {inModule : Bool}
    {b : Grammar.Body} {ns : List Node} (hb : b.ctx.region = ctx.region.across form name)
    (hname : name ∉ form.expressionFields) :
    List.Forall₂ (Fills ctx form) (ns.map (Prod.mk name)) (body inModule b ns) := by
  induction ns generalizing b with
  | nil => exact .nil
  | cons n rest ih =>
    refine .cons ⟨rfl, fun _ => hb, fun h => absurd h hname⟩ (ih ?_)
    exact (push_region b n).trans hb

/-- The parts of a node fill its fields in order. -/
theorem Production.fills {faulty : Prop} {ph : Phrase} {ctx : Context} {form : Form Node}
    {ps : List Part} (h : Production faulty ph ctx form ps) :
    List.Forall₂ (Fills ctx form) form.edges ps := by
  cases h <;>
    simp only [Form.edges, Form.fields, Field.children, Field.name, List.flatMap_cons,
      List.flatMap_nil, List.map_cons, List.map_nil, List.append_nil, List.append_assoc,
      List.cons_append, List.nil_append, opt, optAll, Option.toList_none, Option.toList_some,
      Option.getD_none, forall_all, forall_all_last, List.forall₂_cons,
      List.forall₂_nil_left_iff, fills_iff]
  case block => exact fills_body rfl (by simp [Form.expressionFields])
  case caseClause =>
    refine ⟨?_, fills_body rfl (by simp [Form.expressionFields])⟩
    simp [Region.across, Form.boundaries, Phrase.isPlainName]
  all_goals
    simp +decide [Region.across, Form.boundaries, Form.expressionFields, Form.region,
      Form.isGenerator, Form.isAsync, Phrase.isPlainName, Context.region_including,
      Context.region_excluding]

/-! ## Trees -/

/-- A tree whose operators and names are those of its regions. -/
inductive Node.Scoped : Region → Node → Prop
  | intro {r : Region} {n : Node} : r.Permits n.form →
      (∀ e ∈ n.form.edges, e.1 ∈ n.form.expressionFields → (r.across n.form e.1).Names e.2) →
      (∀ e ∈ n.form.edges, Scoped (r.across n.form e.1) e.2) → Scoped r n

theorem Region.names_of_ne {r : Region} {n : Node}
    (h : ∀ text word, n.form ≠ .identifier false text word) : r.Names n :=
  fun text word heq => absurd heq (h text word)

/-- What has been read stands in the region of its context. A name in a context of its own stands
in every region. -/
structure Part.Settled (p : Part) : Prop where
  everywhere : ∀ r, (p.phrase ≠ .identifier → p.ctx.region = r) → p.node.Scoped r
  names : p.phrase.isPlainName = false → p.ctx.region.Names p.node

theorem Part.Settled.deeper {ph : Phrase} {ctx : Context} {n : Node}
    (h : Part.Settled ⟨ph.body, ctx, n⟩) : Part.Settled ⟨ph, ctx, n⟩ := by
  cases ph with
  | assignment | coverElement =>
    exact ⟨fun r hr => h.everywhere r fun _ => hr nofun, fun _ => h.names rfl⟩
  | _ => exact h

section Cases
variable {faulty : Prop} {ph : Phrase} {ctx : Context} {form : Form Node} {n : Node} {r : Region}

theorem Node.Scoped.childless (hedges : n.form.edges = []) (h : r.Permits n.form) : n.Scoped r := by
  refine .intro h ?_ ?_ <;> simp [hedges]

theorem Production.permits {ps : List Part} (h : Production faulty ph ctx form ps) :
    ctx.region.Permits form := by
  cases h <;> first | exact trivial | assumption

theorem Production.form_ne_identifier {ps : List Part} (h : Production faulty ph ctx form ps)
    (isPrivate : Bool) (text : String) (word : Option Kind) :
    form ≠ .identifier isPrivate text word := by
  intro heq
  cases h <;> cases heq

theorem Production.settled {h : Header} {ps : List Part} (hp : Production faulty ph ctx form ps)
    (ih : ∀ p ∈ ps, p.Settled) : (⟨ph, ctx, .mk h form⟩ : Part).Settled := by
  refine ⟨fun r hr => ?_, fun _ text word heq => absurd heq (hp.form_ne_identifier _ _ _)⟩
  obtain rfl := hr hp.phrase_ne_identifier
  refine .intro hp.permits (fun e he hexpression => ?_) fun e he => ?_
  · obtain ⟨p, hmem, hfills⟩ := exists_of_forall₂ hp.fills he
    have hnames := (ih p hmem).names (hfills.phrase hexpression)
    rwa [hfills.region_eq (.inr hexpression), hfills.node_eq] at hnames
  · obtain ⟨p, hmem, hfills⟩ := exists_of_forall₂ hp.fills he
    have hscoped := (ih p hmem).everywhere _ fun hne => hfills.region_eq (.inl hne)
    rwa [hfills.node_eq] at hscoped

theorem Grammar.name_of_admits {k : Kind} (h : Grammar.admits ctx k = true) :
    k.isName = true ∧ (k = .yieldKeyword → ctx.region.yields = false) ∧
      (k = .awaitKeyword → ctx.region.awaits = false) := by
  unfold Grammar.admits at h
  split at h
  case h_1 => exact ⟨by decide, fun _ => by simpa [Context.region] using h, nofun⟩
  case h_2 => exact ⟨by decide, nofun, fun _ => by simpa [Context.region] using h⟩
  case h_3 hyield hawait =>
    exact ⟨Kind.isName_of_identifierLike h, fun heq => absurd heq hyield,
      fun heq => absurd heq hawait⟩

/-- A token that is taken for a name is no word that is an operator. -/
theorem names_of_token {h : Header} {reading : Reading} (hready : reading.Ready)
    (hname : reading.token.isName = true)
    (hyield : reading.token = .yieldKeyword → r.yields = false)
    (hawait : reading.token = .awaitKeyword → r.awaits = false) :
    r.Names (.mk h (Grammar.nameForm reading)) := by
  intro text word heq
  have htext : text = reading.text := by
    change Grammar.nameForm reading = _ at heq
    unfold Grammar.nameForm at heq
    split at heq <;> cases heq <;> rfl
  subst htext
  have hkeyword := hready.spelled hname
  refine ⟨fun hspelled => hyield (hkeyword _ ?_), fun hspelled => hawait (hkeyword _ ?_)⟩
  · rw [hspelled]
    decide
  · rw [hspelled]
    decide

theorem Leaf.settled {h : Header} {reading : Reading} (hready : reading.Ready)
    (hl : Leaf faulty reading ph ctx form) : (⟨ph, ctx, .mk h form⟩ : Part).Settled := by
  have hname : (Grammar.nameForm reading).edges = [] ∧
      ∀ r : Region, r.Permits (Grammar.nameForm reading) := by
    unfold Grammar.nameForm
    split <;> exact ⟨rfl, fun _ => trivial⟩
  have hform : form.edges = [] ∧ ∀ r : Region, r.Permits form := by
    cases hl <;> first | exact hname | exact ⟨rfl, fun _ => trivial⟩
  refine ⟨fun r _ => .childless hform.1 (hform.2 r), fun hplain => ?_⟩
  cases hl with
  | identifier hadmits =>
    obtain ⟨htoken, hyield, hawait⟩ := Grammar.name_of_admits hadmits
    exact names_of_token hready htoken hyield hawait
  | privateName htoken =>
    intro text word heq
    change Grammar.nameForm reading = _ at heq
    rw [Grammar.nameForm, htoken] at heq
    cases heq
  | word htoken =>
    have hword : reading.token.isName = true ∧ reading.token ≠ .yieldKeyword ∧
        reading.token ≠ .awaitKeyword := by
      generalize reading.token = k at htoken
      revert k
      decide
    exact names_of_token hready hword.1 (absurd · hword.2.1) (absurd · hword.2.2)
  | thisName htoken =>
    exact names_of_token hready (htoken ▸ by decide) (htoken ▸ (Kind.noConfusion ·))
      (htoken ▸ (Kind.noConfusion ·))
  | literal | keyword | childText => rintro _ _ ⟨⟩
  | name | entityName | subject => cases hplain

theorem Absence.settled {h : Header} {ps : List Part} (ha : Absence form ps)
    (ih : ∀ p ∈ ps, p.Settled) : (⟨ph, ctx, .mk h form⟩ : Part).Settled := by
  cases ha with
  | identifier =>
    refine ⟨fun _ _ => .childless rfl trivial, fun _ text word heq => ?_⟩
    cases heq
    exact ⟨(absurd · (by decide)), (absurd · (by decide))⟩
  | statement | templateText | argument =>
    exact ⟨fun _ _ => .childless rfl trivial, fun _ => Region.names_of_ne (by rintro _ _ ⟨⟩)⟩
  | type ctx name | closing ctx name =>
    have hname := ih _ (List.mem_singleton_self _)
    refine ⟨fun r _ => .intro trivial ?_ ?_, fun _ => Region.names_of_ne (by rintro _ _ ⟨⟩)⟩
    · simp [Node.form, Form.expressionFields]
    · simpa [Node.form, Form.edges, Form.fields, Field.children, Field.name, Region.across,
        Form.boundaries] using hname.everywhere r fun hne => absurd rfl hne

/-- What may not stand as it is for a phrase may not do so for one that serves as it. -/
theorem Phrase.not_plain_of_choice {ph' : Phrase} (h : ph'.isPlainName = false)
    (hmem : ph ∈ ph'.choices) : ph.isPlainName = false := by
  revert ph
  cases ph'
  case item inModule => cases inModule <;> simp [choices, isPlainName]
  all_goals first | contradiction | simp [choices, isPlainName]

theorem Serves.settled {ph' : Phrase} {ctx' : Context} (hs : Serves faulty n ph ctx ph' ctx')
    (hn : (⟨ph, ctx, n⟩ : Part).Settled) : (⟨ph', ctx', n⟩ : Part).Settled := by
  cases hs with
  | choice hmem =>
    refine ⟨fun r hr => hn.everywhere r fun _ => hr ?_, fun hplain => hn.names ?_⟩
    · rintro rfl
      cases hmem
    · exact Phrase.not_plain_of_choice hplain hmem
  | enclosed =>
    have hregion : ctx'.enclosed.region = ctx'.region := ctx'.region_enclosed
    exact ⟨fun r hr => hn.everywhere r fun _ => hregion.trans (hr nofun),
      fun _ => hregion ▸ hn.names rfl⟩
  | asyncParameter =>
    refine ⟨fun r _ => hn.everywhere r nofun, fun _ text word heq => ?_⟩
    have hnames := hn.names rfl text word heq
    have hyields : (ctx'.including [.awaitOperator]).region.yields = ctx'.region.yields := by
      simp [Context.region]
    have hawaits : (ctx'.including [.awaitOperator]).region.awaits = true := by
      simp [Context.region]
    rw [hyields, hawaits] at hnames
    exact ⟨hnames.1, fun htext => absurd (hnames.2 htext) nofun⟩
  | _ => exact ⟨fun r hr => hn.everywhere r fun _ => hr nofun, fun _ => hn.names rfl⟩

/-! ## Elements of a list as an expression -/

/-- An expression that stands in a region. -/
def Region.Holds (r : Region) (n : Node) : Prop := n.Scoped r ∧ r.Names n

theorem Node.Scoped.expression {e : String × Node} (h : n.Scoped r) (he : e ∈ n.form.edges)
    (hexpression : e.1 ∈ n.form.expressionFields) : (r.across n.form e.1).Holds e.2 := by
  obtain ⟨_, hnames, hinner⟩ := h
  exact ⟨hinner e he, hnames e he hexpression⟩

namespace Grammar

theorem holds_joined {left right : Node} (hleft : r.Holds left) (hright : r.Holds right) :
    r.Holds (commaJoined left right) := by
  refine ⟨.intro trivial ?_ ?_, nofun⟩ <;>
    simp [commaJoined, Node.form, Form.edges, Form.fields, Field.children, Field.name,
      Form.expressionFields, Region.across, Form.boundaries, hleft.1, hleft.2, hright.1, hright.2]

theorem holds_element {arguments e : Node} (h : arguments.Scoped r)
    (he : e ∈ argumentElements arguments) : r.Holds (elementExpression e) := by
  have helement : r.Holds e := by
    unfold argumentElements at he
    split at he
    case h_1 elements _ hform =>
      have hedge : (("elements", e) : String × Node) ∈ arguments.form.edges := by
        simp [hform, Form.edges, Form.fields, Field.children, Field.name, he]
      have hholds := h.expression hedge (by simp [hform, Form.expressionFields])
      simpa [hform, Region.across, Form.boundaries] using hholds
    case h_2 => cases he
  unfold elementExpression
  split
  case h_1 binding _ _ _ hform =>
    have hedge : (("binding", binding) : String × Node) ∈ e.form.edges := by
      simp [hform, Form.edges, Form.fields, Field.children, Field.name]
    have hholds := helement.1.expression hedge (by simp [hform, Form.expressionFields])
    simpa [hform, Region.across, Form.boundaries] using hholds
  case h_2 => exact helement

theorem Regrouped.holds {u : ParseState} {arguments inner : Node} (h : arguments.Scoped r)
    (hr : Regrouped u arguments inner) : r.Holds inner := by
  refine hr.induct (fun _ _ => holds_joined) (fun e he => holds_element h he) fun _ => ?_
  refine ⟨.childless rfl trivial, fun text word heq => ?_⟩
  cases heq
  exact ⟨(absurd · (by decide)), (absurd · (by decide))⟩

end Grammar
end Cases

/-- Whatever has been read stands in the region of its context. -/
theorem Parsed.settled {faulty : Prop} {p : Part} (h : Parsed faulty p) : p.Settled := by
  induction h with
  | node hp _ ih => exact hp.settled ih
  | leaf hready hl => exact hl.settled hready
  | missing _ ha _ ih => exact ha.settled ih
  | serve _ hs ih => exact hs.settled ih
  | @simple ctx n _ ih =>
    refine ⟨fun r hr => ?_, fun _ => Region.names_of_ne (by rintro _ _ ⟨⟩)⟩
    obtain rfl := hr (by rintro ⟨⟩)
    have hscoped := ih.everywhere _ fun _ => rfl
    refine .intro trivial ?_ ?_ <;>
      simp [Grammar.simpleParameters, Node.form, Form.edges, Form.fields, Field.children,
        Field.name, Region.across, Form.boundaries, hscoped]
    exact fun _ => ih.names rfl
  | @parenthesized _ _ ctx _ inner _ _ hr ih =>
    refine ⟨fun r hr' => ?_, fun _ => Region.names_of_ne (by rintro _ _ ⟨⟩)⟩
    obtain rfl := hr' (by rintro ⟨⟩)
    obtain ⟨hscoped, hnames⟩ := Grammar.Regrouped.holds (ih.everywhere _ fun _ => rfl) hr
    refine .intro trivial ?_ ?_ <;>
      simp [Node.form, Form.edges, Form.fields, Field.children,
        Field.name, Region.across, Form.boundaries, hscoped, hnames]
  | deeper _ ih => exact .deeper ih

/-! ## The closest boundary -/

/-- The node to which the closest boundary behind an edge belongs. -/
def closestOwner (outer : Option Node) (n : Node) (name : String) (_ : List Node) : Option Node :=
  if name ∈ n.form.boundaries then some n else outer

/-- Whether `yield` is an operator below a boundary. -/
def Yields (owner : Option Node) : Prop := ∃ n ∈ owner, n.form.isGenerator = true

/-- Whether `await` is an operator below a boundary, or above all of them. -/
def Awaits (options : ParseOptions) (owner : Option Node) : Prop :=
  (∃ n ∈ owner, n.form.isAsync = true) ∨ owner = none ∧ options.goal = .module

/-- The region below a boundary, or above all of them. -/
def regionBelow (options : ParseOptions) : Option Node → Region
  | none => (Context.ofOptions options).region
  | some n => n.form.region

section Below
variable {options : ParseOptions} {owner : Option Node}

theorem region_ofOptions (options : ParseOptions) :
    (Context.ofOptions options).region = ⟨false, options.goal == .module⟩ := by
  obtain ⟨goal, strict, compat, jsx⟩ := options
  cases goal <;> cases strict <;> cases compat <;> cases jsx <;> rfl

theorem yields_iff : (regionBelow options owner).yields = true ↔ Yields owner := by
  cases owner <;> simp [regionBelow, Yields, region_ofOptions, Form.region]

theorem awaits_iff : (regionBelow options owner).awaits = true ↔ Awaits options owner := by
  cases owner <;> simp [regionBelow, Awaits, region_ofOptions, Form.region]

theorem regionBelow_closest (outer : Option Node) (n : Node) (name : String)
    (before : List Node) : regionBelow options (closestOwner outer n name before) =
      (regionBelow options outer).across n.form name := by
  unfold closestOwner Region.across
  split <;> rfl

theorem Node.Walk.scoped {root n : Node} (h : root.Walk closestOwner none owner n)
    (hroot : root.Scoped (Context.ofOptions options).region) :
    n.Scoped (regionBelow options owner) := by
  induction h with
  | root => exact hroot
  | @edge outer n c name before _ he ih =>
    obtain ⟨_, _, hinner⟩ := ih
    rw [regionBelow_closest]
    exact hinner _ he.mem_edges

end Below

theorem parse_scoped (source : String) (options : ParseOptions) :
    (parse source options).root.Scoped (Context.ofOptions options).region := by
  obtain ⟨h, statements, hroot, hparsed⟩ := parse_parsed source options
  rw [hroot]
  have hfills : List.Forall₂ (Fills (.ofOptions options) (.sourceBody options.goal statements))
      (Form.sourceBody options.goal statements).edges
      (body (Context.ofOptions options).isModule ⟨.ofOptions options, true, #[]⟩ statements) := by
    simpa only [Form.edges, Form.fields, Field.children, Field.name, List.flatMap_cons,
      List.flatMap_nil, List.append_nil] using fills_body rfl (by simp [Form.expressionFields])
  refine .intro trivial (by simp [Node.form, Form.expressionFields]) fun e he => ?_
  obtain ⟨p, hmem, hp⟩ := exists_of_forall₂ hfills he
  have hscoped := (hparsed p hmem).settled.everywhere _ fun hne => hp.region_eq (.inl hne)
  rwa [hp.node_eq] at hscoped

/-- In every tree, each `yield` stands below a boundary of a generator and each `await` below one of
an asynchronous function, or of a module as a whole; and where the one or the other would, no
expression is a name that is spelled like it. -/
theorem parse_operators_scoped (source : String) (options : ParseOptions) {owner : Option Node}
    {n : Node} (hn : (parse source options).root.Walk closestOwner none owner n) :
    (∀ delegate e, n.form = .yield delegate e → Yields owner) ∧
      (∀ e, n.form = .await e → Awaits options owner) ∧
      ∀ name before c, n.Edge name before c → name ∈ n.form.expressionFields →
        ∀ text word, c.form = .identifier false text word →
          (text = "yield" → ¬ Yields (closestOwner owner n name before)) ∧
            (text = "await" → ¬ Awaits options (closestOwner owner n name before)) := by
  obtain ⟨hpermits, hnames, -⟩ := hn.scoped (parse_scoped source options)
  refine ⟨fun delegate e heq => ?_, fun e heq => ?_, fun name before c hc hexpression text word heq => ?_⟩
  · rw [heq] at hpermits
    exact yields_iff.mp hpermits
  · rw [heq] at hpermits
    exact awaits_iff.mp hpermits
  · obtain ⟨hyield, hawait⟩ := hnames _ hc.mem_edges hexpression text word heq
    rw [← regionBelow_closest owner n name before] at hyield hawait
    exact ⟨fun htext h => absurd (yields_iff.mpr h) (Bool.eq_false_iff.mp (hyield htext)),
      fun htext h => absurd (awaits_iff.mpr h) (Bool.eq_false_iff.mp (hawait htext))⟩

/-- A `yield` in the body of a generator. -/
theorem generator_yields : ∃ owner n,
    (parse "function* f() \x7b yield g; \x7d" {}).root.Walk closestOwner none owner n ∧
      (∃ delegate e, n.form = .yield delegate e) ∧ Yields owner := by
  have hpath : ((parse "function* f() \x7b yield g; \x7d" {}).root.follow closestOwner none
      [("statements", 0), ("body", 0), ("statements", 0), ("expression", 0)]).any
      (fun found => found.2.form matches .yield ..) = true := by decide +kernel
  obtain ⟨owner, n, hwalk, hyield⟩ := Node.Walk.exists_of_follow hpath
  have hform : ∃ delegate e, n.form = .yield delegate e := by
    split at hyield
    case h_1 delegate e heq => exact ⟨delegate, e, heq⟩
    case h_2 => cases hyield
  obtain ⟨delegate, e, heq⟩ := hform
  exact ⟨owner, n, hwalk, ⟨delegate, e, heq⟩, (parse_operators_scoped _ _ hwalk).1 _ _ heq⟩

end EcmaSyntax
