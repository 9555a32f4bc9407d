import EcmaSyntax.Tree.Listing
import EcmaSyntax.Proofs.Spans
import Mathlib.Tactic.DeriveTraversable

/-! # Features of subtrees

A subtree needs a feature if and only if one of its nodes needs it by itself, and whether a node of
a tree does so can be told from the node without its children, but with their kinds. -/
namespace EcmaSyntax

/-! ## Gathering -/

namespace Node
section Gather
variable {β : Type} (combine : Node → List β → β)

theorem gatherList_eq (ns : List Node) : gatherList combine ns = ns.map (gather combine) := by
  induction ns with
  | nil => rfl
  | cons n rest ih =>
    rw [List.map_cons, ← ih]
    rfl

theorem gatherOption_eq (n : Option Node) :
    gatherOption combine n = n.toList.map (gather combine) := by
  cases n <;> rfl

theorem gatherOptionList_eq (ns : Option (List Node)) :
    gatherOptionList combine ns = (ns.getD []).map (gather combine) := by
  cases ns with
  | none => rfl
  | some ns => exact gatherList_eq combine ns

/-- What is gathered from a form is gathered from its children. -/
theorem gatherForm_eq (form : Form Node) :
    gatherForm combine form = form.children.map (gather combine) := by
  cases form
  all_goals
    simp only [Form.children, Form.fields, Field.children, List.flatMap_cons, List.flatMap_nil,
      List.map_append, List.map_cons, List.map_nil, List.append_nil, List.nil_append,
      ← gatherOption_eq, ← gatherOptionList_eq, ← List.append_assoc]
    try simp only [← gatherList_eq]
    rfl

theorem gather_eq (n : Node) :
    n.gather combine = combine n (n.children.map (gather combine)) := by
  obtain ⟨header, form⟩ := n
  exact congrArg (combine (.mk header form)) (gatherForm_eq combine form)

end Gather

theorem size_lt {n c : Node} (hc : c ∈ n.children) : c.size < n.size := by
  have hsum (sizes : List Nat) (hmem : c.size ∈ sizes) : c.size < sizes.foldr (· + ·) 1 := by
    induction sizes with
    | nil => cases hmem
    | cons size rest ih =>
      rw [List.foldr_cons]
      rcases List.mem_cons.mp hmem with heq | hmem
      · have hpos : 0 < rest.foldr (· + ·) 1 := by
          clear ih hmem heq
          induction rest with
          | nil => exact Nat.one_pos
          | cons size rest ih => exact Nat.add_pos_right size ih
        omega
      · have hlt := ih hmem
        omega
  have hsize : n.size = (n.children.map size).foldr (· + ·) 1 := gather_eq _ n
  rw [hsize]
  exact hsum _ (List.mem_map_of_mem hc)

/-- What holds of a node if it holds of its children holds of every node. -/
theorem induct {P : Node → Prop} (h : ∀ n : Node, (∀ c ∈ n.children, P c) → P n) (n : Node) :
    P n := by
  induction hn : n.size using Nat.strongRecOn generalizing n with
  | _ size ih =>
    subst hn
    exact h n fun c hc => ih c.size (size_lt hc) c rfl

end Node

/-! ## Features of a node and of its subtree -/

theorem FlagSet.has_unionOf {α : Type} [FlagFamily α] (ss : List (FlagSet α)) (a : α) :
    (unionOf ss).has a = ss.any (·.has a) := by
  have hfold (s : FlagSet α) : (ss.foldl (· ∪ ·) s).has a = (s.has a || ss.any (·.has a)) := by
    induction ss generalizing s with
    | nil => simp
    | cons t ss ih => simp [ih, Bool.or_assoc]
  simpa [unionOf] using hfold ∅

namespace Node
variable {n c : Node} {b : TransformFlag}

theorem transformFlags_eq (n : Node) :
    n.transformFlags = n.ownFeatures ∪ .unionOf (n.children.map transformFlags) := gather_eq _ n

theorem transformFlags_has :
    n.transformFlags.has b = (n.ownFeatures.has b || n.children.any (·.transformFlags.has b)) := by
  rw [transformFlags_eq, FlagSet.has_union, FlagSet.has_unionOf, List.any_map]
  rfl

/-- A node needs what its children need, -/
theorem transformFlags_of_child (hc : c ∈ n.children) (hb : c.transformFlags.has b = true) :
    n.transformFlags.has b = true := by
  rw [transformFlags_has, Bool.or_eq_true]
  exact .inr (List.any_eq_true.mpr ⟨c, hc, hb⟩)

/-- and so what any node of its subtree needs by itself, -/
theorem transformFlags_of_within {m : Node} (hm : m.Within n) (hb : m.ownFeatures.has b = true) :
    n.transformFlags.has b = true := by
  suffices h : m.transformFlags.has b = true → n.transformFlags.has b = true by
    refine h ?_
    rw [transformFlags_has, hb, Bool.true_or]
  clear hb
  induction hm with
  | root => exact id
  | child _ hc ih => exact fun hb => ih (transformFlags_of_child hc hb)

/-- and nothing else. -/
theorem exists_of_transformFlags (hb : n.transformFlags.has b = true) :
    ∃ m : Node, m.Within n ∧ m.ownFeatures.has b = true := by
  induction n using induct with
  | _ n ih =>
    rw [transformFlags_has, Bool.or_eq_true] at hb
    rcases hb with hb | hb
    · exact ⟨n, .root, hb⟩
    · obtain ⟨c, hc, hb⟩ := List.any_eq_true.mp hb
      obtain ⟨m, hm, hb⟩ := ih c hc hb
      exact ⟨m, hm.trans (.child .root hc), hb⟩

theorem transformFlags_has_iff :
    n.transformFlags.has b = true ↔ ∃ m : Node, m.Within n ∧ m.ownFeatures.has b = true :=
  ⟨exists_of_transformFlags, fun ⟨_, hm, hb⟩ => transformFlags_of_within hm hb⟩

/-! ## Features in listings -/

theorem measure_features (n : Node) : (n.gather measure).features = n.transformFlags := by
  induction n using induct with
  | _ n ih =>
    rw [gather_eq, transformFlags_eq]
    refine congrArg (fun below => n.ownFeatures ∪ .unionOf below) ?_
    rw [List.map_map]
    exact List.map_congr_left ih

/-- Listing a subtree keeps what holds of the entries so far and of the nodes of the subtree. -/
theorem list_features {role : String} {depth : Nat} {entries : Array Entry}
    (h : ∀ e ∈ entries, e.features = e.node.transformFlags) :
    ∀ e ∈ (n.gather measure).list role depth entries, e.features = e.node.transformFlags := by
  induction n using induct generalizing role depth entries with
  | _ n ih =>
    have hfold (parts : List (String × Measured))
        (hparts : ∀ part ∈ parts, ∃ c ∈ n.children, c.gather measure = part.2)
        (entries : Array Entry) (h : ∀ e ∈ entries, e.features = e.node.transformFlags) :
        ∀ e ∈ parts.foldl (fun entries part => part.2.list part.1 (depth + 1) entries) entries,
          e.features = e.node.transformFlags := by
      induction parts generalizing entries with
      | nil => exact h
      | cons part rest ihrest =>
        obtain ⟨childRole, measured⟩ := part
        rw [List.forall_mem_cons] at hparts
        obtain ⟨⟨c, hc, rfl⟩, hrest⟩ := hparts
        exact ihrest hrest _ (ih c hc h)
    have hself := measure_features n
    rw [gather_eq] at hself ⊢
    refine hfold _ (fun part hpart => List.mem_map.mp (List.of_mem_zip hpart).2) _ fun e he => ?_
    rcases Array.mem_push.mp he with he | rfl
    · exact h e he
    · exact hself

end Node

/-! ## Kinds of children -/

deriving instance Functor for Form

/-- What there is to a node besides the place and the insides of its children: flags, modifiers and
a form over the kinds of the children. -/
structure Outline where
  flags : NodeFlags
  modifiers : ModifierFlags
  form : Form Kind

namespace Node
variable {n : Node}

def outline (n : Node) : Outline := ⟨n.header.flags, n.header.modifiers, kind <$> n.form⟩

/-- The kind of a node tells whether it is a name, a pattern or a spread expression. -/
structure Named (n : Node) : Prop where
  identifier : n.isIdentifier = (n.kind == .identifier)
  pattern : n.isArrayOrObjectLiteral =
    (n.kind == .arrayLiteralExpression || n.kind == .objectLiteralExpression)
  spread : n.isSpread = (n.kind == .spreadElement)

/-- A node that stands for all nodes of a kind. -/
def ofKind (k : Kind) : Node :=
  .mk { range := ⟨0, 0⟩ } <|
    match k with
    | .identifier => .identifier false "" none
    | .arrayLiteralExpression => .arrayLiteral [] false
    | .objectLiteralExpression => .objectLiteral []
    | .spreadElement => .spread (.mk { range := ⟨0, 0⟩ } .omitted)
    | _ => .omitted

theorem ofKind_named (k : Kind) :
    (ofKind k).isIdentifier = (k == .identifier) ∧
    (ofKind k).isArrayOrObjectLiteral =
      (k == .arrayLiteralExpression || k == .objectLiteralExpression) ∧
    (ofKind k).isSpread = (k == .spreadElement) := by
  cases k <;> exact ⟨rfl, rfl, rfl⟩

/-- A node that stands for all nodes of an outline. -/
def ofOutline (o : Outline) : Node :=
  .mk { range := ⟨0, 0⟩, flags := o.flags, modifiers := o.modifiers } (ofKind <$> o.form)

theorem Named.ofKind (h : n.Named) : (ofKind n.kind).isIdentifier = n.isIdentifier ∧
    (ofKind n.kind).isArrayOrObjectLiteral = n.isArrayOrObjectLiteral ∧
    (ofKind n.kind).isSpread = n.isSpread := by
  obtain ⟨hidentifier, hpattern, hspread⟩ := ofKind_named n.kind
  exact ⟨hidentifier.trans h.identifier.symm, hpattern.trans h.pattern.symm,
    hspread.trans h.spread.symm⟩

/-- What a node needs by itself can be told from its outline. -/
theorem ownFeatures_ofOutline (h : ∀ c ∈ n.children, c.Named) :
    (ofOutline n.outline).ownFeatures = n.ownFeatures := by
  obtain ⟨header, form⟩ := n
  change ∀ c ∈ form.children, c.Named at h
  cases form with
  | formalParameter decorators rest binding optional ascription initializer =>
    have hbinding := (h binding (by simp [Form.children, Form.fields, Field.children])).ofKind.1
    cases initializer <;>
      exact congrArg (fun b => _ ∪ FlagSet.when (rest || _ || !b) (FlagSet.one TransformFlag.es2015)) hbinding
  | objectLiteral properties =>
    have hnamed : ∀ c ∈ properties, c.Named := fun c hc =>
      h c (by simpa [Form.children, Form.fields, Field.children] using hc)
    have hany : ((properties.map kind).map ofKind).any isSpread = properties.any isSpread := by
      rw [List.any_map, List.any_map, Bool.eq_iff_iff, List.any_eq_true, List.any_eq_true]
      exact exists_congr fun c => and_congr_right fun hc => (hnamed c hc).ofKind.2.2 ▸ Iff.rfl
    exact congrArg (fun b => FlagSet.when b (FlagSet.one TransformFlag.es2018)) hany
  | assignment left operator right =>
    have hleft := (h left (by simp [Form.children, Form.fields, Field.children])).ofKind.2.1
    exact congrArg (fun b => FlagSet.unionOf [_, _, FlagSet.when b (FlagSet.one TransformFlag.es2015)]) hleft
  | variableDeclaration name definite ascription initializer =>
    have hname := (h name (by simp [Form.children, Form.fields, Field.children])).ofKind.1
    exact congrArg (fun b => _ ∪ FlagSet.when (!b) (FlagSet.one TransformFlag.es2015)) hname
  | function _ _ _ _ _ _ _ body | method _ _ _ _ _ _ _ _ _ body => cases body <;> rfl
  | metaProperty word => cases word <;> rfl
  | _ => rfl

end Node

/-! ## Kinds of nodes that have been read -/

/-- A form whose kind is that of a token is a name, a literal or a keyword. -/
def Form.Classified : Form Node → Prop
  | .literal k _ _ => k.isLiteralToken = true
  | .keyword k => k.isAnyKeyword = true
  | .keywordType k => k.isKeywordType = true
  | _ => True

variable {faulty : Prop} {ph : Phrase} {ctx : Context} {form : Form Node} {ps : List Part}

theorem Production.classified (h : Production faulty ph ctx form ps) : form.Classified := by
  cases h <;> first | assumption | trivial

theorem Absence.classified (h : Absence form ps) : form.Classified := by
  cases h <;> trivial

theorem Leaf.classified {r : Reading} (h : Leaf faulty r ph ctx form) : form.Classified := by
  have hname : (Grammar.nameForm r).Classified := by
    unfold Grammar.nameForm
    split <;> trivial
  cases h <;> first | exact hname | assumption | trivial

theorem Form.Classified.named (h : form.Classified) (header : Header) :
    (Node.mk header form).Named := by
  have htoken {test : Kind → Bool} {k : Kind} (hk : test k = true)
      (hnone : [Kind.identifier, .arrayLiteralExpression, .objectLiteralExpression,
        .spreadElement].all (!test ·) = true) :
      (k == .identifier) = false ∧ (k == .arrayLiteralExpression) = false ∧
        (k == .objectLiteralExpression) = false ∧ (k == .spreadElement) = false := by
    refine ⟨?_, ?_, ?_, ?_⟩ <;>
    · rw [beq_eq_false_iff_ne]
      rintro rfl
      simp [hk] at hnone
  cases form with
  | literal k | keyword k | keywordType k =>
    obtain ⟨h₁, h₂, h₃, h₄⟩ := htoken h rfl
    exact ⟨h₁.symm, (congrArg₂ or h₂ h₃).symm, h₄.symm⟩
  | identifier isPrivate => cases isPrivate <;> exact ⟨rfl, rfl, rfl⟩
  | sourceBody sort | signature sort | wrappedType sort | combinedType sort | function sort
  | typeAssertion sort | classLike sort | method sort | variableStatement sort | forEach sort
  | jump sort | namespaceBinding sort | namedSpecifiers sort | specifier sort | jsxOpening sort =>
    cases sort <;> exact ⟨rfl, rfl, rfl⟩
  | caseClause expression => cases expression <;> exact ⟨rfl, rfl, rfl⟩
  | _ => exact ⟨rfl, rfl, rfl⟩

theorem Parsed.named {p : Part} (h : Parsed faulty p) : ∀ n : Node, n.Within p.node → n.Named :=
  h.forall_within (fun hp _ => hp.classified.named _) (fun hl => hl.classified.named _)
    (fun ha => ha.classified.named _) (fun _ => ⟨rfl, rfl, rfl⟩) (fun _ _ => ⟨rfl, rfl, rfl⟩)
    fun _ _ => ⟨rfl, rfl, rfl⟩

/-- In a tree, kinds of nodes tell what the nodes are. -/
theorem parse_named (source : String) (options : ParseOptions) {n : Node}
    (hn : n.Within (parse source options).root) : n.Named := by
  rcases parse_within hn with ⟨header, statements, rfl⟩ | ⟨p, hp, hin⟩
  · have hbody : (Form.sourceBody options.goal statements).Classified := trivial
    exact hbody.named header
  · exact hp.named n hin

/-- The features of a subtree are those that its nodes contribute. -/
structure Node.FeaturesExact (n : Node) : Prop where
  contributed : ∀ b, n.transformFlags.has b = true ↔
    ∃ m : Node, m.Within n ∧ m.ownFeatures.has b = true
  inherited : ∀ c ∈ n.children, ∀ b, c.transformFlags.has b = true → n.transformFlags.has b = true
  listed : ∀ e ∈ n.entries, e.features = e.node.transformFlags
  /-- What a node contributes depends on its outline alone. -/
  intrinsic : ∀ (source : String) (options : ParseOptions) (m : Node),
    m.Within (parse source options).root → m.outline = n.outline → m.ownFeatures = n.ownFeatures

theorem parse_features_exact (source : String) (options : ParseOptions) {n : Node}
    (hn : n.Within (parse source options).root) : n.FeaturesExact where
  contributed _ := Node.transformFlags_has_iff
  inherited _ hc _ := Node.transformFlags_of_child hc
  listed := Node.list_features nofun
  intrinsic source' options' m hm houtline := by
    have hnamed {source : String} {options : ParseOptions} {n : Node}
        (hn : n.Within (parse source options).root) : ∀ c ∈ n.children, c.Named :=
      fun c hc => parse_named source options (.child hn hc)
    rw [← Node.ownFeatures_ofOutline (hnamed hm), houtline, Node.ownFeatures_ofOutline (hnamed hn)]

/-- An object literal with a spread expression, which makes it contribute. -/
theorem spread_object_features_exact : ∃ n : Node, n.Within (parse "(\x7b...a\x7d);" {}).root ∧
    n.ownFeatures.has .es2018 = true ∧ n.FeaturesExact := by
  have hfind : ((parse "(\x7b...a\x7d);" {}).root.at? [("statements", 0), ("expression", 0),
      ("expression", 0)]).any (·.ownFeatures.has .es2018) = true := by decide +kernel
  obtain ⟨n, hn, hown⟩ := Node.within_of_any hfind
  exact ⟨n, hn, hown, parse_features_exact _ _ hn⟩

end EcmaSyntax
