import EcmaSyntax.Proofs.Coupling.Speculation
import EcmaSyntax.Proofs.Inertness

/-! # Strictness and the tree

Strictness and web compatibility only tell which early errors are reported, and a node in which
something is reported is marked. But for these marks the trees of a source are the same, as long as no
early error is found in an attempt to read type arguments: an attempt fails on a report. -/
namespace EcmaSyntax
open Parse Grammar

/-! ## Trees but for their marks of errors -/

theorem FlagSet.meets_of_union_eq {α : Type} {s s' t u : FlagSet α} (h : s' ∪ t = s ∪ t)
    (ht : (t ∩ u).isEmpty = true) : s'.meets u = s.meets u := by
  have hmeets (s : FlagSet α) : (s ∪ t).meets u = s.meets u := by
    have hzero : t.bits &&& u.bits = 0 := eq_of_beq ht
    simp only [meets, isEmpty, bits_inter, bits_union, Nat.and_or_distrib_right, hzero, Nat.or_zero]
  rw [← hmeets s', h, hmeets]

/-- Headers that are the same but for the mark of errors. -/
structure Header.Unmarked (h h' : Header) : Prop where
  range_eq : h'.range = h.range
  modifiers_eq : h'.modifiers = h.modifiers
  flags_eq : h'.flags ∪ FlagSet.one NodeFlag.hasErrors = h.flags ∪ FlagSet.one NodeFlag.hasErrors

theorem Header.Unmarked.isAmbient_eq {h h' : Header} (hh : h.Unmarked h') :
    Node.isAmbient h' = Node.isAmbient h := by
  unfold Node.isAmbient
  rw [FlagSet.meets_of_union_eq hh.flags_eq rfl, hh.modifiers_eq]

namespace Node.Matches
variable {n n' : Node}

/-- The features that a node needs by itself do not depend on marks of errors. -/
theorem ownFeatures_eq (h : n.Matches Header.Unmarked n') : n'.ownFeatures = n.ownFeatures := by
  obtain ⟨form, hheader, hform, hform', hchildren⟩ := h
  have hambient := hheader.isAmbient_eq
  obtain ⟨header, _⟩ := n
  obtain ⟨header', _⟩ := n'
  cases hform
  cases hform'
  change header.Unmarked header' at hheader
  change isAmbient header' = isAmbient header at hambient
  have hblock : header'.flags.meets NodeFlag.blockScoped =
      header.flags.meets NodeFlag.blockScoped :=
    FlagSet.meets_of_union_eq hheader.flags_eq rfl
  cases form with
  | formalParameter decorators rest binding optional ascription initializer =>
    have hbinding := (hchildren binding (by simp [Form.children, Form.fields, Field.children]))
    have hmodifiers : header'.modifiers = header.modifiers := hheader.modifiers_eq
    simp only [ownFeatures, Functor.map, Node.form, Node.header, hmodifiers,
      hbinding.isIdentifier_eq, Option.isSome_map]
  | objectLiteral properties =>
    have hproperties : ∀ p ∈ properties, p.2.isSpread = p.1.isSpread := fun p hp =>
      (hchildren p (by simpa [Form.children, Form.fields, Field.children] using hp)).isSpread_eq
    have hany : (properties.map Prod.snd).any isSpread = (properties.map Prod.fst).any isSpread := by
      rw [List.any_map, List.any_map]
      rw [Bool.eq_iff_iff, List.any_eq_true, List.any_eq_true]
      exact exists_congr fun p => and_congr_right fun hp => by
        rw [Function.comp_apply, Function.comp_apply, hproperties p hp]
    exact congrArg (fun b => FlagSet.when b (FlagSet.one TransformFlag.es2018)) hany
  | assignment left operator right =>
    have hleft := (hchildren left (by simp [Form.children, Form.fields, Field.children])).isArrayOrObjectLiteral_eq
    exact congrArg (fun b => FlagSet.unionOf [_, _, FlagSet.when b (FlagSet.one TransformFlag.es2015)]) hleft
  | variableDeclaration name definite ascription initializer =>
    have hname := (hchildren name (by simp [Form.children, Form.fields, Field.children])).isIdentifier_eq
    exact congrArg (fun b => _ ∪ FlagSet.when (!b) (FlagSet.one TransformFlag.es2015)) hname
  | function _ _ _ _ _ _ _ body | method _ _ _ _ _ _ _ _ _ body =>
    simp only [ownFeatures, Functor.map, Node.form, Node.header, hambient, Option.isSome_map]
  | classLike | propertyDefinition | variableStatement =>
    simp only [ownFeatures, Functor.map, Node.form, Node.header, hambient]
  | variableDeclarations =>
    exact congrArg (fun b => FlagSet.when b (FlagSet.one TransformFlag.es2015)) hblock
  | metaProperty word | keyword word => cases word <;> rfl
  | _ => rfl

theorem transformFlags_eq (h : n.Matches Header.Unmarked n') :
    n'.transformFlags = n.transformFlags := by
  induction h with
  | @intro n n' form hheader hform hform' hchildren ih =>
    have hown := ownFeatures_eq (.intro form hheader hform hform' hchildren)
    have hbelow : n'.children.map Node.transformFlags = n.children.map Node.transformFlags := by
      rw [children, children, hform, hform', Form.children_map, Form.children_map, List.map_map,
        List.map_map]
      exact List.map_congr_left ih
    rw [Node.transformFlags_eq, Node.transformFlags_eq n, hown, hbelow]

end Node.Matches

/-! ## Listings -/

/-- The names of the fields in a form do not depend on what stands in them. -/
theorem Form.roles_map {α β : Type} (f : α → β) (form : Form α) :
    ((f <$> form).fields.flatMap fun field => field.children.map fun _ => field.name) =
      form.fields.flatMap fun field => field.children.map fun _ => field.name := by
  cases form <;> simp [Functor.map, Form.map, fields, Field.children, Field.name, getD_map,
    toList_map]

/-- What is listed of a node but for the mark of errors. -/
structure Entry.Unmarked where
  depth : Nat
  role : String
  range : Range
  outline : Outline
  features : TransformFlags
  size : Nat

namespace Entry

def unmarked (e : Entry) : Unmarked where
  depth := e.depth
  role := e.role
  range := e.node.range
  outline := ⟨e.node.header.flags ∪ FlagSet.one NodeFlag.hasErrors, e.node.header.modifiers,
    Node.kind <$> e.node.form⟩
  features := e.features
  size := e.size

end Entry

namespace Node.Matches
variable {n n' : Node}

theorem kinds_eq (h : n.Matches Header.Unmarked n') : kind <$> n'.form = kind <$> n.form := by
  obtain ⟨form, -, hform, hform', hchildren⟩ := h
  rw [hform, hform', ← LawfulFunctor.comp_map, ← LawfulFunctor.comp_map]
  exact Form.map_congr fun p hp => (hchildren p hp).kind_eq

theorem childRoles_eq (h : n.Matches Header.Unmarked n') : n'.childRoles = n.childRoles := by
  obtain ⟨form, -, hform, hform', -⟩ := h
  rw [childRoles, childRoles, hform, hform', Form.roles_map, Form.roles_map]

theorem size_eq (h : n.Matches Header.Unmarked n') :
    (n'.gather measure).size = (n.gather measure).size := by
  induction h with
  | @intro n n' form _ hform hform' _ ih =>
    rw [gather_eq, gather_eq, children, children, hform, hform', Form.children_map,
      Form.children_map]
    refine congrArg (List.foldr (· + ·) 1) ?_
    simp only [List.map_map]
    exact List.map_congr_left ih

theorem unmarked_eq (h : n.Matches Header.Unmarked n') (depth : Nat) (role : String) :
    (Entry.mk depth role n' n'.transformFlags (n'.gather measure).size).unmarked =
      (Entry.mk depth role n n.transformFlags (n.gather measure).size).unmarked := by
  have hrange : n'.range = n.range := h.header.range_eq
  simp only [Entry.unmarked, hrange, h.header.flags_eq, h.header.modifiers_eq, h.kinds_eq,
    h.transformFlags_eq, h.size_eq]

/-- A node is listed before its children, each of them with its role. -/
theorem list_eq {side : Node × Node → Node} {form : Form (Node × Node)}
    (hform : n.form = side <$> form) (role : String) (depth : Nat) (es : Array Entry) :
    (n.gather measure).list role depth es =
      (n.childRoles.zip form.children).foldl
        (fun es part => ((side part.2).gather measure).list part.1 (depth + 1) es)
        (es.push ⟨depth, role, n, (n.gather measure).features, (n.gather measure).size⟩) := by
  have hbelow : n.children.map (gather measure) =
      form.children.map fun p => (side p).gather measure := by
    rw [children, hform, Form.children_map, List.map_map]
    rfl
  rw [gather_eq, hbelow, measure]
  dsimp only
  rw [List.zip_map_right, List.foldl_map]
  rfl

theorem list_unmarked (h : n.Matches Header.Unmarked n') {role : String} {depth : Nat}
    {es es' : Array Entry} (hes : es'.map Entry.unmarked = es.map Entry.unmarked) :
    ((n'.gather measure).list role depth es').map Entry.unmarked =
      ((n.gather measure).list role depth es).map Entry.unmarked := by
  induction h generalizing role depth es es' with
  | @intro n n' form hheader hform hform' hchildren ih =>
    have hmatch : n.Matches Header.Unmarked n' := .intro form hheader hform hform' hchildren
    have hfold (parts : List (String × Node × Node)) (hparts : ∀ part ∈ parts, part.2 ∈ form.children)
        {es es' : Array Entry} (hes : es'.map Entry.unmarked = es.map Entry.unmarked) :
        (parts.foldl (fun es part => (part.2.2.gather measure).list part.1 (depth + 1) es) es').map
            Entry.unmarked =
          (parts.foldl (fun es part => (part.2.1.gather measure).list part.1 (depth + 1) es) es).map
            Entry.unmarked := by
      induction parts generalizing es es' with
      | nil => exact hes
      | cons part rest ihrest =>
        rw [List.forall_mem_cons] at hparts
        exact ihrest hparts.2 (ih part.2 hparts.1 hes)
    have hself := hmatch.unmarked_eq depth role
    rw [← measure_features, ← measure_features] at hself
    rw [list_eq hform', list_eq hform, hmatch.childRoles_eq]
    refine hfold _ (fun part hpart => (List.of_mem_zip hpart).2) ?_
    rw [Array.map_push, Array.map_push, hself, hes]

theorem entries_unmarked (h : n.Matches Header.Unmarked n') :
    n'.entries.map Entry.unmarked = n.entries.map Entry.unmarked :=
  h.list_unmarked rfl

end Node.Matches

/-! ## Whole sources -/

theorem firstToken_held (text : List Char) : (ParseState.firstToken text).Held := by
  have hstop : (ParseState.ofText text).flush.scanner.stop.Sound :=
    (Scanner.skipShebang_reaches text).sound (Cursor.start_sound text)
  have hpending : (ParseState.ofText text).scanner.pending.toList = [] := by
    change (Scanner.ofText text).skipShebang.pending.toList = []
    unfold Scanner.skipShebang
    split
    · split <;> rfl
    · rfl
  refine ⟨inferInstance, Scanner.advance_spelled .expression hstop,
    Scanner.advance_held .expression hstop (fun _ hd => nomatch hd), fun d hd => ?_⟩
  have hsink : (ParseState.firstToken text).sink.toList = [] ++ _ := Sink.toList_extend _ _
  rw [hsink, hpending] at hd
  cases hd

/-- The options with the most early errors. -/
def ParseOptions.strictest (options : ParseOptions) : ParseOptions :=
  { options with impliedStrict := true, webCompat := false }

/-- Read by the strictest options, no attempt at the type arguments of a call finds an early
error. -/
def Steady (source : String) (options : ParseOptions) : Prop :=
  ∀ u, (sourceStatements (.ofOptions options.strictest)).visits (.firstToken source.toList) u →
    u.Steady

theorem strictness_header {h h' : Header} (hh : Coupling.strictness.header h h') : h.Unmarked h' :=
  ⟨hh.range_eq, hh.modifiers_eq, hh.flags_eq⟩

theorem rootHeader_strict (source : String) (sink sink' : Sink) :
    Coupling.strictness.header (rootHeader source sink) (rootHeader source sink') := by
  refine ⟨rfl, Nat.zero_le _, trivial, trivial, rfl, ?_, False.elim⟩
  have habsorb (b : Bool) : FlagSet.when b (FlagSet.one NodeFlag.hasErrors) ∪
      FlagSet.one NodeFlag.hasErrors = FlagSet.one NodeFlag.hasErrors := by
    cases b <;> rfl
  exact (habsorb _).trans (habsorb _).symm

open Coupling in
/-- From the first token on a run by other options leads to the same statements, but for marks of
errors. -/
theorem sourceStatements_strict {source : String} {ctx : Context} (ctx' : Context)
    [strictness.Contexts ctx ctx'] {statements : List Node} {t : ParseState}
    (hsteady : ∀ u, (sourceStatements ctx).visits (.firstToken source.toList) u → u.Steady)
    (hrun : (sourceStatements ctx).run (.firstToken source.toList) = some (statements, t)) :
    ∃ (pairs : List strictness.NodePair) (t' : ParseState), pairs.map NodePair.left = statements ∧
      (sourceStatements ctx').run (.firstToken source.toList) =
        some (pairs.map NodePair.right, t') := by
  have hR : strictness.Recurs top top := strictness_top
  have hfollows : strictness.Follows (sourceStatements ctx) (sourceStatements ctx') :=
    sourceStatements_follows
  have hfirst := firstToken_held source.toList
  obtain ⟨pairs, t', hleft, hright, -⟩ := hfollows _ _ ⟨rfl, rfl, rfl, hfirst, hfirst⟩ hsteady _ _ hrun
  exact ⟨pairs, t', hleft, hright⟩

open Coupling in
theorem parse_matches_strictest {source : String} {options : ParseOptions}
    (hsteady : Steady source options) :
    (parse source options.strictest).root.Matches Header.Unmarked (parse source options).root := by
  have hcontexts : strictness.Contexts (.ofOptions options.strictest) (.ofOptions options) :=
    contexts_ofOptions rfl (.inr ⟨rfl, rfl⟩) (.inr ⟨rfl, rfl⟩) (.inl rfl)
  obtain ⟨_, _, hrun, -⟩ := run_ends source options.strictest
  obtain ⟨⟨statements, t⟩, hstatements, heq⟩ := Option.map_eq_some_iff.mp ((run_eq _ _).symm.trans hrun)
  cases heq
  obtain ⟨pairs, t', rfl, hright⟩ := sourceStatements_strict (.ofOptions options) hsteady
    hstatements
  have hrun' : run source options = some (pairs.map NodePair.right, t'.flush) := by
    rw [run_eq, hright]
    rfl
  rw [parse, parse, hrun, hrun']
  have hheader := rootHeader_strict source t.flush.sink t'.flush.sink
  exact (NodePair.ofForm hheader (.sourceBody options.goal pairs)).matched.mono
    fun _ _ => strictness_header

/-- Whatever the settings for strictness and web compatibility are, a source in which no attempt at
type arguments finds an early error has one tree: what is listed of it is the same but for the marks
of errors. -/
theorem parse_strictness_inert (source : String) (options : ParseOptions)
    (hsteady : Steady source options) (strict webCompat : Bool) :
    (parse source { options with impliedStrict := strict, webCompat := webCompat }).root.entries.map
        Entry.unmarked = (parse source options).root.entries.map Entry.unmarked := by
  have hothers : Steady source { options with impliedStrict := strict, webCompat := webCompat } :=
    hsteady
  rw [(parse_matches_strictest hsteady).entries_unmarked]
  exact (parse_matches_strictest hothers).entries_unmarked

/-- Early errors lie in attempts at type arguments only if there are angle brackets. -/
theorem steady_of_notMem {source : String} (h : '<' ∉ source.toList) (options : ParseOptions) :
    Steady source options :=
  fun _ hu ht => absurd ht (visited_ne_lessThan h hu)

/-- A statement that is an error in strict code. -/
theorem with_strictness_inert : Steady "with (a) b;" {} ∧
    (parse "with (a) b;" { impliedStrict := true, webCompat := true }).root.entries.map
      Entry.unmarked = (parse "with (a) b;" {}).root.entries.map Entry.unmarked :=
  have hsteady := steady_of_notMem (by decide) {}
  ⟨hsteady, parse_strictness_inert _ {} hsteady true true⟩

/-- A call with type arguments, in which a property is named by a function with a statement that is
an error in strict code. Strict code takes the angle brackets for operators. -/
theorem strictness_not_inert :
    (parse "f<\x7b[function()\x7bwith(a)b\x7d]:c\x7d>(d);" { impliedStrict := true }).root.entries.map
        (·.node.kind) ≠
      (parse "f<\x7b[function()\x7bwith(a)b\x7d]:c\x7d>(d);" {}).root.entries.map (·.node.kind) := by
  decide +kernel

end EcmaSyntax
