import EcmaSyntax.Proofs.Places.Seat

/-! # Trees in which everything is in place

Declarations stand for few phrases, unless something has been reported. So whatever is read in a
context is in place wherever the context permits it, and where nothing is reported a whole source
is. -/
namespace EcmaSyntax
open Part

/-! ## Declarations -/

namespace Phrase

/-- The phrases in a list of statements, of a module or elsewhere. -/
def isListed : Phrase → Bool
  | .declaration | .item _ => true
  | _ => false

/-- The phrases for which a declaration that a block alone may hold can stand. -/
def isScoped : Phrase → Bool
  | .classLike .declaration | .variableStatement true => true
  | ph => ph.isListed

/-- The phrases for which a declaration can stand. -/
def declares : Phrase → Bool
  | .function .declaration | .statement _ => true
  | ph => ph.isScoped

variable {ph ph' : Phrase}

theorem declares_of_isScoped (h : ph.isScoped = true) : ph.declares = true := by
  cases ph <;> first | rfl | exact h | cases h

theorem isScoped_of_isListed (h : ph.isListed = true) : ph.isScoped = true := by
  cases ph <;> first | rfl | cases h

theorem isListed_of_choice (h : ph ∈ ph'.choices) (hph : ph.declares = true) :
    ph'.isListed = true := by
  revert ph
  cases ph'
  case item inModule => cases inModule <;> simp [choices, isListed]
  all_goals simp [choices, declares, isScoped, isListed]

theorem isPort_of_choice (h : ph ∈ ph'.choices) (hph : ph.isPort = true) : ph'.isPort = true := by
  revert ph
  cases ph'
  case item inModule => cases inModule <;> simp [choices, isPort]
  all_goals simp [choices, isPort]

end Phrase

/-- A form may stand for a phrase: declarations do so in few places. -/
structure Form.StandsFor (form : Form Node) (ph : Phrase) (ctx : Context) : Prop where
  function : form.isFunctionDeclaration = true → ph.declares = true ∧
    ∀ site, ph = .statement site → Grammar.misplacedFunction? ctx site = none
  declaration : form.isScopedDeclaration = true → ph.isScoped = true
  port : form.isPort = true → ph.isPort = true

section Clean
variable {faulty : Prop} {ph ph' : Phrase} {ctx ctx' : Context} {form : Form Node} {n : Node}

namespace Form.StandsFor

theorem isPort_eq_false (h : form.StandsFor ph ctx) (hp : ph.isPort = false) :
    form.isPort = false :=
  Bool.eq_false_iff.mpr fun hform => Bool.eq_false_iff.mp hp (h.port hform)

theorem of_plain (hfunction : form.isFunctionDeclaration = false)
    (hscoped : form.isScopedDeclaration = false) (hport : form.isPort = false) :
    form.StandsFor ph ctx := by
  constructor <;> simp [*]

/-- What stands for a phrase that no declaration stands for is none. -/
theorem elsewhere (h : form.StandsFor ph ctx)
    (hd : ph.declares = false) (hp : ph.isPort = false) :
    form.StandsFor ph' ctx' := by
  refine of_plain (Bool.eq_false_iff.mpr fun hform => ?_) (Bool.eq_false_iff.mpr fun hform => ?_)
    (h.isPort_eq_false hp)
  · exact Bool.eq_false_iff.mp hd (h.function hform).1
  · exact Bool.eq_false_iff.mp hd (Phrase.declares_of_isScoped (h.declaration hform))

theorem choose (h : form.StandsFor ph ctx) (hs : ph ∈ ph'.choices) : form.StandsFor ph' ctx := by
  have hlisted := Phrase.isListed_of_choice hs
  refine ⟨fun hform => ?_, fun hform => ?_, fun hform => Phrase.isPort_of_choice hs (h.port hform)⟩
  · have hph' := hlisted (h.function hform).1
    refine ⟨Phrase.declares_of_isScoped (Phrase.isScoped_of_isListed hph'), ?_⟩
    rintro site rfl
    cases hph'
  · exact Phrase.isScoped_of_isListed (hlisted (Phrase.declares_of_isScoped (h.declaration hform)))

theorem deeper (h : form.StandsFor ph.body ctx) : form.StandsFor ph ctx := by
  cases ph with
  | assignment | coverElement => exact h.elsewhere rfl rfl
  | _ => exact h

end Form.StandsFor

theorem Production.standsFor {ps : List Part} (h : Production faulty ph ctx form ps) :
    form.StandsFor ph ctx := by
  cases h
  case function placement _ _ _ _ _ _ _ =>
    cases placement
    · exact ⟨fun _ => ⟨rfl, nofun⟩, nofun, nofun⟩
    · exact .of_plain rfl rfl rfl
  case classLike placement _ _ _ _ _ _ =>
    cases placement
    · exact ⟨nofun, fun _ => rfl, nofun⟩
    · exact .of_plain rfl rfl rfl
  case variableStatement lexical _ =>
    cases lexical
    · exact .of_plain rfl rfl rfl
    · exact ⟨nofun, fun _ => rfl, nofun⟩
  all_goals first | exact .of_plain rfl rfl rfl | exact ⟨nofun, nofun, fun _ => rfl⟩

theorem Leaf.standsFor {r : Reading} (h : Leaf faulty r ph ctx form) : form.StandsFor ph ctx := by
  have hname : (Grammar.nameForm r).StandsFor ph ctx := by
    unfold Grammar.nameForm
    split <;> exact .of_plain rfl rfl rfl
  cases h <;> first | exact hname | exact .of_plain rfl rfl rfl

theorem Serves.standsFor (hclean : ¬ faulty) (hs : Serves faulty n ph ctx ph' ctx')
    (h : n.form.StandsFor ph ctx) : n.form.StandsFor ph' ctx' := by
  cases hs with
  | choice hs => exact h.choose hs
  | functionBody hs =>
    refine ⟨fun _ => ⟨rfl, ?_⟩, fun hform => ?_, fun hform => ?_⟩
    · rintro site ⟨⟩
      exact hs.resolve_left hclean
    · cases h.declaration hform
    · cases h.port hform
  | classBody hs | innerImport hs | innerExport hs => exact absurd hs hclean
  | _ => exact h.elsewhere rfl rfl

/-- Whatever has been read may stand for its phrase. -/
theorem Parsed.standsFor {p : Part} (hclean : ¬ faulty) (h : Parsed faulty p) :
    p.node.form.StandsFor p.phrase p.ctx := by
  induction h with
  | node hp => exact hp.standsFor
  | leaf _ hl => exact hl.standsFor
  | missing hf => exact absurd hf hclean
  | serve _ hs ih => exact hs.standsFor hclean ih
  | simple | parenthesized => exact .of_plain rfl rfl rfl
  | deeper _ ih => exact .deeper ih

end Clean

/-! ## Nodes -/

/-- A part is read in a place that its context knows. A name in a context of its own is so in every
place. -/
structure Part.Fits (options : ParseOptions) (place : Place) (p : Part) : Prop where
  within : p.phrase ≠ .identifier → p.ctx.seat.Within (place.seat options)
  allows : p.phrase.allows place.directed = true

theorem Part.Fits.body {options : ParseOptions} {place : Place} {ph : Phrase} {ctx : Context}
    {n : Node} (h : Part.Fits options place ⟨ph, ctx, n⟩) :
    Part.Fits options place ⟨ph.body, ctx, n⟩ := by
  cases ph with
  | assignment | coverElement => exact ⟨fun _ => h.within nofun, rfl⟩
  | _ => exact h

section Clean
variable {faulty : Prop} {options : ParseOptions} {place : Place}
variable {ph : Phrase} {ctx : Context} {form : Form Node} {n : Node}

theorem misplacedFunction_eq_none {site : StatementSite}
    (h : Grammar.misplacedFunction? ctx site = none) :
    ctx.isStrict = false ∧ ctx.has .withoutWebCompat = false ∧ site ≠ .plain := by
  unfold Grammar.misplacedFunction? at h
  grind

/-- What is read as an edge demands, in a place that the context knows, is in place. -/
structure Part.Behind (options : ParseOptions) (place : Place) (n : Node) (name : String)
    (before : List Node) (p : Part) : Prop where
  fits : p.Fits options (place.across n name before)
  suits : p.phrase.Suits n.form name
  standsFor : p.node.form.StandsFor p.phrase p.ctx

theorem Node.InPlace.of_behind (hreturned : ∀ e, n.form = .returnStatement e → place.returns = true)
    (hsloppy : ∀ e body, n.form = .withStatement e body → place.strict = false)
    (hprivate : ∀ text word, n.form = .identifier true text word → place.inMember = true)
    (h : ∀ name before c, n.Edge name before c →
      ∃ p : Part, p.node = c ∧ p.Behind options place n name before) : n.InPlace options place where
  returned := hreturned
  sloppy := hsloppy
  privateNames := hprivate
  functions name before c he hc := by
    obtain ⟨p, rfl, hp⟩ := h name before c he
    have hsite := (hp.standsFor.function hc).2
    refine ⟨fun hloop => ?_, fun hbranch => ?_⟩
    · exact (misplacedFunction_eq_none (hsite _ (hp.suits.loop hloop))).2.2 rfl
    · obtain ⟨site, hph⟩ := hp.suits.branch hbranch
      obtain ⟨hstrict, hcompat, -⟩ := misplacedFunction_eq_none (hsite site hph)
      have hwithin := hp.fits.within (by simp [hph])
      refine ⟨Bool.eq_false_iff.mpr fun hs => ?_, hwithin.isCompatible (by simp [Context.seat, hcompat])⟩
      have hctx := hwithin.strict (by simp [Place.seat, Place.across, hs])
      simp [Context.seat, hstrict] at hctx
  declarations name before c he hc := by
    obtain ⟨p, rfl, hp⟩ := h name before c he
    have hscoped := hp.standsFor.declaration hc
    refine ⟨fun hloop => ?_, fun hbranch => ?_⟩
    · rw [hp.suits.loop hloop] at hscoped
      cases hscoped
    · obtain ⟨site, hph⟩ := hp.suits.branch hbranch
      rw [hph] at hscoped
      cases hscoped
  ports name before c he hc := by
    obtain ⟨p, rfl, hp⟩ := h name before c he
    exact hp.suits.port (hp.standsFor.port hc)

theorem Node.Placed.of_behind (hreturned : ∀ e, n.form = .returnStatement e → place.returns = true)
    (hsloppy : ∀ e body, n.form = .withStatement e body → place.strict = false)
    (hprivate : ∀ text word, n.form = .identifier true text word → place.inMember = true)
    (h : ∀ name before c, n.Edge name before c →
      ∃ p : Part, p.node = c ∧ p.Behind options place n name before ∧
        ∀ place', p.Fits options place' → p.node.Placed options place') : n.Placed options place := by
  refine .intro (.of_behind hreturned hsloppy hprivate fun name before c he => ?_)
    fun name before c he => ?_
  · obtain ⟨p, hp, hbehind, -⟩ := h name before c he
    exact ⟨p, hp, hbehind⟩
  · obtain ⟨p, rfl, hbehind, hplaced⟩ := h name before c he
    exact hplaced _ hbehind.fits

/-- Behind every edge of a node stands a part of it, in a place that its context knows. -/
theorem Production.behind {h : Header} {ps : List Part} (hp : Production faulty ph ctx form ps)
    (hfits : Part.Fits options place ⟨ph, ctx, .mk h form⟩) {name : String} {before : List Node}
    {c : Node} (he : (Node.mk h form).Edge name before c) :
    ∃ p ∈ ps, p.node = c ∧ p.Fits options (place.across (.mk h form) name before) ∧
      p.phrase.Suits form name := by
  have hwithin := hfits.within hp.phrase_ne_identifier
  cases hbody : form.isBody
  case false =>
    obtain ⟨p, hmem, hseated⟩ := exists_of_forall₂ (hp.seats hbody) he.mem_edges
    have hacross : (ctx.seat.across (Node.mk h form).form name).Within
        ((place.across (.mk h form) name before).seat options) := hwithin.across fun _ => hbody
    exact ⟨p, hmem, hseated.node_eq, ⟨fun hph => (hseated.within hph).trans hacross, hseated.allows⟩,
      hseated.suits⟩
  case true =>
    cases hp <;> cases hbody
    case block directives ss =>
      obtain ⟨field, hfield, rfl, after, hchildren⟩ := he
      obtain rfl : field = .many "statements" ss := List.mem_singleton.mp hfield
      obtain rfl : ss = before ++ c :: after := hchildren
      obtain rfl : directives = place.directed := eq_of_beq hfits.allows
      have hpush := push_within ⟨ctx, place.directed, #[]⟩ before hwithin
      refine ⟨_, mem_body, rfl, ⟨fun _ => ?_, ?_⟩, ?_⟩
      · simpa [Place.seat, Place.across, Node.form, Form.functionBodies, Form.setups,
          Form.classParts, Form.memberFields, Form.isBody] using hpush
      · simp [Place.across, Node.form, Form.functionBodies, Phrase.allows]
      · simp [Phrase.suits_iff, Form.loopBodies, Form.branches, Phrase.isPort]

theorem Production.placed {h : Header} {ps : List Part} (hclean : ¬ faulty)
    (hp : Production faulty ph ctx form ps) (hparts : ∀ p ∈ ps, Parsed faulty p)
    (ih : ∀ p ∈ ps, ∀ place, p.Fits options place → p.node.Placed options place)
    (hfits : Part.Fits options place ⟨ph, ctx, .mk h form⟩) :
    (Node.mk h form).Placed options place := by
  have hwithin := hfits.within hp.phrase_ne_identifier
  refine .of_behind ?_ ?_ ?_ fun name before c he => ?_
  · rintro e ⟨⟩
    cases hp with
    | returnStatement hctx => exact hwithin.returns (hctx.resolve_left hclean)
  · rintro e body ⟨⟩
    cases hp with
    | withStatement hctx =>
      refine Bool.eq_false_iff.mpr fun hs => ?_
      exact Bool.eq_false_iff.mp (hctx.resolve_left hclean) (hwithin.strict hs)
  · rintro text word ⟨⟩
    cases hp
  · obtain ⟨p, hmem, rfl, hfits, hsuits⟩ := hp.behind hfits he
    exact ⟨p, rfl, ⟨hfits, hsuits, (hparts p hmem).standsFor hclean⟩, ih p hmem⟩

theorem token_of_private {r : Reading} {text : String} {word : Option Kind}
    (h : Grammar.nameForm r = .identifier true text word) : r.token = .privateIdentifier := by
  unfold Grammar.nameForm at h
  split at h <;> first | assumption | cases h

/-- A private name is read as such. -/
theorem Leaf.of_private {r : Reading} {text : String} {word : Option Kind}
    (hl : Leaf faulty r ph ctx form) (hform : form = .identifier true text word) :
    ph = .privateName ∧ (faulty ∨ ctx.has .classBody = true) := by
  cases hl with
  | privateName _ hctx => exact ⟨rfl, hctx⟩
  | identifier hk | name hk | entityName hk | subject hk | thisName hk =>
    rw [token_of_private hform] at hk
    cases hk
  | word hk => simp [token_of_private hform] at hk
  | literal | keyword | childText => cases hform

theorem Leaf.placed {h : Header} {r : Reading} (hclean : ¬ faulty) (hl : Leaf faulty r ph ctx form)
    (hfits : Part.Fits options place ⟨ph, ctx, .mk h form⟩) :
    (Node.mk h form).Placed options place := by
  have hname : (Grammar.nameForm r).edges = [] ∧ (∀ e, Grammar.nameForm r ≠ .returnStatement e) ∧
      ∀ e body, Grammar.nameForm r ≠ .withStatement e body := by
    unfold Grammar.nameForm
    split <;> exact ⟨rfl, nofun, nofun⟩
  obtain ⟨hedges, hreturn, hwith⟩ : form.edges = [] ∧ (∀ e, form ≠ .returnStatement e) ∧
      ∀ e body, form ≠ .withStatement e body := by
    cases hl <;> first | exact hname | exact ⟨rfl, nofun, nofun⟩
  refine .of_behind (fun e heq => absurd heq (hreturn e))
    (fun e body heq => absurd heq (hwith e body)) (fun text word heq => ?_) fun name before c he => ?_
  · obtain ⟨rfl, hctx⟩ := hl.of_private heq
    exact (hfits.within nofun).inMember (hctx.resolve_left hclean)
  · have hmem := he.mem_edges
    simp [Node.form, hedges] at hmem

theorem Phrase.allows_of_choice {ph' : Phrase} {directed : Bool} (h : ph ∈ ph'.choices)
    (hallows : ph'.allows directed = true) : ph.allows directed = true := by
  revert ph
  cases ph'
  case item inModule => cases inModule <;> simpa [choices, allows] using hallows
  all_goals simp_all [choices, allows]

theorem Serves.fits {ph' : Phrase} {ctx' : Context} (hclean : ¬ faulty)
    (hs : Serves faulty n ph ctx ph' ctx') (h : Part.Fits options place ⟨ph', ctx', n⟩) :
    Part.Fits options place ⟨ph, ctx, n⟩ := by
  cases hs with
  | choice hs =>
    refine ⟨fun _ => h.within ?_, Phrase.allows_of_choice hs h.allows⟩
    rintro ⟨⟩
    cases hs
  | enclosed => exact ⟨fun _ => ctx'.seat_enclosed ▸ h.within nofun, rfl⟩
  | asyncParameter => exact ⟨nofun, rfl⟩
  | classBody hs | innerImport hs | innerExport hs => exact absurd hs hclean
  | _ => exact ⟨fun _ => h.within nofun, rfl⟩

theorem Node.Placed.child {name : String} {before : List Node} {c : Node}
    (h : n.Placed options place) (hbody : n.form.isBody = false) (he : n.Edge name before c) :
    c.form.isPort = false ∧ c.Placed options (place.across n name before) := by
  obtain ⟨hplace, hinner⟩ := h
  refine ⟨Bool.eq_false_iff.mpr fun hport => ?_, hinner _ _ _ he⟩
  obtain ⟨statements, heq⟩ := hplace.ports _ _ _ he hport
  simp [heq, Form.isBody] at hbody

/-- A node whose children are all placed alike. -/
theorem Node.Placed.plain (hloop : n.form.loopBodies = []) (hbranch : n.form.branches = [])
    (hreturn : ∀ e, n.form ≠ .returnStatement e) (hwith : ∀ e body, n.form ≠ .withStatement e body)
    (hprivate : ∀ text word, n.form ≠ .identifier true text word)
    (h : ∀ name before c, n.Edge name before c →
      c.form.isPort = false ∧ c.Placed options (place.across n name before)) :
    n.Placed options place := by
  refine .intro ⟨fun e heq => absurd heq (hreturn e), fun e body heq => absurd heq (hwith e body),
    fun name _ _ _ _ => ?_, fun name _ _ _ _ => ?_, fun text word heq => absurd heq (hprivate _ _),
    fun name before c he hport => ?_⟩ fun name before c he => (h name before c he).2
  · simp [hloop, hbranch]
  · simp [hloop, hbranch]
  · rw [(h name before c he).1] at hport
    cases hport

/-- An expression that is placed within another one. -/
structure Place.Holds (options : ParseOptions) (place : Place) (n : Node) : Prop where
  no_port : n.form.isPort = false
  placed : n.Placed options { place with directed := false }

theorem Place.across_expression (name : String) (before : List Node)
    (h : n.form.functionBodies = [] ∧ n.form.setups = [] ∧ n.form.classParts = [] ∧
      n.form.memberFields = [] ∧ n.form.isBody = false) :
    place.across n name before = { place with directed := false } := by
  simp [Place.across, h]

/-- A node that has nothing but expressions below it. -/
theorem Node.Placed.of_holds (hloop : n.form.loopBodies = []) (hbranch : n.form.branches = [])
    (hreturn : ∀ e, n.form ≠ .returnStatement e) (hwith : ∀ e body, n.form ≠ .withStatement e body)
    (hprivate : ∀ text word, n.form ≠ .identifier true text word)
    (hfields : n.form.functionBodies = [] ∧ n.form.setups = [] ∧ n.form.classParts = [] ∧
      n.form.memberFields = [] ∧ n.form.isBody = false)
    (h : ∀ e ∈ n.form.edges, place.Holds options e.2) : n.Placed options place := by
  refine .plain hloop hbranch hreturn hwith hprivate fun name before c he => ?_
  obtain ⟨hport, hplaced⟩ := h _ he.mem_edges
  exact ⟨hport, Place.across_expression name before hfields ▸ hplaced⟩

namespace Grammar

theorem holds_child {name : String} {before : List Node} {c : Node} (hn : n.Placed options place)
    (h : n.form.functionBodies = [] ∧ n.form.setups = [] ∧ n.form.classParts = [] ∧
      n.form.memberFields = [] ∧ n.form.isBody = false)
    (he : n.Edge name before c) : place.Holds options c := by
  obtain ⟨hport, hplaced⟩ := hn.child h.2.2.2.2 he
  exact ⟨hport, Place.across_expression name before h ▸ hplaced⟩

theorem placed_joined {left right : Node} (hleft : place.Holds options left)
    (hright : place.Holds options right) : place.Holds options (commaJoined left right) := by
  refine ⟨rfl, .of_holds rfl rfl nofun nofun nofun ⟨rfl, rfl, rfl, rfl, rfl⟩ fun e he => ?_⟩
  simp [commaJoined, Node.form, Form.edges, Form.fields, Field.children, Field.name] at he
  rcases he with rfl | rfl
  · exact ⟨hleft.no_port, hleft.placed⟩
  · exact ⟨hright.no_port, hright.placed⟩

theorem placed_simpleParameters (h : place.Holds options n) :
    (simpleParameters n).Placed options place := by
  refine .of_holds rfl rfl nofun nofun nofun ⟨rfl, rfl, rfl, rfl, rfl⟩ fun e he => ?_
  simp [simpleParameters, Node.form, Form.edges, Form.fields, Field.children, Field.name] at he
  exact he ▸ h

theorem placed_parenthesized {header : Header} (h : place.Holds options n) :
    (Node.mk header (.parenthesized n)).Placed options place := by
  refine .of_holds rfl rfl nofun nofun nofun ⟨rfl, rfl, rfl, rfl, rfl⟩ fun e he => ?_
  simp [Node.form, Form.edges, Form.fields, Field.children, Field.name] at he
  exact he ▸ h

theorem placed_element {arguments e : Node} (h : arguments.Placed options place)
    (he : e ∈ argumentElements arguments) : place.Holds options (elementExpression e) := by
  have helement : place.Holds options e := by
    unfold argumentElements at he
    split at he
    case h_1 elements comma hform =>
      obtain ⟨before, after, rfl⟩ := List.append_of_mem he
      have hedge : arguments.Edge "elements" before e :=
        ⟨.many "elements" _, hform ▸ List.mem_cons_self, rfl, after, rfl⟩
      exact holds_child h (by rw [hform]; exact ⟨rfl, rfl, rfl, rfl, rfl⟩) hedge
    case h_2 => cases he
  unfold elementExpression
  split
  case h_1 binding _ _ _ hform =>
    have hedge : e.Edge "binding" [] binding :=
      ⟨.one "binding" binding, by simp [hform, Form.fields], rfl, [], rfl⟩
    obtain ⟨hport, hplaced⟩ :=
      holds_child helement.placed (by rw [hform]; exact ⟨rfl, rfl, rfl, rfl, rfl⟩) hedge
    exact ⟨hport, hplaced⟩
  case h_2 => exact helement

theorem Regrouped.placed {u : ParseState} {arguments inner : Node}
    (h : arguments.Placed options place) (hr : Regrouped u arguments inner) :
    place.Holds options inner := by
  refine hr.induct (fun _ _ => placed_joined) (fun e he => placed_element h he) fun _ => ?_
  exact ⟨rfl, .of_holds rfl rfl nofun nofun nofun ⟨rfl, rfl, rfl, rfl, rfl⟩ nofun⟩

end Grammar

/-- Whatever has been read is placed wherever its context allows. -/
theorem Parsed.placed {p : Part} (hclean : ¬ faulty) (h : Parsed faulty p) :
    ∀ place, p.Fits options place → p.node.Placed options place := by
  induction h with
  | node hp hparts ih => exact fun place hfits => hp.placed hclean hparts ih hfits
  | leaf _ hl => exact fun place hfits => hl.placed hclean hfits
  | missing hf => exact absurd hf hclean
  | serve _ hs ih => exact fun place hfits => ih place (hs.fits hclean hfits)
  | @simple ctx n hn ih =>
    intro place hfits
    refine Grammar.placed_simpleParameters ⟨(hn.standsFor hclean).isPort_eq_false rfl, ?_⟩
    exact ih _ ⟨fun _ => hfits.within nofun, rfl⟩
  | @parenthesized _ _ ctx _ inner _ _ hr ih =>
    intro place hfits
    have harguments := ih place ⟨fun _ => hfits.within nofun, rfl⟩
    exact Grammar.placed_parenthesized (hr.placed harguments)
  | deeper _ ih => exact fun place hfits => ih place hfits.body

end Clean

/-! ## Sources -/

theorem seat_ofOptions (options : ParseOptions) :
    (Context.ofOptions options).seat.Within ((Place.ofOptions options).seat options) := by
  obtain ⟨goal, strict, compat, jsx⟩ := options
  rw [Seat.within_iff]
  cases goal <;> cases strict <;> cases compat <;> cases jsx <;> decide

theorem isModule_ofOptions (options : ParseOptions) :
    (Context.ofOptions options).isModule = (options.goal == .module) := by
  obtain ⟨goal, strict, compat, jsx⟩ := options
  cases goal <;> cases strict <;> cases compat <;> cases jsx <;> rfl

/-- Where nothing is reported, all nodes of a tree are in place. -/
theorem parse_placed (source : String) (options : ParseOptions)
    (hclean : (parse source options).diagnostics = ∅) :
    (parse source options).root.Placed options (.ofOptions options) := by
  obtain ⟨h, statements, hroot, hparsed⟩ := parse_parsed source options
  rw [hroot]
  refine .of_behind nofun nofun nofun fun name before c he => ?_
  obtain ⟨field, hfield, rfl, after, hchildren⟩ := he
  obtain rfl : field = .many "statements" statements := List.mem_singleton.mp hfield
  obtain rfl : statements = before ++ c :: after := hchildren
  have hp := hparsed _ mem_body
  have hpush := push_within ⟨.ofOptions options, true, #[]⟩ before (seat_ofOptions options)
  refine ⟨_, rfl, ⟨⟨fun _ => ?_, ?_⟩, ?_, hp.standsFor (by simp [hclean])⟩,
    hp.placed (by simp [hclean])⟩
  · simpa [Place.seat, Place.across, Place.ofOptions, Node.form, Form.functionBodies, Form.setups,
      Form.classParts, Form.memberFields, Form.isBody] using hpush
  · simp [Place.across, Node.form, Form.functionBodies, Phrase.allows]
  · refine ⟨(by rintro ⟨⟩), (by rintro ⟨⟩), fun hport => ⟨before ++ c :: after, ?_⟩⟩
    have hmodule : (Context.ofOptions options).isModule = true := by
      cases hm : (Context.ofOptions options).isModule <;> simp_all [Phrase.isPort]
    rw [isModule_ofOptions, beq_iff_eq] at hmodule
    rw [Node.form, hmodule]

/-- Where nothing is reported, every node is in place. -/
theorem parse_inPlace (source : String) (options : ParseOptions)
    (hclean : (parse source options).diagnostics = ∅) {place : Place} {n : Node}
    (hn : (parse source options).root.Walk Place.across (.ofOptions options) place n) :
    n.InPlace options place := by
  obtain ⟨hplace, -⟩ := hn.placed (parse_placed source options hclean)
  exact hplace

/-- A `return` behind a function that is a branch. -/
theorem branch_inPlace :
    (parse "function f() \x7b if (a) function g() \x7b\x7d return a; \x7d" {}).diagnostics = ∅ ∧
      ∃ (place : Place) (n : Node),
        (parse "function f() \x7b if (a) function g() \x7b\x7d return a; \x7d" {}).root.Walk
          Place.across (.ofOptions {}) place n ∧
        n.kind = .returnStatement ∧ n.InPlace {} place := by
  have hclean : (parse "function f() \x7b if (a) function g() \x7b\x7d return a; \x7d" {}).diagnostics
      = ∅ := by decide +kernel
  have hpath : ((parse "function f() \x7b if (a) function g() \x7b\x7d return a; \x7d" {}).root.follow
      Place.across (.ofOptions {}) [("statements", 0), ("body", 0), ("statements", 1)]).any
      (fun found => found.2.kind == .returnStatement) = true := by decide +kernel
  obtain ⟨place, n, hwalk, hkind⟩ := Node.Walk.exists_of_follow hpath
  exact ⟨hclean, place, n, hwalk, eq_of_beq hkind, parse_inPlace _ _ hclean hwalk⟩

end EcmaSyntax
