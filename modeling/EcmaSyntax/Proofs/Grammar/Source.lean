import EcmaSyntax.Grammar.Source
import EcmaSyntax.Proofs.Grammar.CoverElement
import EcmaSyntax.Proofs.Grammar.Statement

/-! # Reading whole sources

Every rule has an answer that is derived, provided that what it meets weighs less. The weight bounds
how far rules lie within each other, so that the induction is on that bound alone, and the bound
with which the grammar starts is always enough. -/
namespace EcmaSyntax
open Parse ParseState

namespace Rule
variable {α : Type} {s t : ParseState} {rule : Rule α}

/-- What a nested rule makes one level deeper is what it is met for. -/
theorem Makes.shallower {a : α} (hn : rule.isNested = true) (hdepth : s.depth < nestingLimit)
    (h : rule.Makes s.deeper a t) : rule.Meets s a t.shallower := by
  cases rule with
  | declaration | operand | leftHandSide => cases hn
  | item | statement | assignment | unary | newExpression | type | typeOperator =>
    exact Built.shallower hdepth h
  | element =>
    refine ⟨h.built.shallower hdepth, h.consumed, h.no_text, fun hchild => ?_⟩
    exact (h.atChild hchild).imp_right AtChild.shallower
  | coverElement => exact fun a ha => (h a ha).shallower hdepth
  | objectElement | typeMember => exact fun a ha => (h a ha).shallower hdepth
  | classElement => exact fun member hmember n hn => (h member hmember n hn).shallower hdepth

/-- A rule without a level of its own is met for what it makes. -/
theorem Makes.meets {a : α} (hn : rule.isNested = false) (h : rule.Makes s a t) :
    rule.Meets s a t := by
  cases rule <;> first | exact h | cases hn

theorem Fits.deeper (hn : rule.isNested = true) (h : rule.Fits s) : rule.Fits s.deeper := by
  cases rule <;> first | exact h | cases hn

/-- At the end of the source a rule that is left out leaves a node that is missing, or none. -/
theorem absent_reads [hs : s.Ready] [ht : t.Ready] (hn : rule.isNested = true) (hfit : rule.Fits s)
    (hm : Moves s t) (hf : t.Faulty) (hend : t.token = .endOfFileToken) :
    rule.absent.Reads t (rule.Meets s) := by
  have hstatement (ph : Phrase) (ctx : Context) :
      missingStatement.Reads t fun n u => Built s ⟨ph, ctx, n⟩ u :=
    (missing_reads ph ctx hf (.nil (.refl t)) .statement fun _ => rfl).mono
      fun _ _ h => h.2.after hm fun _ => .inl (h.2.moves.faulty hf)
  have hidentifier (ph : Phrase) (ctx : Context) :
      missingIdentifier.Reads t fun n u => Built s ⟨ph, ctx, n⟩ u :=
    (missingIdentifier_reads ph ctx hf).mono fun _ _ h => h.after hm fun _ => .inl (h.moves.faulty hf)
  have htype (ph : Phrase) (ctx : Context) :
      missingType.Reads t fun n u => Built s ⟨ph, ctx, n⟩ u := by
    have hname : Derived t [⟨.identifier, ctx, .mk t.missingHeader (.identifier false "" none)⟩] t :=
      .missing hf (.nil (.refl t)) .identifier
    exact .look ((missing_reads ph ctx hf hname (.type ctx _) fun _ => rfl).mono
      fun _ _ h => h.2.after hm fun _ => .inl (h.2.moves.faulty hf))
  cases rule with
  | declaration | operand | leftHandSide => cases hn
  | item | statement => exact hstatement _ _
  | assignment | unary | newExpression => exact hidentifier _ _
  | type | typeOperator => exact htype _ _
  | coverElement | objectElement | typeMember | classElement => exact .pure nofun
  | element ctx =>
    refine (missing_reads .element ctx hf (.nil (.refl t)) .identifier fun _ => rfl).last
      fun n u hmu hl hn => ?_
    have hu := hmu.faulty hf
    refine ⟨hn.2.after hm fun _ => .inl hu, ?_, ?_, fun _ => .inl hu⟩
    case refine_2 => rw [Node.childText?, hn.1]
    have hstart : s.left ≠ 0 := fun h0 => by
      have heq : s.token = .lessThanToken := hfit
      rw [hs.ended_iff.mpr h0] at heq
      cases heq
    have hzero := ht.ended_iff.mp hend
    omega

end Rule

/-- A rule at the limit of nesting is left out at the end of the source. -/
theorem Parse.nested_reads {α : Type} {s : ParseState} {absent p : Parse α}
    {Q : α → ParseState → Prop} [s.Ready]
    (hp : s.depth < nestingLimit → p.Reads s.deeper fun a t => Q a t.shallower)
    (habsent : ∀ (t : ParseState) [t.Ready], Moves s t → t.Faulty → t.token = .endOfFileToken →
      absent.Reads t Q) : (nested absent p).Reads s Q := by
  refine .look (.ite (fun hdepth => ?_) fun _ => ?_)
  · refine (deeper_reads hdepth (hp hdepth)).mono fun a t h => ?_
    obtain ⟨u, hq, rfl⟩ := h
    exact hq
  · have hlimit : reportLimit.Reads s fun _ t => t.Faulty := .act (reportLimit_faulty s)
    refine hlimit.bind fun _ t _ hmt _ hf => skipToEnd_reads.bind fun _ u _ hmu _ hend => ?_
    exact habsent u (hmt.trans hmu) (hmu.faulty hf) hend

namespace Grammar
variable {α : Type} {s : ParseState} [s.Ready] {rule : Rule α}

section Rules
variable [Recursion] {W : Nat} [Lawful W]

/-- Every rule keeps to the grammar, if the lighter ones do. -/
theorem readRule_reads (hb : rule.weight s ≤ W) (hfit : rule.Fits s) :
    (readRule rule).Reads s (rule.Makes s) := by
  have hsome {β : Type} {p : Parse β} {Q : β → ParseState → Prop} (hp : p.Reads s Q) :
      (some <$> p).Reads s fun answer t => ∀ b ∈ answer, Q b t :=
    .map (hp.mono fun b t hb b' h => by cases h; exact hb)
  cases rule with
  | item => exact item_reads hb
  | statement => exact statement_reads hb
  | declaration ctx m =>
    obtain ⟨r, hr, hm, hmoves⟩ := hfit
    have hall (o : { r : ParseState // r.Ready ∧ m.At r ∧ Moves r s }) :
        (declaration ctx m).Reads s fun n t => Built o.1 ⟨.declaration, ctx, n⟩ t :=
      have := o.2.1
      declaration_reads hb o.2.2.1 o.2.2.2
    exact (Reads.all ⟨r, hr, hm, hmoves⟩ hall).mono fun n t h r hready hm hmoves =>
      h ⟨r, hready, hm, hmoves⟩
  | coverElement => exact hsome (coverElement_reads hb)
  | assignment => exact assignment_reads hb
  | operand => exact operand_reads hb
  | unary => exact unary_reads hb
  | leftHandSide => exact leftHandSide_reads hb
  | newExpression => exact newExpression_reads hb hfit
  | objectElement => exact hsome (objectElement_reads hb)
  | classElement => exact hsome (classElement_reads hb)
  | type => exact type_reads hb
  | typeOperator => exact typeOperator_reads hb
  | typeMember => exact hsome (typeMember_reads hb)
  | element => exact element_reads hb hfit

theorem readHere_reads (hb : rule.weight s ≤ W) (hfit : rule.Fits s) :
    (readHere rule).Reads s (rule.Meets s) := by
  refine .ite (fun hn => nested_reads (fun hdepth => ?_) fun t _ hm hf hend => ?_) fun hn => ?_
  · exact (readRule_reads (s := s.deeper) hb (hfit.deeper hn)).mono
      fun _ _ h => h.shallower hn hdepth
  · exact Rule.absent_reads hn hfit hm hf hend
  · exact (readRule_reads hb hfit).mono fun _ _ h => h.meets (Bool.eq_false_iff.mpr hn)

end Rules

theorem read_reads {n : Nat} (hn : rule.weight s < n) (hfit : rule.Fits s) :
    (read n rule).Reads s (rule.Meets s) := by
  induction n generalizing α s with
  | zero => exact absurd hn (Nat.not_lt_zero _)
  | succ n ih =>
    let := below (rule.weight s) (read n)
    have : Lawful (rule.weight s) := by
      refine ⟨fun rule' t _ hlt hfit' => .look (.ite (fun _ => ?_) fun hge => absurd hlt hge)⟩
      exact ih (Nat.lt_of_lt_of_le hlt (Nat.le_of_lt_succ hn)) hfit'
    exact .look (readHere_reads (Nat.le_refl _) hfit)

/-- Seen from the top, every rule is light enough. -/
theorem top_lawful (W : Nat) : @Lawful top W := by
  let := top
  exact ⟨fun rule s _ _ hfit => .look (read_reads (Nat.lt_succ_self _) hfit)⟩

/-! ## Whole sources -/

/-- A first line that moves to the first token. -/
theorem consume_first {β : Type} {s : ParseState} {way : Scanner.Advance} {k : Unit → Parse β}
    {R : β → ParseState → Prop} (h : (k ()).Reads (s.consume way) R) :
    (consume way >>= k).Reads s R := h

end Grammar

/-- The state on the first token of a source. -/
def ParseState.firstToken (text : List Char) : ParseState :=
  (ParseState.ofText text).consume .expression

instance (text : List Char) : (ParseState.firstToken text).Ready := by
  have hm := Scanner.advance_movedOn (s := (ParseState.ofText text).flush.scanner) .expression
    ((Scanner.skipShebang_reaches text).sound (Cursor.start_sound text))
  exact ⟨hm.ready, nofun⟩

/-- A whole source is read to its end. -/
theorem Grammar.source_reads (ctx : Context) (text : List Char) :
    (source ctx).Reads (.ofText text) fun statements t =>
      Extends (.firstToken text) (Part.body ctx.isModule ⟨ctx, true, #[]⟩ statements) t ∧
        t.token = .endOfFileToken := by
  let := top
  have := top_lawful ((ParseState.firstToken text).left * 8 + 8)
  refine consume_first (Reads.bind (s := .firstToken text) (statementList_reads (Nat.le_refl _))
    fun statements t _ _ _ h => ?_)
  have hflush : flush.Reads t fun _ u => u = t.flush := .act rfl
  refine hflush.bind fun _ u _ hmu _ heq => .pure ⟨h.1.move hmu, ?_⟩
  subst heq
  exact h.2.resolve_right nofun

/-- The statements of a whole source have been read in the context that the options make. -/
theorem parse_parsed (source : String) (options : ParseOptions) :
    ∃ (h : Header) (statements : List Node),
      (parse source options).root = .mk h (.sourceBody options.goal statements) ∧
      ∀ p ∈ Part.body (Context.ofOptions options).isModule ⟨.ofOptions options, true, #[]⟩ statements,
        Parsed ((parse source options).diagnostics ≠ ∅) p := by
  obtain ⟨statements, t, hrun, hbody, -⟩ := Grammar.source_reads (.ofOptions options) source.toList
  have hparse : parse source options =
      ⟨.mk (rootHeader source t.sink) (.sourceBody options.goal statements), t.sink⟩ := by
    rw [parse, show run source options = some (statements, t) from hrun]
  rw [hparse]
  exact ⟨_, statements, rfl, hbody.derived.parsed inferInstance id⟩

end EcmaSyntax
