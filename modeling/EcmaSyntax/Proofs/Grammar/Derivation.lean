import EcmaSyntax.Proofs.Grammar.Lines

/-! # Derivations

How the parts that a parse has read between two states come about, node by node. The header of a
node is computed from the states at its ends, so a derivation tells where every node of a tree lies
and what had been reported by then, and which line breaks there are where they matter. It also
covers nodes that stand for what is missing. -/
namespace EcmaSyntax
open ParseState

/-- A mark that was made at a state. Prefixes may have added flags to it. -/
structure Mark.At (m : Mark) (s : ParseState) : Prop where
  start_eq : m.start = s.start
  reported_eq : m.reported = s.sink.size
  not_hasErrors : m.flags.has .hasErrors = false

namespace Mark.At
variable {m : Mark} {s : ParseState}

theorem mark (s : ParseState) : s.mark.At s := ⟨rfl, rfl, FlagSet.has_empty _⟩

theorem withModifiers (h : m.At s) (modifiers : ModifierFlags) : (m.withModifiers modifiers).At s :=
  ⟨h.start_eq, h.reported_eq, h.not_hasErrors⟩

theorem withFlags (h : m.At s) (flags : NodeFlags) (hf : flags.has .hasErrors = false) :
    (m.withFlags flags).At s := by
  refine ⟨h.start_eq, h.reported_eq, ?_⟩
  have hm := h.not_hasErrors
  simp_all [Mark.withFlags]

/-- The range of a node that began at a mark. -/
theorem range_eq (h : m.At s) {t : ParseState} :
    (t.header m).range = ⟨s.start.offset, max t.full.offset s.start.offset⟩ := by
  rw [header, h.start_eq]

end Mark.At

namespace Grammar

/-- An expression between parentheses that is made of the elements of a list. Elements that no
expression can be are reported. -/
inductive Regrouped (u : ParseState) (arguments : Node) : Node → Prop
  | joined {first : Node} {rest : List Node} :
      (argumentElements arguments).map elementExpression = first :: rest →
      ((∃ e ∈ argumentElements arguments, (e.isParameter || e.isSpread) = true) → u.Faulty) →
      Regrouped u arguments (rest.foldl commaJoined first)
  | missing : argumentElements arguments = [] → u.Faulty → arguments.range.stop = u.full.offset →
      Regrouped u arguments (.mk u.missingHeader (.identifier false "" none))

/-- The header of a parenthesized expression, given the states behind the list and behind the
reports about it. -/
def regroupedHeader (t u : ParseState) (arguments : Node) : Header where
  range := arguments.range
  flags := .when (arguments.hasErrors || t.sink.size < u.sink.size) NodeFlag.hasErrors

end Grammar

open Grammar in
/-- Parts that have been read one after the other between two states. -/
inductive Derived : ParseState → List Part → ParseState → Prop
  /-- Tokens that belong to no part. -/
  | nil {s t} : Moves s t → Derived s [] t
  | append {s t u ps qs} : Derived s ps t → Derived t qs u → (qs ≠ [] → Fruitful t u) →
      Derived s (ps ++ qs) u
  | node {s t m ph ctx form ps} :
      m.At s → Derived s ps t → Production t.Faulty ph ctx form ps → t.Faulty ∨ form.Lined s t →
      Derived s [⟨ph, ctx, .mk (t.header m) form⟩] t
  | leaf {s m ph ctx form way} : m.At s → Leaf s.Faulty s.reading ph ctx form →
      Derived s [⟨ph, ctx, .mk ((s.consume way).header m) form⟩] (s.consume way)
  /-- A node that is missing before the present token. -/
  | missing {s ph ctx form ps} : s.Faulty → Derived s ps s → Absence form ps →
      Derived s [⟨ph, ctx, .mk s.missingHeader form⟩] s
  | serve {s t n ph ctx ph' ctx'} :
      Derived s [⟨ph, ctx, n⟩] t → Serves t.Faulty n ph ctx ph' ctx' →
      Derived s [⟨ph', ctx', n⟩] t
  | simple {s t ctx n} : Derived s [⟨.parameterName, ctx, n⟩] t →
      Derived s [⟨.arrowParameters, ctx, simpleParameters n⟩] t
  | parenthesized {s t u ctx arguments inner} : Derived s [⟨.coverList, ctx, arguments⟩] t →
      Moves t u → Regrouped u arguments inner →
      Derived s [⟨.primary, ctx, .mk (regroupedHeader t u arguments) (.parenthesized inner)⟩] u
  /-- A part that has been read one level deeper. -/
  | deeper {s t n ph ctx} : s.depth < Parse.nestingLimit →
      Derived s.deeper [⟨ph.body, ctx, n⟩] t → Derived s [⟨ph, ctx, n⟩] t.shallower

namespace Derived
variable {s t : ParseState} {ps : List Part}

theorem moves (h : Derived s ps t) : Moves s t := by
  induction h with
  | nil hm => exact hm
  | append _ _ _ ih ih' => exact ih.trans ih'
  | node _ _ _ _ ih | serve _ _ ih | simple _ ih => exact ih
  | leaf => exact .single (.consume _ _)
  | missing => exact .refl _
  | parenthesized _ hm _ ih => exact ih.trans hm
  | deeper _ _ ih => exact ih.shallower

end Derived

/-! ## Parts that move on -/

/-- Parts that have been read between two states, and not for nothing. -/
structure Extends (s : ParseState) (ps : List Part) (t : ParseState) : Prop where
  derived : Derived s ps t
  fruitful : ps ≠ [] → Fruitful s t

namespace Extends
variable {s t u : ParseState} {ps qs : List Part}

theorem nil (hm : Moves s t) : Extends s [] t := ⟨.nil hm, fun h => absurd rfl h⟩

theorem refl (s : ParseState) : Extends s [] s := nil (.refl s)

theorem moves (h : Extends s ps t) : Moves s t := h.derived.moves

theorem append [hs : s.Ready] (h : Extends s ps t) (h' : Extends t qs u) :
    Extends s (ps ++ qs) u := by
  refine ⟨.append h.derived h'.derived h'.fruitful, fun hne => ?_⟩
  by_cases hqs : qs = []
  · have hps : ps ≠ [] := by
      rintro rfl
      exact hne (by rw [hqs]; rfl)
    exact (h.fruitful hps).move h'.moves (h.moves.ready hs)
  · exact (h'.fruitful hqs).of_move h.moves hs

/-- Tokens behind the last part. -/
theorem move [s.Ready] (h : Extends s ps t) (hm : Moves t u) : Extends s ps u := by
  have happ := h.append (nil hm)
  rwa [List.append_nil] at happ

/-- Tokens before the first part. -/
theorem after [s.Ready] (h : Extends t ps u) (hm : Moves s t) : Extends s ps u :=
  (nil hm).append h

end Extends

/-- Whether a node that is read as a phrase takes all tokens from the first to the last. Some
declarations leave their prefix out, and some conditions their parentheses. -/
def Phrase.isExact : Phrase → Bool
  | identifier | name | privateName | word | literal | keyword | expression | template | pattern
  | propertyName | formalParameters | function .expression | parameterName | arrowParameters
  | arrowFunction | classLike .expression | embedded | childText | child | opening | closing | element
  | coverList | primary | newExpression
  | suffixed _ | unary | operand _ | assignment | assigned => true
  | _ => false

theorem Phrase.isExact_of_choice {ph ph' : Phrase} (h : ph ∈ ph'.choices)
    (hexact : ph'.isExact = true) : ph.isExact = true := by
  revert ph hexact
  cases ph' <;> simp [choices, isExact]

theorem Phrase.isExact_body (ph : Phrase) : ph.body.isExact = ph.isExact := by
  cases ph <;> rfl

theorem Serves.isExact {faulty : Prop} {n : Node} {ph ph' : Phrase} {ctx ctx' : Context}
    (h : Serves faulty n ph ctx ph' ctx') (hexact : ph'.isExact = true) : ph.isExact = true := by
  cases h with
  | choice h => exact ph.isExact_of_choice h hexact
  | _ => first | rfl | cases hexact

/-- The range of all that has been consumed between two states. -/
def ParseState.rangeTo (s t : ParseState) : Range :=
  ⟨s.start.offset, max t.full.offset s.start.offset⟩

theorem Fruitful.rangeTo_stop {s t : ParseState} [hs : s.Ready] (h : Fruitful s t) (hm : Moves s t) :
    t.Faulty ∨ (s.rangeTo t).stop = t.full.offset :=
  h.symm.imp_right fun hlt =>
    Nat.max_eq_left ((hm.start_reaches_full hs hlt).offset_le hs.start_sound)

/-- A node that has been read between two states. Arrow parameters are never read without a
token: the body behind them is met without one. -/
structure Built (s : ParseState) (p : Part) (t : ParseState) : Prop extends Extends s [p] t where
  consumed : p.node.isArrowParameters = true → t.left < s.left
  spans : p.phrase.isExact = true → t.Faulty ∨ p.node.range = s.rangeTo t

namespace Built
variable {s t u : ParseState} {p : Part} {n : Node} {ph ph' : Phrase} {ctx ctx' : Context}

theorem fruits (h : Built s p t) : Fruitful s t := h.fruitful (List.cons_ne_nil _ _)

/-- What has consumed a token is built. -/
theorem of_lt (h : Derived s [p] t) (hlt : t.left < s.left)
    (hspans : p.phrase.isExact = true → t.Faulty ∨ p.node.range = s.rangeTo t) : Built s p t :=
  ⟨⟨h, fun _ => .inl hlt⟩, fun _ => hlt, hspans⟩

/-- Where the node begins. -/
theorem pos_eq (h : Built s p t) (hexact : p.phrase.isExact = true) :
    t.Faulty ∨ p.node.range.pos = s.start.offset :=
  (h.spans hexact).imp_right (congrArg Range.pos)

/-- Where the node ends, if it has a token. -/
theorem stop_eq [s.Ready] (h : Built s p t) (hexact : p.phrase.isExact = true) :
    t.Faulty ∨ p.node.range.stop = t.full.offset := by
  rcases h.spans hexact with hf | hrange
  · exact .inl hf
  · exact hrange ▸ Fruitful.rangeTo_stop h.fruits h.moves

theorem serve (h : Built s ⟨ph, ctx, n⟩ t) (hs : Serves t.Faulty n ph ctx ph' ctx') :
    Built s ⟨ph', ctx', n⟩ t :=
  ⟨⟨.serve h.derived hs, fun _ => h.fruits⟩, h.consumed, fun hexact => h.spans (hs.isExact hexact)⟩

theorem choose (h : Built s ⟨ph, ctx, n⟩ t) (hs : ph ∈ ph'.choices) : Built s ⟨ph', ctx, n⟩ t :=
  h.serve (.choice hs)

/-- Tokens behind a node. They are its own if all tokens are, unless something is faulty. -/
theorem move [hs : s.Ready] (h : Built s p t) (hm : Moves t u)
    (hexact : p.phrase.isExact = true → u.Faulty ∨ u.full = t.full) : Built s p u := by
  refine ⟨h.toExtends.move hm, fun harrow => ?_, fun hp => ?_⟩
  · have hle := hm.left_le (h.moves.ready hs)
    have hlt := h.consumed harrow
    omega
  · rcases hexact hp with hf | hfull
    · exact .inl hf
    · rw [rangeTo, hfull]
      exact (h.spans hp).imp_left hm.faulty

/-- Tokens before a node. -/
theorem after [hs : s.Ready] (h : Built t p u) (hm : Moves s t)
    (hexact : p.phrase.isExact = true → u.Faulty ∨ t.start = s.start) :
    Built s p u := by
  refine ⟨h.toExtends.after hm, fun harrow => ?_, fun hp => ?_⟩
  · have hlt := h.consumed harrow
    have hle := hm.left_le hs
    omega
  · rcases hexact hp with hf | hstart
    · exact .inl hf
    · rw [rangeTo, ← hstart]
      exact h.spans hp

/-- What has been read one level deeper. -/
theorem shallower (hdepth : s.depth < Parse.nestingLimit)
    (h : Built s.deeper ⟨ph.body, ctx, n⟩ t) : Built s ⟨ph, ctx, n⟩ t.shallower :=
  ⟨⟨.deeper hdepth h.derived, fun _ => h.fruits⟩, h.consumed,
    fun hexact => h.spans (ph.isExact_body.trans hexact)⟩

end Built

end EcmaSyntax
