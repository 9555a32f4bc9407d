import EcmaSyntax.Proofs.Coupling.Basic
import EcmaSyntax.Proofs.Parse.Gives

/-! # Lines and loops side by side

How the second of two coupled runs follows the first through single lines, speculation, nesting and
loops. A loop takes the same turns in both runs; where a turn needs to know more of the first run than
that its states correspond, an invariant of the loop tells it. -/
namespace EcmaSyntax.Coupling
open Parse
variable {K : Coupling} [hK : K.Lawful] {α β : Type} [Coupled K α] [Coupled K β]
  {s s' : ParseState}

namespace Aligned
variable (h : K.Aligned s s')
include h

theorem offset_eq : s'.start.offset = s.start.offset + K.shift := hK.offset_eq h.start

theorem tokenSpan_eq : s'.tokenSpan = s.tokenSpan.moved K.shift := by
  rw [ParseState.tokenSpan, hK.offset_eq h.start, hK.offset_eq h.stop, ParseState.tokenSpan,
    Span.moved_between]

omit hK in
/-- The span of the present token has been read. -/
theorem spans (hedged : s.Edged K.edge) : K.Spans s.tokenSpan := by
  refine ⟨h.floor_le, hedged.start, ?_⟩
  rw [ParseState.tokenSpan, Span.stop_between (h.ready.start_stop.offset_le h.ready.start_sound)]
  exact hedged.stop

theorem spelling_eq : s'.reading.spelling = s.reading.spelling := hK.text_eq h.start h.stop

omit hK in
theorem afterLineBreak_eq :
    s'.reading.hasPrecedingLineBreak = s.reading.hasPrecedingLineBreak :=
  congrArg (FlagSet.has · TokenFlag.precedingLineBreak) h.flags_eq

/-- The headers of two nodes that begin at corresponding marks and end at corresponding states. -/
theorem header_moved (hedged : s.Edged K.edge) (m : K.MarkPair) :
    K.header (s.header m.left) (s'.header m.right) := by
  have hstart := hK.offset_eq m.start
  have hfull := hK.offset_eq h.full
  refine ⟨?_, m.floor_le, m.edge_start, ?_, m.modifiers_eq, ?_, fun hexact => ?_⟩
  · simp only [ParseState.header, Range.moved, hstart, hfull, Nat.add_max_add_right]
  · change K.edge (max s.full.offset m.left.start.offset)
    rcases Nat.le_total s.full.offset m.left.start.offset with hle | hle
    · rw [Nat.max_eq_right hle]
      exact m.edge_start
    · rw [Nat.max_eq_left hle]
      exact hedged.full
  · have habsorb (c : Bool) (f : NodeFlags) :
        (FlagSet.when c (FlagSet.one NodeFlag.hasErrors) ∪ f) ∪ FlagSet.one NodeFlag.hasErrors =
          f ∪ FlagSet.one NodeFlag.hasErrors := by
      refine congrArg FlagSet.mk ?_
      cases c with
      | false => exact congrArg (· ||| _) (Nat.zero_or _)
      | true =>
        change (FlagSet.one NodeFlag.hasErrors).bits ||| f.bits ||| _ = f.bits ||| _
        rw [Nat.or_comm _ f.bits, Nat.or_assoc, Nat.or_self]
    simp only [ParseState.header, m.flags_eq, habsorb]
  · simp only [ParseState.header, m.flags_eq, hK.count_lt hexact m.counted h.counted]

end Aligned

namespace FollowsAt

/-- One line of a routine at or behind a place. -/
theorem bindFrom {p q : Parse α} {f g : α → Parse β} {n : Nat} (hs : K.state s s')
    (hn : n ≤ s.start.offset) (hp : K.Follows p q)
    (hf : ∀ (c : Coupled.Pair K α) (t t' : ParseState), K.state t t' → n ≤ t.start.offset →
      K.FollowsAt (f (Coupled.left c)) (g (Coupled.right c)) t t') :
    K.FollowsAt (p >>= f) (q >>= g) s s' :=
  .bind (hp s s' hs) fun c t t' hrun _ ht =>
    hf c t t' ht (Nat.le_trans hn ((p.moves hrun).offset_le (hK.aligned hs).ready))

/-- A report at a place that has been read. -/
theorem reportAt {span : Span} {message : Message} {argument : Option String}
    {h : message.isGrammatical = true} (hspan : K.Spans span)
    (hstart : span.start ≤ s.start.offset) (hs : K.state s s') :
    K.FollowsAt (Parse.reportAt span message argument h)
      (Parse.reportAt (span.moved K.shift) message argument h) s s' :=
  .act fun _ _ => hK.push (.report span message argument)
    ⟨hspan.floor_le, hstart, .inl hspan.edge_start, hspan.edge_stop⟩ hs

/-- An attempt to read something from the present token on. -/
theorem attempt {p q : Parse (Option α)} (hs : K.state s s')
    (h : K.FollowsAt p q s.flush s'.flush) :
    K.FollowsAt (Parse.attempt p) (Parse.attempt q) s s' := by
  intro hcalm a t hrun
  obtain ⟨⟨a, t⟩, hp, heq⟩ := Option.map_eq_some_iff.mp hrun
  cases heq
  obtain ⟨c, t', rfl, hq, ht⟩ := h (fun u hu => hcalm u (.inr (.inl hu))) a t hp
  refine ⟨c, _, rfl, Option.map_eq_some_iff.mpr ⟨_, hq, rfl⟩, ?_⟩
  cases c with
  | none =>
    change K.state (t.rewind _) (t'.rewind _)
    rw [(p.moves hp).rewind_flush, (q.moves hq).rewind_flush]
    exact hK.flush hs
  | some c => exact ht

/-! ## Loops -/

section Loops
variable {step step' : α → Parse (Turn α)}

/-- A loop of which an invariant is known in the first run. -/
theorem loop {Q : α → ParseState → Prop} (I : α → ParseState → Prop) (c : Coupled.Pair K α)
    (hstep : ∀ (c : Coupled.Pair K α) (s s' : ParseState), K.state s s' → I (Coupled.left c) s →
      K.FollowsAt (step (Coupled.left c)) (step' (Coupled.right c)) s s')
    (hI : ∀ (a : α) (s : ParseState), s.Ready → I a s →
      (step a).Gives s (TurnGives I Q))
    (h0 : I (Coupled.left c) s) (hs : K.state s s') :
    K.FollowsAt (Parse.loop step (Coupled.left c)) (Parse.loop step' (Coupled.right c)) s s' := by
  have hturns (n : Nat) : ∀ (m : Nat), n ≤ m → ∀ (c : Coupled.Pair K α) (s s' : ParseState),
      K.state s s' → I (Coupled.left c) s →
        K.FollowsAt (turns step n (Coupled.left c)) (turns step' m (Coupled.right c)) s s' := by
    induction n with
    | zero => exact fun _ _ c s s' hs _ => Follows.unanswered s s' hs
    | succ n ih =>
      rintro (_ | m) hm c s s' hs hc
      · exact absurd hm (Nat.not_succ_le_zero n)
      refine .look fun _ => bind (hstep c s s' hs hc) fun turn t t' hrun _ ht => ?_
      have hgives := hI _ _ (hK.aligned hs).ready hc hrun
      cases turn with
      | done d => exact pure ht d rfl
      | again d =>
        refine .look fun _ => ?_
        rw [(hK.aligned hs).offset_eq, (hK.aligned ht).offset_eq]
        simp only [Nat.add_lt_add_iff_right]
        split
        · exact ih m (Nat.le_of_succ_le_succ hm) d t t' ht hgives
        · exact Follows.unanswered t t' ht
  refine .look fun _ => hturns _ _ ?_ c s s' hs h0
  rw [(hK.aligned hs).left_eq]
  omega

end Loops

end FollowsAt

namespace Follows

/-! ## Looks -/

theorem observe {f g : ParseState → α}
    (h : ∀ s s', K.Aligned s s' → s.Edged K.edge → ∃ c : Coupled.Pair K α, Coupled.left c = f s ∧
      Coupled.right c = g s') : K.Follows (observe f) (observe g) := by
  intro s s' hs _ a t hrun
  cases hrun
  obtain ⟨c, hleft, hright⟩ := h s s' (hK.aligned hs) (hK.edged hs (.refl s))
  exact ⟨c, s', hleft, by rw [hright]; rfl, hs⟩

/-- A look at what is the same in both states. -/
theorem look {α : Type} {f g : ParseState → α} (h : ∀ s s', K.Aligned s s' → g s' = f s) :
    @Follows α K (.plain K α) (Parse.observe f) (Parse.observe g) :=
  @observe K _ α (.plain K α) f g fun s s' hs _ => ⟨f s, rfl, (h s s' hs).symm⟩

theorem token : K.Follows Parse.token Parse.token := look fun _ _ h => h.token_eq

theorem isAt (kind : Kind) : K.Follows (Parse.isAt kind) (Parse.isAt kind) :=
  look fun _ _ h => congrArg (· == kind) h.token_eq

theorem isAtAny (kinds : List Kind) : K.Follows (Parse.isAtAny kinds) (Parse.isAtAny kinds) :=
  look fun _ _ h => congrArg kinds.contains h.token_eq

theorem tokenIs (test : Kind → Bool) : K.Follows (Parse.tokenIs test) (Parse.tokenIs test) :=
  look fun _ _ h => congrArg test h.token_eq

theorem onSameLine (test : Kind → Bool) :
    K.Follows (Parse.onSameLine test) (Parse.onSameLine test) :=
  look fun _ _ h => by rw [h.afterLineBreak_eq, h.token_eq]

theorem afterLineBreak : K.Follows Parse.afterLineBreak Parse.afterLineBreak :=
  look fun _ _ h => h.afterLineBreak_eq

theorem tokenText : K.Follows Parse.tokenText Parse.tokenText :=
  look fun _ _ h => congrArg String.ofList h.spelling_eq

theorem canOmitSemicolon : K.Follows Parse.canOmitSemicolon Parse.canOmitSemicolon :=
  look fun _ _ h => by rw [h.token_eq, h.afterLineBreak_eq]

/-- Where the present token starts. -/
theorem tokenStart {f g : Nat → Parse α} (h : ∀ n, K.Follows (f n) (g (n + K.shift))) :
    K.Follows (Parse.tokenStart >>= f) (Parse.tokenStart >>= g) := fun s s' hs =>
  .look fun _ => by
    rw [(hK.aligned hs).offset_eq]
    exact h _ s s' hs

/-- The number of diagnostics so far. -/
theorem reported {f g : Nat → Parse α} (h : ∀ n n', K.count n n' → K.Follows (f n) (g n')) :
    K.Follows (Parse.reported >>= f) (Parse.reported >>= g) := fun s s' hs =>
  .look fun _ => h _ _ (hK.aligned hs).counted s s' hs

/-- The span of the present token. -/
theorem tokenSpan {f g : Span → Parse α}
    (h : ∀ span : Span, K.Spans span → K.Follows (f span) (g (span.moved K.shift))) :
    K.Follows (Parse.tokenSpan >>= f) (Parse.tokenSpan >>= g) := fun s s' hs =>
  .look fun _ => by
    rw [(hK.aligned hs).tokenSpan_eq]
    exact h _ ((hK.aligned hs).spans (hK.edged hs (.refl s))) s s' hs

theorem mark : K.Follows Parse.mark Parse.mark := observe fun s s' h hedged =>
  ⟨⟨s.mark, s'.mark, h.start, h.floor_le, hedged.start, h.counted, rfl, rfl⟩, rfl, rfl⟩

/-! ## Nodes -/

theorem node (m : K.MarkPair) (form : Form K.NodePair) :
    K.Follows (Parse.node m.left (NodePair.left <$> form))
      (Parse.node m.right (NodePair.right <$> form)) :=
  observe fun _ _ h hedged => ⟨.ofForm (h.header_moved hedged m) form, rfl, rfl⟩

theorem missing (form : Form K.NodePair) :
    K.Follows (Parse.missing (NodePair.left <$> form)) (Parse.missing (NodePair.right <$> form)) :=
  observe fun s s' h hedged => by
    have hheader : K.header s.missingHeader s'.missingHeader := by
      refine ⟨?_, h.floor_le, hedged.start, hedged.start, rfl, rfl, fun _ => rfl⟩
      simp only [ParseState.missingHeader, Range.moved, h.offset_eq]
    exact ⟨.ofForm hheader form, rfl, rfl⟩

/-! ## Steps -/

theorem consume (way : Scanner.Advance) : K.Follows (Parse.consume way) (Parse.consume way) :=
  fun _ _ hs => .act fun h h' => hK.consume way h h' hs

theorem advance : K.Follows Parse.advance Parse.advance := consume .plain

theorem reread (way : Scanner.Rereading) : K.Follows (Parse.reread way) (Parse.reread way) :=
  fun _ _ hs => .act fun h h' => hK.reread way h h' hs

theorem flush : K.Follows Parse.flush Parse.flush := fun _ _ hs => .act fun _ _ => hK.flush hs

theorem reportLimit : K.Follows Parse.reportLimit Parse.reportLimit := fun _ _ hs =>
  .act fun _ _ => hK.reportLimit hs

theorem reportHere (message : Message) (argument : Option String)
    (h : message.isGrammatical = true) :
    K.Follows (Parse.reportHere message argument h) (Parse.reportHere message argument h) :=
  fun _ _ hs => .look fun _ => by
    rw [(hK.aligned hs).tokenSpan_eq]
    exact .reportAt ((hK.aligned hs).spans (hK.edged hs (.refl _))) (Nat.le_refl _) hs

theorem reportMissing (text : String) :
    K.Follows (Parse.reportMissing text) (Parse.reportMissing text) := reportHere _ _ _

theorem reportExpected (kind : Kind) :
    K.Follows (Parse.reportExpected kind) (Parse.reportExpected kind) := reportHere _ _ _

theorem reportWhen (c : Bool) (message : Message) (h : message.isGrammatical = true) :
    K.Follows (Parse.reportWhen c message h) (Parse.reportWhen c message h) :=
  ite (reportHere _ _ _) (pure () rfl)

/-- Reports that depend on the context, where corresponding contexts may tell something else. -/
theorem early {p q : Parse Unit} {message message' : Option Message}
    (hearly : ∀ m ∈ message, m ∈ earlyErrors) (hnone : message = none → message' = none)
    (hsame : K.free .strict = false → K.free .withoutWebCompat = false → message' = message)
    (hp : ∀ s, p.run s = Option.some ((), s.note message))
    (hq : ∀ s, q.run s = Option.some ((), s.note message')) : K.Follows p q := by
  intro s s' hs hcalm a t hrun
  rw [hp] at hrun
  cases hrun
  refine ⟨(), s'.note message', rfl, hq s', ?_⟩
  by_cases hfree : K.free .strict = true ∨ K.free .withoutWebCompat = true
  · exact hK.early message message' hfree hearly hnone (hcalm _ (p.ends (hp s))) hs
  · simp only [not_or, Bool.not_eq_true] at hfree
    rw [hsame hfree.1 hfree.2]
    cases message with
    | none => exact hs
    | some message =>
      have h := hK.aligned hs
      have hspan := h.spans (hK.edged hs (.refl s))
      have hpush := hK.push (.report s.tokenSpan message)
        ⟨hspan.floor_le, Nat.le_refl _, .inl hspan.edge_start, hspan.edge_stop⟩ hs
      unfold ParseState.note
      rw [h.tokenSpan_eq]
      exact hpush

theorem accept (kind : Kind) : K.Follows (Parse.accept kind) (Parse.accept kind) :=
  .same (isAt kind) fun _ => ite (.same advance fun _ => pure true rfl)
    (pure false rfl)

theorem expect (kind : Kind) : K.Follows (Parse.expect kind) (Parse.expect kind) :=
  .same (accept kind) fun _ => ite (pure true rfl)
    (.same (reportExpected kind) fun _ => pure false rfl)

theorem expectSemicolon : K.Follows Parse.expectSemicolon Parse.expectSemicolon :=
  .same (accept _) fun _ => ite (pure () rfl) <|
    .same canOmitSemicolon fun _ => ite (pure () rfl) (reportExpected _)

/-- A token with nothing but itself as a node. -/
theorem leaf {way : Scanner.Advance} {form : Reading → Form Node}
    (hleaf : ∀ r, (form r).children = [])
    (hform : ∀ r r' : Reading, r'.token = r.token → r'.flags = r.flags →
      r'.spelling = r.spelling → form r' = form r) :
    K.Follows (Grammar.leaf way form) (Grammar.leaf way form) := fun s s' hs => by
  refine FollowsAt.bind (mark s s' hs) fun m t t' hm hm' ht => ?_
  obtain ⟨-, rfl⟩ := Prod.mk.inj (Option.some.inj hm)
  obtain ⟨-, rfl⟩ := Prod.mk.inj (Option.some.inj hm')
  refine .look fun _ => .bind (consume way s s' hs) fun _ u u' hu hu' hstate => ?_
  cases hu
  cases hu'
  intro _ a v hrun
  cases hrun
  have h := hK.aligned hs
  have hheader := (hK.aligned hstate).header_moved (hK.edged hstate (.refl _)) m
  refine ⟨NodePair.ofLeaf hheader (form s.reading) (hleaf _), _, rfl, ?_, hstate⟩
  rw [hform s.reading s'.reading h.token_eq h.flags_eq h.spelling_eq]
  rfl

/-! ## Speculation and nesting -/

theorem lookAhead {p q : Parse α} (h : K.Follows p q) :
    K.Follows (Parse.lookAhead p) (Parse.lookAhead q) := by
  intro s s' hs hcalm a t hrun
  obtain ⟨⟨a, t⟩, hp, heq⟩ := Option.map_eq_some_iff.mp hrun
  cases heq
  have hflush := hK.flush hs
  obtain ⟨c, t', rfl, hq, -⟩ := h _ _ hflush (fun u hu => hcalm u (.inr (.inl hu))) a t hp
  refine ⟨c, t'.rewind s'.flush.checkpoint, rfl, Option.map_eq_some_iff.mpr ⟨_, hq, rfl⟩, ?_⟩
  rwa [(p.moves hp).rewind_flush, (q.moves hq).rewind_flush]

theorem attempt {p q : Parse (Option α)} (h : K.Follows p q) :
    K.Follows (Parse.attempt p) (Parse.attempt q) := fun _ _ hs => .attempt hs (h _ _ (hK.flush hs))

theorem deeper {p q : Parse α} (h : K.Follows p q) :
    K.Follows (Parse.deeper p) (Parse.deeper q) := by
  intro s s' hs hcalm a t hrun
  obtain ⟨hdepth, u, hp, rfl⟩ := deeper_run_eq_some.mp hrun
  obtain ⟨c, u', rfl, hq, hu⟩ := h _ _ (hK.deeper hs)
    (fun v hv => hcalm v (.inr ⟨hdepth, .inl hv⟩)) a u hp
  have hdepth' : s'.depth < nestingLimit := (hK.aligned hs).depth_eq ▸ hdepth
  exact ⟨c, u'.shallower, rfl, deeper_run_eq_some.mpr ⟨hdepth', u', hq, rfl⟩, hK.shallower hu⟩

omit hK in
/-- A test and a second one, which is made only after the first. -/
theorem and {p q p' q' : Parse Bool} (hp : K.Follows p p') (hq : K.Follows q q') :
    K.Follows (p <&&> q) (p' <&&> q') :=
  .same hp fun b => by
    cases b with
    | false => exact pure false rfl
    | true => exact hq

omit hK in
theorem or {p q p' q' : Parse Bool} (hp : K.Follows p p') (hq : K.Follows q q') :
    K.Follows (p <||> q) (p' <||> q') :=
  .same hp fun b => by
    cases b with
    | false => exact hq
    | true => exact pure true rfl

theorem nextIs {p q : Parse Bool} (h : K.Follows p q) :
    K.Follows (Parse.nextIs p) (Parse.nextIs q) := lookAhead (.same advance fun _ => h)

theorem advanceIf {p q : Parse Bool} (h : K.Follows p q) :
    K.Follows (Parse.advanceIf p) (Parse.advanceIf q) := by
  have hadvance : K.Follows (Parse.advanceTo p) (Parse.advanceTo q) :=
    .same advance fun _ => .same h fun b =>
      pure (if b then Option.some () else none) (by cases b <;> rfl)
  exact map (k := Option.isSome) (attempt hadvance) (fun c => by cases c <;> rfl)
    fun c => by cases c <;> rfl

theorem advanceWhen {p q : Parse Bool} (h : K.Follows p q) :
    K.Follows (Parse.advanceWhen p) (Parse.advanceWhen q) :=
  .same h fun _ => ite (.same advance fun _ => pure true rfl) (pure false rfl)

/-! ## Parts that may be absent -/

theorem whenAt {p q : Parse α} (kind : Kind) (h : K.Follows p q) :
    K.Follows (Parse.whenAt kind p) (Parse.whenAt kind q) :=
  .same (isAt kind) fun _ => ite (.some h) (pure none rfl)

theorem unlessAtAny {p q : Parse α} (kinds : List Kind) (h : K.Follows p q) :
    K.Follows (Parse.unlessAtAny kinds p) (Parse.unlessAtAny kinds q) :=
  .same (isAtAny kinds) fun _ => ite (pure none rfl) (.some h)

theorem behind {p q : Parse α} (kind : Kind) (h : K.Follows p q) :
    K.Follows (Parse.behind kind p) (Parse.behind kind q) :=
  .same (accept kind) fun _ => ite (.some h) (pure none rfl)

theorem between {p q : Parse α} (opening closing : Kind) (h : K.Follows p q) :
    K.Follows (Parse.between opening closing p) (Parse.between opening closing q) :=
  .same (expect opening) fun _ => .bind h fun c => .same (expect closing) fun _ => pure c rfl

theorem within {p q : Parse α} {a a' : α} (opening closing : Kind) (absent : Coupled.Pair K α)
    (ha : (Coupled.left absent, Coupled.right absent) = (a, a')) (h : K.Follows p q) :
    K.Follows (Parse.within opening closing a p) (Parse.within opening closing a' q) :=
  .same (expect opening) fun _ => ite
    (.bind h fun c => .same (expect closing) fun _ => pure c rfl) (pure absent ha)

/-! ## Repetition -/

variable {step step' : α → Parse (Turn α)}

theorem loop {a a' : α} (c : Coupled.Pair K α)
    (hc : (Coupled.left c, Coupled.right c) = (a, a'))
    (hstep : ∀ c : Coupled.Pair K α,
      K.Follows (step (Coupled.left c)) (step' (Coupled.right c))) :
    K.Follows (Parse.loop step a) (Parse.loop step' a') := by
  cases hc
  exact fun _ _ => FollowsAt.loop (Q := fun _ _ => True) (fun _ _ => True) c
    (fun c s s' hs _ => hstep c s s' hs)
    (fun _ _ _ _ turn _ _ => by cases turn <;> trivial) trivial

/-- The answer of a loop over arrays as a list. -/
theorem collect {step step' : Array Node → Parse (Turn (Array Node))}
    (hstep : ∀ ns : K.ArrayPair, K.Follows (step ns.left) (step' ns.right)) :
    K.Follows (Parse.collect step) (Parse.collect step') := by
  refine .bind (loop (ArrayPair.empty K) rfl hstep) fun ns => ?_
  obtain ⟨qs, hleft, hright⟩ := ns.exists_list
  exact pure qs (congrArg₂ Prod.mk hleft hright)

theorem ifUnmoved {p q : Parse Unit} (n : Nat) (h : K.Follows p q) :
    K.Follows (Parse.ifUnmoved n p) (Parse.ifUnmoved (n + K.shift) q) :=
  tokenStart fun n' => by
    have heq : (n' + K.shift == n + K.shift) = (n' == n) := by simp
    rw [heq]
    exact ite h (pure () rfl)

theorem skip (way : Scanner.Advance) : K.Follows (Parse.skip way) (Parse.skip way) :=
  .same (isAt _) fun _ => ite (pure () rfl) (consume way)

theorem skipToEnd : K.Follows Parse.skipToEnd Parse.skipToEnd :=
  loop (α := Unit) () rfl fun _ => .same (isAt _) fun _ => ite
    (pure (Turn.done ()) rfl) (.same advance fun _ => pure (Turn.again ()) rfl)

theorem nested {absent absent' p q : Parse α} (habsent : K.Follows absent absent')
    (h : K.Follows p q) : K.Follows (Parse.nested absent p) (Parse.nested absent' q) :=
  .same (look (f := fun s => s.depth) (g := fun s => s.depth) fun _ _ h => h.depth_eq) fun _ =>
    ite (deeper h) (.same reportLimit fun _ => .same skipToEnd fun _ => habsent)

end Follows
end EcmaSyntax.Coupling
