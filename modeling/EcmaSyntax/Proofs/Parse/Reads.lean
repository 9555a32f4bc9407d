import EcmaSyntax.Grammar.Parse
import EcmaSyntax.Proofs.Parse.Ready

/-! # What a routine reads

A routine reads something from a state if it has an answer there and the answer meets a condition;
so every statement of this kind includes that the run ends. The rules follow the text of a routine
from its first line to its last. -/
namespace EcmaSyntax
open ParseState

instance (s : ParseState) [hs : s.Ready] : s.flush.Ready := (Step.flush s).ready hs

instance (s : ParseState) (way : Scanner.Advance) [hs : s.Ready] : (s.consume way).Ready :=
  (Step.consume way s).ready hs

/-- The present token is as it was. -/
def ParseState.Still (s t : ParseState) : Prop := t.reading = s.reading

namespace ParseState.Still
variable {s t u : ParseState}

theorem start_eq (h : s.Still t) : t.start = s.start := congrArg Reading.start h

theorem full_eq (h : s.Still t) : t.full = s.full := congrArg Reading.full h

theorem token_eq (h : s.Still t) : t.token = s.token := congrArg Reading.token h

theorem left_eq (h : s.Still t) : t.left = s.left := congrArg Cursor.left h.start_eq

theorem trans (h : s.Still t) (h' : t.Still u) : s.Still u := Eq.trans h' h

theorem refl (s : ParseState) : s.Still s := rfl

theorem flush (s : ParseState) : s.Still s.flush := rfl

end ParseState.Still

namespace Parse
variable {α β : Type} {s : ParseState}

/-- A routine that goes on with the answer of another one. -/
theorem run_bind {p : Parse α} {f : α → Parse β} {b : β} {u : ParseState} :
    (p >>= f).run s = some (b, u) ↔
      ∃ a t, p.run s = some (a, t) ∧ (f a).run t = some (b, u) := by
  change (Parse.bind p f).run s = some (b, u) ↔ _
  simp only [Parse.bind]
  constructor
  · intro h
    split at h
    · cases h
    case h_2 a t hp => exact ⟨a, t, hp, h⟩
  · rintro ⟨a, t, hp, h⟩
    simp only [hp, h]

theorem run_bind_of_run {p : Parse α} {f : α → Parse β} {a : α} {t : ParseState}
    (h : p.run s = some (a, t)) : (p >>= f).run s = (f a).run t := by
  change (Parse.bind p f).run s = _
  simp only [Parse.bind, h]

/-- A routine has an answer that meets a condition. -/
def Reads (p : Parse α) (s : ParseState) (Q : α → ParseState → Prop) : Prop :=
  ∃ a t, p.run s = some (a, t) ∧ Q a t

namespace Reads
variable {p : Parse α} {Q : α → ParseState → Prop} {R : β → ParseState → Prop}

theorem observe {f : ParseState → α} (h : Q (f s) s) : (observe f).Reads s Q := ⟨f s, s, rfl, h⟩

theorem pure {a : α} (h : Q a s) : (Pure.pure a : Parse α).Reads s Q := ⟨a, s, rfl, h⟩

theorem act {f : ParseState → ParseState} {hf : ∀ s, Step s (f s)} {Q : Unit → ParseState → Prop}
    (h : Q () (f s)) : (act f hf).Reads s Q := ⟨(), f s, rfl, h⟩

theorem mono {Q' : α → ParseState → Prop} (h : p.Reads s Q) (hQ : ∀ a t, Q a t → Q' a t) :
    p.Reads s Q' := by
  obtain ⟨a, t, hrun, hq⟩ := h
  exact ⟨a, t, hrun, hQ a t hq⟩

/-- A routine has one answer only, which meets the condition, -/
theorem of_run {a : α} {t : ParseState} (h : p.Reads s Q) (hp : p.run s = some (a, t)) :
    Q a t := by
  obtain ⟨b, u, hrun, hq⟩ := h
  rw [hp] at hrun
  cases hrun
  exact hq

/-- and so all conditions together. -/
theorem all {ι : Type} {Q : ι → α → ParseState → Prop} (i : ι) (h : ∀ i, p.Reads s (Q i)) :
    p.Reads s fun a t => ∀ i, Q i a t := by
  obtain ⟨a, t, hrun, -⟩ := h i
  exact ⟨a, t, hrun, fun j => (h j).of_run hrun⟩

theorem both {R : α → ParseState → Prop} (h : p.Reads s Q) (h' : p.Reads s R) :
    p.Reads s fun a t => Q a t ∧ R a t := by
  obtain ⟨a, t, hrun, hq⟩ := h
  exact ⟨a, t, hrun, hq, h'.of_run hrun⟩

/-- One line of a routine, with how far it moves. -/
theorem bind [hs : s.Ready] {f : α → Parse β} (hp : p.Reads s Q)
    (hf : ∀ (a : α) (t : ParseState) [t.Ready], Moves s t → t.left ≤ s.left → Q a t → (f a).Reads t R) :
    (p >>= f).Reads s R := by
  obtain ⟨a, t, hrun, hq⟩ := hp
  have hm := p.moves hrun
  have ht := hm.ready hs
  obtain ⟨b, u, hrun', hr⟩ := hf a t hm (hm.left_le hs) hq
  exact ⟨b, u, run_bind.mpr ⟨a, t, hrun, hrun'⟩, hr⟩

/-- The last line of a routine. -/
theorem last [hs : s.Ready] {R : α → ParseState → Prop} (hp : p.Reads s Q)
    (hR : ∀ (a : α) (t : ParseState), Moves s t → t.left ≤ s.left → Q a t → R a t) :
    p.Reads s R := by
  obtain ⟨a, t, hrun, hq⟩ := hp
  have hm := p.moves hrun
  exact ⟨a, t, hrun, hR a t hm (hm.left_le hs) hq⟩

/-- What has an answer as a whole has one for its first line, -/
theorem first {f : α → Parse β} (h : (p >>= f).Reads s R) : p.Reads s fun _ _ => True := by
  obtain ⟨b, u, hrun, -⟩ := h
  obtain ⟨a, t, hp, -⟩ := run_bind.mp hrun
  exact ⟨a, t, hp, trivial⟩

/-- and for the rest of its lines. -/
theorem rest {f : α → Parse β} {a : α} {t : ParseState} (h : (p >>= f).Reads s R)
    (hp : p.run s = some (a, t)) : (f a).Reads t R := by
  obtain ⟨b, u, hrun, hr⟩ := h
  obtain ⟨a', t', hp', hf⟩ := run_bind.mp hrun
  rw [hp] at hp'
  cases hp'
  exact ⟨b, u, hf, hr⟩

/-- A line that only looks. -/
theorem look {f : ParseState → α} {k : α → Parse β} (h : (k (f s)).Reads s R) :
    (Parse.observe f >>= k).Reads s R := h

theorem map {f : α → β} (h : p.Reads s fun a t => R (f a) t) : (f <$> p).Reads s R := by
  obtain ⟨a, t, hrun, hr⟩ := h
  exact ⟨f a, t, run_bind.mpr ⟨a, t, hrun, rfl⟩, hr⟩

theorem ite {c : Prop} [Decidable c] {q : Parse α} (hp : c → p.Reads s Q)
    (hq : ¬c → q.Reads s Q) : (if c then p else q).Reads s Q := by
  split
  case isTrue h => exact hp h
  case isFalse h => exact hq h

/-- A test and a second one, which is made only after the first. -/
theorem and [s.Ready] {p q : Parse Bool} {Q R : Bool → ParseState → Prop} (hp : p.Reads s Q)
    (hf : ∀ t, Q false t → R false t)
    (ht : ∀ (t : ParseState) [t.Ready], Moves s t → t.left ≤ s.left → Q true t → q.Reads t R) :
    (p <&&> q).Reads s R := by
  refine hp.bind fun b t _ hm hl hq => ?_
  cases b with
  | false => exact .pure (hf t hq)
  | true => exact ht t hm hl hq

theorem or [s.Ready] {p q : Parse Bool} {Q R : Bool → ParseState → Prop} (hp : p.Reads s Q)
    (ht : ∀ t, Q true t → R true t)
    (hf : ∀ (t : ParseState) [t.Ready], Moves s t → t.left ≤ s.left → Q false t → q.Reads t R) :
    (p <||> q).Reads s R := by
  refine hp.bind fun b t _ hm hl hq => ?_
  cases b with
  | true => exact .pure (ht t hq)
  | false => exact hf t hm hl hq

/-- A choice by the kind of the present token. -/
theorem ifAt {kind : Kind} {q : Parse α} (hp : s.token = kind → p.Reads s Q)
    (hq : s.token ≠ kind → q.Reads s Q) :
    (isAt kind >>= fun b => if b = true then p else q).Reads s Q := by
  refine look (.ite (fun h => hp (eq_of_beq h)) fun h => hq fun heq => h ?_)
  rw [heq]
  exact beq_self_eq_true kind

theorem ifAtAny {kinds : List Kind} {q : Parse α} (hp : s.token ∈ kinds → p.Reads s Q)
    (hq : s.token ∉ kinds → q.Reads s Q) :
    (isAtAny kinds >>= fun b => if b = true then p else q).Reads s Q :=
  look (.ite (fun h => hp (List.contains_iff_mem.mp h))
    fun h => hq fun hmem => h (List.contains_iff_mem.mpr hmem))

end Reads

/-! ## Tokens -/

theorem consume_run (way : Scanner.Advance) :
    (consume way).Reads s fun _ t => t = s.consume way := .act rfl

theorem advance_run : advance.Reads s fun _ t => t = s.consume .plain := consume_run .plain

/-- What a line that consumes the present token does. -/
theorem consume_reads (way : Scanner.Advance) [s.Ready] (ht : s.token ≠ .endOfFileToken) :
    (consume way).Reads s fun _ t => t.left < s.left := .act (consume_left_lt way ht)

theorem advance_reads [s.Ready] (ht : s.token ≠ .endOfFileToken) :
    advance.Reads s fun _ t => t.left < s.left := consume_reads .plain ht

theorem advance_moves [s.Ready] :
    advance.Reads s fun _ t => s.token ≠ .endOfFileToken → t.left < s.left := by
  by_cases h : s.token = .endOfFileToken
  · exact advance_run.mono fun _ _ _ hne => absurd h hne
  · exact (advance_reads h).mono fun _ _ hlt _ => hlt

theorem reread_run (way : Scanner.Rereading) :
    (reread way).Reads s fun _ t => t = s.reread way := .act rfl

/-- Reading anew keeps the place of the token. -/
theorem reread_reads (way : Scanner.Rereading) [hs : s.Ready] :
    (reread way).Reads s fun _ t => t.start = s.start :=
  .act (Scanner.reread_reread way hs.token).start_eq

theorem accept_reads {kind : Kind} [s.Ready] (hk : kind ≠ .endOfFileToken) :
    (accept kind).Reads s fun b t =>
      (b = true ∧ s.token = kind ∧ t.left < s.left) ∨ (b = false ∧ s.token ≠ kind ∧ t = s) := by
  refine .ifAt (fun h => ?_) fun h => .pure (.inr ⟨rfl, h, rfl⟩)
  exact (advance_reads (h ▸ hk)).bind fun _ t _ _ _ ht => .pure (.inl ⟨rfl, h, ht⟩)

/-- A token that is accepted has been consumed. -/
theorem accept_takes {kind : Kind} :
    (accept kind).Reads s fun b t =>
      (b = true ∧ s.token = kind ∧ t = s.consume .plain) ∨ (b = false ∧ s.token ≠ kind ∧ t = s) :=
  .ifAt (fun h => ⟨true, _, rfl, .inl ⟨rfl, h, rfl⟩⟩) fun h => .pure (.inr ⟨rfl, h, rfl⟩)

namespace Reads
variable {p q : Parse α} {Q : α → ParseState → Prop}

/-- A choice that consumes the present token if it is of a kind. -/
theorem ifAccept {kind : Kind} [s.Ready] (hk : kind ≠ .endOfFileToken)
    (hp : ∀ (t : ParseState) [t.Ready], Moves s t → s.token = kind → t.left < s.left → p.Reads t Q)
    (hq : s.token ≠ kind → q.Reads s Q) :
    (accept kind >>= fun b => if b = true then p else q).Reads s Q := by
  refine (accept_reads hk).bind fun b t _ hm _ h => ?_
  rcases h with ⟨rfl, htok, hlt⟩ | ⟨rfl, htok, rfl⟩
  · exact hp t hm htok hlt
  · exact hq htok

end Reads

/-! ## Diagnostics -/

/-- What a report does: it moves nothing. -/
structure Reported (s t : ParseState) : Prop where
  faulty : t.Faulty
  still : s.Still t

theorem reportAt_reads {span : Span} {message : Message} {argument : Option String}
    {h : message.isGrammatical = true} : (reportAt span message argument h).Reads s fun _ t => Reported s t := by
  refine .act ⟨push_faulty s _, ?_⟩
  unfold ParseState.push
  split <;> rfl

theorem reportHere_reads {message : Message} {argument : Option String}
    {h : message.isGrammatical = true} : (reportHere message argument h).Reads s fun _ t => Reported s t :=
  .look reportAt_reads

theorem reportMissing_reads {text : String} :
    (reportMissing text).Reads s fun _ t => Reported s t := reportHere_reads

theorem reportExpected_reads {kind : Kind} :
    (reportExpected kind).Reads s fun _ t => Reported s t := reportHere_reads

theorem expect_reads {kind : Kind} [s.Ready] (hk : kind ≠ .endOfFileToken) :
    (expect kind).Reads s fun b t =>
      (b = true ∧ s.token = kind ∧ t.left < s.left) ∨
        (b = false ∧ s.token ≠ kind ∧ Reported s t) := by
  refine .ifAccept hk (fun t _ _ htok hlt => .pure (.inl ⟨rfl, htok, hlt⟩)) fun htok => ?_
  exact reportExpected_reads.bind fun _ t _ _ _ ht => .pure (.inr ⟨rfl, htok, ht⟩)

/-- A token that is expected has been consumed, or it is reported. -/
theorem expect_takes {kind : Kind} [s.Ready] :
    (expect kind).Reads s fun _ t => t.Faulty ∨ s.token = kind ∧ t = s.consume .plain := by
  refine accept_takes.bind fun b t _ _ _ h => ?_
  rcases h with ⟨rfl, htok, heq⟩ | ⟨rfl, -, rfl⟩
  · exact .pure (.inr ⟨htok, heq⟩)
  · exact reportExpected_reads.bind fun _ _ _ _ _ ht => .pure (.inl ht.faulty)

/-- A token that is expected is consumed, or it is reported. -/
theorem expect_fruitful {kind : Kind} [s.Ready] (hk : kind ≠ .endOfFileToken) :
    (expect kind).Reads s fun _ t => Fruitful s t :=
  (expect_reads hk).mono fun _ _ h =>
    h.elim (fun h => .inl h.2.2) fun h => .inr h.2.2.faulty

/-- A token that is there is consumed where it is expected. -/
theorem expect_here {kind : Kind} [s.Ready] (hk : kind ≠ .endOfFileToken) (h : s.token = kind) :
    (expect kind).Reads s fun b t => b = true ∧ t.left < s.left :=
  (expect_reads hk).mono fun _ _ ht =>
    ht.elim (fun ht => ⟨ht.1, ht.2.2⟩) fun ht => absurd h ht.2.1

/-- What a diagnostic stands for does not hold, or it has been reported. -/
theorem reportWhen_checks {c : Bool} {message : Message} {h : message.isGrammatical = true} :
    (reportWhen c message h).Reads s fun _ t => s.Still t ∧ (t.Faulty ∨ c = false) :=
  .ite (fun _ => reportHere_reads.mono fun _ _ h => ⟨h.still, .inl h.faulty⟩)
    fun hc => .pure ⟨.refl s, .inr (Bool.eq_false_iff.mpr hc)⟩

theorem reportWhen_reads {c : Bool} {message : Message} {h : message.isGrammatical = true} :
    (reportWhen c message h).Reads s fun _ t => s.Still t :=
  reportWhen_checks.mono fun _ _ h => h.1

theorem expectSemicolon_reads [s.Ready] : expectSemicolon.Reads s fun _ _ => True := by
  refine .ifAccept (by decide) (fun _ _ _ _ _ => .pure trivial) fun _ => ?_
  refine .look (.ite (fun _ => .pure trivial) fun _ => ?_)
  exact reportExpected_reads.mono fun _ _ _ => trivial

/-! ## Speculation and depth -/

theorem lookAhead_reads {p : Parse α} {P : α → Prop} (h : p.Reads s.flush fun a _ => P a) :
    (lookAhead p).Reads s fun a t => t = s.flush ∧ P a := by
  obtain ⟨a, t, hrun, hp⟩ := h
  refine ⟨a, t.rewind s.flush.checkpoint, ?_, (p.moves hrun).rewind_flush, hp⟩
  change (p.run s.flush).map _ = _
  rw [hrun]
  rfl

/-- An attempt ends where its routine does, or back where it began. -/
theorem attempt_reads {p : Parse (Option α)} {Q : Option α → ParseState → Prop}
    (h : p.Reads s.flush Q) :
    (attempt p).Reads s fun answer t =>
      (answer = none ∧ t = s.flush) ∨ (answer.isSome = true ∧ Q answer t) := by
  obtain ⟨answer, t, hrun, hq⟩ := h
  refine ⟨answer, if answer.isSome then t else t.rewind s.flush.checkpoint, ?_, ?_⟩
  · change (p.run s.flush).map _ = _
    rw [hrun]
    rfl
  · cases answer with
    | none => exact .inl ⟨rfl, (p.moves hrun).rewind_flush⟩
    | some a => exact .inr ⟨rfl, hq⟩

instance [hs : s.Ready] : s.deeper.Ready := hs.deeper

theorem deeper_reads {p : Parse α} {Q : α → ParseState → Prop} (hdepth : s.depth < nestingLimit)
    (h : p.Reads s.deeper Q) : (deeper p).Reads s fun a t => ∃ u, Q a u ∧ t = u.shallower := by
  obtain ⟨a, t, hrun, hq⟩ := h
  exact ⟨a, t.shallower, deeper_run_eq_some.mpr ⟨hdepth, t, hrun, rfl⟩, t, hq, rfl⟩

/-- A test of the token behind the present one changes no more than a flush. -/
theorem nextIs_reads {test : Parse Bool} {P : Bool → Prop}
    (h : test.Reads (s.flush.consume .plain) fun b _ => P b) :
    (nextIs test).Reads s fun b t => t = s.flush ∧ P b := by
  refine lookAhead_reads ?_
  obtain ⟨b, t, hrun, hp⟩ := h
  exact ⟨b, t, hrun, hp⟩

/-- A test of the present token and then of the one behind it. -/
theorem peek_reads {p q : Parse Bool} {A B : Prop} [s.Ready]
    (hp : p.Reads s fun b t => t = s ∧ (b = true → A))
    (hq : q.Reads (s.flush.consume .plain) fun b _ => b = true → B) :
    (p <&&> nextIs q).Reads s fun b t => s.Still t ∧ (b = true → t = s.flush ∧ A ∧ B) := by
  refine hp.and (fun t h => ⟨h.1 ▸ .refl s, nofun⟩) fun t _ _ _ h => ?_
  obtain ⟨rfl, ha⟩ := h
  exact (nextIs_reads hq).mono fun b u h => ⟨h.1 ▸ .flush t, fun hb => ⟨h.1, ha rfl, h.2 hb⟩⟩

theorem tokenIs_reads {test : Kind → Bool} :
    (tokenIs test).Reads s fun b t => t = s ∧ (b = true → test s.token = true) :=
  .observe ⟨rfl, id⟩

theorem isAt_reads {kind : Kind} :
    (isAt kind).Reads s fun b t => t = s ∧ (b = true → s.token = kind) :=
  .observe ⟨rfl, eq_of_beq⟩

theorem isAtAny_reads {kinds : List Kind} :
    (isAtAny kinds).Reads s fun b t => t = s ∧ (b = true → s.token ∈ kinds) :=
  .observe ⟨rfl, List.contains_iff_mem.mp⟩

theorem onSameLine_reads {test : Kind → Bool} :
    (onSameLine test).Reads s fun b t => t = s ∧ (b = true → test s.token = true) :=
  .observe ⟨rfl, fun h => (Bool.and_eq_true_iff.mp h).2⟩

/-- A token that is asked for on the same line has no line break before it. -/
theorem onSameLine_line {test : Kind → Bool} :
    (onSameLine test).Reads s fun b _ => b = true → s.reading.hasPrecedingLineBreak = false :=
  .observe fun h => (Bool.not_eq_true' _).mp (Bool.and_eq_true_iff.mp h).1

/-- What a test says where it does not move. -/
theorem Reads.said {p : Parse Bool} {A : Prop} (h : p.Reads s fun b t => t = s ∧ (b = true → A)) :
    p.Reads s fun b _ => b = true → A := h.mono fun _ _ h => h.2

/-- A test of the present token and then one that looks ahead. -/
theorem Reads.and_still {p q : Parse Bool} {A : Prop} [s.Ready]
    (hp : p.Reads s fun b t => t = s ∧ (b = true → A))
    (hq : A → q.Reads s fun _ t => s.Still t) :
    (p <&&> q).Reads s fun b t => s.Still t ∧ (b = true → A) := by
  refine hp.and (fun t h => ⟨h.1 ▸ .refl s, nofun⟩) fun t _ _ _ h => ?_
  obtain ⟨rfl, ha⟩ := h
  exact (hq (ha rfl)).mono fun b u h => ⟨h, fun _ => ha rfl⟩

/-- What a test says, and behind it the token that it asks for. -/
theorem advanceWhen_reads {test : Parse Bool} {Q : Bool → ParseState → Prop} [s.Ready]
    (h : test.Reads s Q) :
    (advanceWhen test).Reads s fun b t =>
      ∃ u, Q b u ∧ t = if b = true then u.consume .plain else u := by
  refine h.bind fun b t _ _ _ hq => .ite (fun hb => ?_) fun hb => ?_
  · obtain rfl : b = true := hb
    exact advance_run.bind fun _ _ _ _ _ heq => .pure ⟨t, hq, heq⟩
  · obtain rfl : b = false := Bool.eq_false_iff.mpr hb
    exact .pure ⟨t, hq, rfl⟩

theorem advanceIf_reads {test : Parse Bool} [s.Ready] (hs : s.token ≠ .endOfFileToken)
    (h : ∀ (t : ParseState) [t.Ready], test.Reads t fun _ u => u = t) :
    (advanceIf test).Reads s fun b t =>
      (b = true ∧ t.left < s.left) ∨ (b = false ∧ t = s.flush) := by
  refine .map ((attempt_reads (Q := fun _ t => t.left < s.left) ?_).mono fun answer t hq => ?_)
  · refine (advance_reads (s := s.flush) hs).bind fun _ t _ _ _ hlt => ?_
    exact (h t).bind fun b u _ _ _ hu => .pure (hu ▸ hlt)
  · rcases hq with ⟨rfl, rfl⟩ | ⟨hsome, hlt⟩
    · exact .inr ⟨rfl, rfl⟩
    · exact .inl ⟨hsome, hlt⟩

/-! ## Repetition -/

section Loops
variable {step : α → Parse (Turn α)} {I Q : α → ParseState → Prop}

/-- What a turn of a loop has to do: it moves on and keeps the invariant, or it ends the loop. -/
def AfterTurn (I Q : α → ParseState → Prop) (s : ParseState) : Turn α → ParseState → Prop
  | .again a, t => t.left < s.left ∧ I a t
  | .done a, t => Q a t

theorem turns_reads {n : Nat} {a : α} {s : ParseState} [hs : s.Ready] (hn : s.left < n)
    (h0 : I a s)
    (hstep : ∀ (a : α) (t : ParseState) [t.Ready], Moves s t → t.left ≤ s.left → I a t →
      (step a).Reads t (AfterTurn I Q t)) : (turns step n a).Reads s Q := by
  induction n generalizing s a with
  | zero => omega
  | succ n ih =>
    refine .look ((hstep a s (.refl s) (Nat.le_refl _) h0).bind fun r t ht hm hl hr => ?_)
    cases r with
    | done b => exact .pure hr
    | again b =>
      obtain ⟨hlt, hI⟩ := hr
      refine .look (.ite (fun _ => ?_) fun hstay => absurd ((hm.offset_lt_iff hs).mpr hlt) hstay)
      refine ih (by omega) hI fun a u _ hm' hl' => ?_
      exact hstep a u (hm.trans hm') (by omega)

/-- A loop whose turns move on ends. -/
theorem loop_reads {a : α} [s.Ready] (I : α → ParseState → Prop) (h0 : I a s)
    (hstep : ∀ (a : α) (t : ParseState) [t.Ready], Moves s t → t.left ≤ s.left → I a t →
      (step a).Reads t (AfterTurn I Q t)) : (loop step a).Reads s Q :=
  .look (turns_reads (Nat.lt_succ_self _) h0 hstep)

end Loops

theorem ifUnmoved_reads {start : Nat} {p : Parse Unit} {Q : Unit → ParseState → Prop}
    (hp : s.start.offset = start → p.Reads s Q) (hq : s.start.offset ≠ start → Q () s) :
    (ifUnmoved start p).Reads s Q :=
  .look (.ite (fun h => hp (eq_of_beq h)) fun h => .pure (hq fun heq => h (beq_iff_eq.mpr heq)))

theorem skip_reads {way : Scanner.Advance} [s.Ready] :
    (skip way).Reads s fun _ t => s.token ≠ .endOfFileToken → t.left < s.left :=
  .ifAt (fun h => .pure fun hne => absurd h hne) fun h =>
    (consume_reads way h).mono fun _ _ hlt _ => hlt

/-- Where nothing has been consumed of what was there, a token is skipped. -/
theorem ifUnmoved_moves {p : Parse Unit} {t : ParseState} [hs : s.Ready] [ht : t.Ready]
    (hm : Moves s t) (hne : s.token ≠ .endOfFileToken)
    (hp : p.Reads t fun _ u => t.token ≠ .endOfFileToken → u.left < t.left) :
    (ifUnmoved s.start.offset p).Reads t fun _ u => u.left < s.left := by
  have hle := hm.left_le hs
  refine ifUnmoved_reads (fun heq => ?_) fun hmoved => ?_
  · have hleft : t.left = s.left := by
      refine Nat.le_antisymm hle (Nat.le_of_not_lt fun hlt => ?_)
      have hlt := (hm.offset_lt_iff hs).mpr hlt
      omega
    exact hp.mono fun _ _ h => hleft ▸ h (hs.token_ne_end ht hleft hne)
  · refine Nat.lt_of_le_of_ne hle fun h => hmoved ?_
    rw [hm.start_eq hs h]

theorem skipToEnd_reads [s.Ready] :
    skipToEnd.Reads s fun _ t => t.token = .endOfFileToken := by
  refine loop_reads (fun _ _ => True) trivial fun _ t _ _ _ _ => ?_
  refine .ifAt (fun h => .pure h) fun h => ?_
  exact (advance_reads h).bind fun _ u _ _ _ hlt => .pure ⟨hlt, trivial⟩

end Parse
end EcmaSyntax
