import EcmaSyntax.Grammar.Step
import EcmaSyntax.Proofs.Token.Scanner

/-! # States on a token

What holds of a state from the first token on, and how far a parse has moved between two states. No
step goes back in the source or takes a diagnostic away. -/
namespace EcmaSyntax

namespace ParseState

/-- Whether something has been reported. -/
def Faulty (s : ParseState) : Prop := s.sink ≠ ∅

/-- A state that stands on a token. -/
class Ready (s : ParseState) : Prop where
  token : s.reading.Ready
  faulty_of_limit : s.limitReported = true → s.Faulty

theorem not_faulty {s : ParseState} (h : s.sink = ∅) : ¬ s.Faulty := fun hf => hf h

theorem faulty_iff {s : ParseState} : s.Faulty ↔ s.sink.toList ≠ [] := by
  obtain ⟨_, ⟨entries⟩, _, _⟩ := s
  simp [Faulty, Sink.toList, EmptyCollection.emptyCollection]

theorem push_faulty (s : ParseState) (d : Diagnostic) : (s.push d).Faulty := by
  rw [faulty_iff]
  unfold push
  split
  case isTrue h =>
    intro hnil
    have hentries : s.sink.entries = #[] := Array.toList_eq_nil_iff.mp hnil
    simp [Sink.last?, hentries] at h
  · simp

theorem Ready.push {s : ParseState} (h : s.Ready) (d : Diagnostic) : (s.push d).Ready := by
  refine ⟨?_, fun _ => s.push_faulty d⟩
  unfold ParseState.push
  split <;> exact h.token

theorem reportLimit_faulty (s : ParseState) [h : s.Ready] : s.reportLimit.Faulty := by
  unfold reportLimit
  split
  case isTrue hl => exact h.faulty_of_limit hl
  · rw [faulty_iff]
    simp

end ParseState

/-! ## Moving on -/

namespace Step
variable {s t : ParseState}

theorem faulty (h : Step s t) (hs : s.Faulty) : t.Faulty := by
  rw [ParseState.faulty_iff] at hs ⊢
  obtain ⟨later, hlater⟩ := h.sink_extends
  rw [← hlater]
  simp [hs]

/-- The limit of nesting stays reported. -/
theorem limitReported (h : Step s t) (hs : s.limitReported = true) : t.limitReported = true := by
  cases h with
  | flush | consume | reread => exact hs
  | push d =>
    unfold ParseState.push
    split <;> exact hs
  | reportLimit => rwa [ParseState.reportLimit, if_pos hs]

/-- Where a step leaves the places of the present token. -/
theorem places (h : Step s t) (hs : s.Ready) :
    (t.start = s.start ∧ t.full = s.full) ∨
      (t.full = s.scanner.stop ∧ t.full.Reaches t.start) := by
  cases h with
  | flush => exact .inl ⟨rfl, rfl⟩
  | consume way =>
    have hm := Scanner.advance_movedOn (s := s.flush.scanner) way hs.token.stop_sound
    exact .inr ⟨hm.full_eq, hm.ready.full_start⟩
  | reread way =>
    have hr := Scanner.reread_reread (s := s.scanner) way hs.token
    exact .inl ⟨hr.start_eq, hr.full_eq⟩
  | push d =>
    unfold ParseState.push
    split <;> exact .inl ⟨rfl, rfl⟩
  | reportLimit =>
    unfold ParseState.reportLimit
    split <;> exact .inl ⟨rfl, rfl⟩

theorem ready (h : Step s t) (hs : s.Ready) : t.Ready := by
  have hfaulty := h.faulty
  have hlimit := hs.faulty_of_limit
  cases h with
  | flush => exact ⟨hs.token, fun hl => hfaulty (hlimit hl)⟩
  | consume way =>
    have hm := Scanner.advance_movedOn (s := s.flush.scanner) way hs.token.stop_sound
    exact ⟨hm.ready, fun hl => hfaulty (hlimit hl)⟩
  | reread way => exact ⟨(Scanner.reread_reread way hs.token).ready, fun hl => hfaulty (hlimit hl)⟩
  | push d => exact hs.push d
  | reportLimit =>
    refine ⟨?_, fun _ => s.reportLimit_faulty⟩
    unfold ParseState.reportLimit
    split <;> exact hs.token

end Step

namespace ParseState.Ready
variable {s : ParseState}

theorem full_sound (h : s.Ready) : s.full.Sound := h.token.sound
theorem start_sound (h : s.Ready) : s.start.Sound := h.token.start_sound
theorem full_start (h : s.Ready) : s.full.Reaches s.start := h.token.full_start

theorem start_stop (h : s.Ready) : s.start.Reaches s.scanner.stop := h.token.start_stop

/-- The end of the source is where nothing is left. -/
theorem ended_iff (h : s.Ready) : s.token = .endOfFileToken ↔ s.left = 0 := h.token.ended

/-- A token that is there is still there where nothing has been consumed. -/
theorem token_ne_end {t : ParseState} (hs : s.Ready) (ht : t.Ready) (hleft : t.left = s.left)
    (hne : s.token ≠ .endOfFileToken) : t.token ≠ .endOfFileToken := fun h =>
  hne (hs.ended_iff.mpr (hleft ▸ ht.ended_iff.mp h))

/-- Behind a token the next one is looked for where the token ends. -/
theorem consume_full (h : s.Ready) (way : Scanner.Advance) :
    (s.consume way).full = s.scanner.stop :=
  (Scanner.advance_movedOn (s := s.flush.scanner) way h.token.stop_sound).full_eq

theorem deeper (h : s.Ready) : s.deeper.Ready := ⟨h.token, h.faulty_of_limit⟩

theorem shallower (h : s.Ready) : s.shallower.Ready := ⟨h.token, h.faulty_of_limit⟩

end ParseState.Ready

/-- Less is left behind a token that is consumed. -/
theorem ParseState.consume_left_lt {s : ParseState} [hs : s.Ready] (way : Scanner.Advance)
    (ht : s.token ≠ .endOfFileToken) : (s.consume way).left < s.left := by
  have hm := Scanner.advance_movedOn (s := s.flush.scanner) way hs.token.stop_sound
  have hstop : s.scanner.stop.left < s.left := hs.token.stop_lt ht
  have hle := hm.ready.full_start.left_le hm.ready.sound
  rw [hm.full_eq] at hle
  exact Nat.lt_of_le_of_lt hle hstop

namespace Moves
variable {s t : ParseState}

theorem ready (h : Moves s t) (hs : s.Ready) : t.Ready :=
  h.preserves (fun step hs => step.ready hs) hs

theorem faulty (h : Moves s t) (hs : s.Faulty) : t.Faulty :=
  h.preserves (fun step hs => step.faulty hs) hs

theorem limitReported (h : Moves s t) (hs : s.limitReported = true) : t.limitReported = true :=
  h.preserves (fun step hs => step.limitReported hs) hs

/-- What is not faulty has not been so before. -/
theorem sink_eq_empty (h : Moves s t) (ht : t.sink = ∅) : s.sink = ∅ :=
  Decidable.byContradiction fun hs => h.faulty hs ht

theorem start_reaches (h : Moves s t) (hs : s.Ready) : s.start.Reaches t.start := by
  induction h with
  | refl => exact .refl _
  | cons step _ ih =>
    refine .trans ?_ (ih (step.ready hs))
    rcases step.places hs with ⟨hstart, -⟩ | ⟨hfull, hreach⟩
    · exact hstart ▸ .refl _
    · exact hs.start_stop.trans (hfull ▸ hreach)

theorem full_reaches (h : Moves s t) (hs : s.Ready) : s.full.Reaches t.full := by
  induction h with
  | refl => exact .refl _
  | cons step _ ih =>
    refine .trans ?_ (ih (step.ready hs))
    rcases step.places hs with ⟨-, hfull⟩ | ⟨hfull, -⟩
    · exact hfull ▸ .refl _
    · exact hs.full_start.trans (hfull ▸ hs.start_stop)

theorem left_le (h : Moves s t) (hs : s.Ready) : t.left ≤ s.left :=
  (h.start_reaches hs).left_le hs.start_sound

/-- Where nothing has been consumed, the present token is where it was. -/
theorem start_eq (h : Moves s t) (hs : s.Ready) (hleft : t.left = s.left) : t.start = s.start := by
  rcases (h.start_reaches hs).eq_or_lt hs.start_sound with heq | hlt
  · exact heq
  · have hlt : t.left < s.left := hlt.1
    omega

theorem offset_lt_iff (h : Moves s t) (hs : s.Ready) :
    s.start.offset < t.start.offset ↔ t.left < s.left :=
  (h.start_reaches hs).offset_lt_iff hs.start_sound

/-- What has been consumed ends behind where it began. -/
theorem start_reaches_full (h : Moves s t) (hs : s.Ready) (hleft : t.left < s.left) :
    s.start.Reaches t.full := by
  induction h with
  | refl => omega
  | cons step later ih =>
    rcases step.places hs with ⟨hstart, -⟩ | ⟨hfull, -⟩
    · rw [← hstart]
      refine ih (step.ready hs) ?_
      unfold ParseState.left at hleft ⊢
      rw [hstart]
      exact hleft
    · exact (hfull ▸ hs.start_stop).trans (later.full_reaches (step.ready hs))

/-- Either the present token is still there, or it has been consumed. -/
theorem still_or_past (h : Moves s t) (hs : s.Ready) :
    (t.start = s.start ∧ t.full = s.full) ∨ s.start.Reaches t.full := by
  induction h with
  | refl => exact .inl ⟨rfl, rfl⟩
  | cons step later ih =>
    have hready := step.ready hs
    rcases step.places hs with ⟨hstart, hfull⟩ | ⟨hfull, -⟩
    · rw [← hstart, ← hfull]
      exact ih hready
    · exact .inr ((hfull ▸ hs.start_stop).trans (later.full_reaches hready))

end Moves

/-- Something has been consumed between two states, or something has been reported. -/
def Fruitful (s t : ParseState) : Prop := t.left < s.left ∨ t.Faulty

namespace Fruitful
variable {s t u : ParseState}

theorem move (h : Fruitful s t) (hm : Moves t u) (ht : t.Ready) : Fruitful s u := by
  have hle := hm.left_le ht
  exact h.imp (fun hlt => by omega) hm.faulty

theorem of_move (hm : Moves s t) (hs : s.Ready) (h : Fruitful t u) : Fruitful s u := by
  have hle := hm.left_le hs
  exact h.imp_left fun hlt => by omega

end Fruitful

end EcmaSyntax
