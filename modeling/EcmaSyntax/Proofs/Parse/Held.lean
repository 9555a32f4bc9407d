import EcmaSyntax.Proofs.Parse.Ready
import EcmaSyntax.Proofs.Token.Faults

/-! # Where reports lie

A report is made at a place that has been read, and the faults of a token come with the token. So in
every state of a parse all that has been found lies before the front of the present token, and at a
token that opens a list nothing lies behind its start. -/
namespace EcmaSyntax.ParseState

/-- The next token starts where the present one ends, or behind it. -/
theorem Ready.stop_le_consume {s : ParseState} (h : s.Ready) (way : Scanner.Advance) :
    s.scanner.stop.offset ≤ (s.consume way).start.offset := by
  have hready := (Step.consume way s).ready h
  have hmoved := Scanner.advance_movedOn (s := s.flush.scanner) way h.token.stop_sound
  rw [← show (s.consume way).full = s.scanner.stop from hmoved.full_eq]
  exact hready.full_start.offset_le hready.full_sound

/-- A state in which all that has been found lies before the front of the present token. -/
structure Held (s : ParseState) : Prop where
  ready : s.Ready
  spelled : s.reading.Spelled
  pending : s.scanner.HeldBefore s.scanner.front
  sink : ∀ d ∈ s.sink.toList, d.span.start ≤ s.scanner.front

namespace Held
variable {s : ParseState} (h : s.Held)
include h

theorem start_le_front : s.start.offset ≤ s.scanner.front :=
  Scanner.start_le_front h.ready.start_sound h.ready.start_stop

theorem flush : s.flush.Held where
  ready := (Step.flush s).ready h.ready
  spelled := h.spelled
  pending _ hd := nomatch hd
  sink d hd := by
    rw [ParseState.flush, Sink.toList_extend, List.mem_append] at hd
    exact hd.elim (h.sink d) (h.pending d)

theorem consume (way : Scanner.Advance) : (s.consume way).Held := by
  have hstop := h.ready.token.stop_sound
  have hready := (Step.consume way s).ready h.ready
  have hflush := h.flush
  have hold : s.scanner.front ≤ (s.consume way).scanner.front :=
    Nat.le_trans (Scanner.front_le_stop h.ready.start_sound h.ready.start_stop) <|
      Nat.le_trans (h.ready.stop_le_consume way)
        (Scanner.start_le_front hready.start_sound hready.start_stop)
  exact ⟨hready, Scanner.advance_spelled way hstop,
    Scanner.advance_held (s := s.flush.scanner) way hstop (fun _ hd => nomatch hd),
    fun d hd => Nat.le_trans (hflush.sink d hd) hold⟩

theorem reread (way : Scanner.Rereading) : (s.reread way).Held where
  ready := (Step.reread way s).ready h.ready
  spelled := (Scanner.reread_spelled way h.ready.start_sound h.ready.start_stop h.spelled).1
  pending := Scanner.reread_held way h.ready.token h.spelled h.pending
  sink d hd := Nat.le_trans (h.sink d hd) (Scanner.front_le_reread way h.ready.token h.spelled)

/-- One more report at a place that has been read. -/
theorem add {d : Diagnostic} {t : ParseState} (hd : d.span.start ≤ s.start.offset)
    (ht : t.Ready) (hscanner : t.scanner = s.scanner)
    (hsink : ∀ e ∈ t.sink.toList, e ∈ s.sink.toList ∨ e = d) : t.Held := by
  refine ⟨ht, ?_, ?_, fun e he => ?_⟩
  · rw [ParseState.reading, hscanner]
    exact h.spelled
  · rw [hscanner]
    exact h.pending
  · rw [hscanner]
    rcases hsink e he with he | rfl
    · exact h.sink e he
    · exact Nat.le_trans hd h.start_le_front

theorem push {d : Diagnostic} (hd : d.span.start ≤ s.start.offset) : (s.push d).Held := by
  refine h.add hd (h.ready.push d) ?_ fun e he => ?_
  · unfold ParseState.push
    split <;> rfl
  · unfold ParseState.push at he
    split at he
    · exact .inl he
    · rwa [Sink.toList_add, List.mem_append, List.mem_singleton] at he

theorem reportLimit : s.reportLimit.Held := by
  refine h.add (Nat.le_refl _) ((Step.reportLimit s).ready h.ready)
    (d := .report s.tokenSpan .nestingTooDeep) ?_ fun e he => ?_
  · unfold ParseState.reportLimit
    split <;> rfl
  · unfold ParseState.reportLimit at he
    split at he
    · exact .inl he
    · rwa [Sink.toList_add, List.mem_append, List.mem_singleton] at he

theorem deeper : s.deeper.Held := ⟨h.ready.deeper, h.spelled, h.pending, h.sink⟩

theorem shallower : s.shallower.Held := ⟨h.ready.shallower, h.spelled, h.pending, h.sink⟩

/-- Behind a token that opens a list lies nothing of what has been found at it. -/
theorem lt_consume (hs : s.token.isOpening = true) {d : Diagnostic} (hd : d ∈ s.sink.toList)
    (way : Scanner.Advance) : d.span.start < (s.consume way).start.offset := by
  have hfront : s.scanner.front = s.start.offset := if_pos hs
  have hend : s.token ≠ .endOfFileToken := by
    intro heq
    rw [heq] at hs
    cases hs
  have hstop : s.start.offset < s.scanner.stop.offset := by
    refine (h.ready.start_stop.offset_lt_iff h.ready.start_sound).mpr ?_
    exact h.ready.token.stop_lt hend
  have hnext := h.ready.stop_le_consume way
  have hle := h.sink d hd
  omega

end Held
end EcmaSyntax.ParseState
