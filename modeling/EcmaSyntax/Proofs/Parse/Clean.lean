import EcmaSyntax.Proofs.Parse.Gives

/-! # Runs without a diagnostic

The faults of a token are held by the scanner until the token is consumed. Where a token has been
consumed and nothing is reported, there were none, and handing them on changes nothing. -/
namespace EcmaSyntax
open Parse

theorem Scanner.pending_reread (s : Scanner) (way : Rereading) :
    s.pending.toList <+: (s.reread way).pending.toList := by
  have htake (l : Lexeme) : s.pending.toList <+: (s.take l).pending.toList := by
    unfold take reportFault
    split
    · exact List.prefix_rfl
    · simp [report]
  have hslash : s.pending.toList <+: s.rescanSlash.pending.toList := by
    unfold rescanSlash
    split
    · exact htake _
    · exact List.prefix_rfl
  have htemplate : s.pending.toList <+: s.rescanTemplate.pending.toList := by
    unfold rescanTemplate
    split
    · exact htake _
    · exact List.prefix_rfl
  have hgreater : s.rescanGreaterThan.pending = s.pending := by
    unfold rescanGreaterThan
    split <;> rfl
  have hname : s.rescanHyphenatedName.pending = s.pending := by
    unfold rescanHyphenatedName
    split <;> rfl
  cases way with
  | slash => exact hslash
  | template => exact htemplate
  | greaterThan => exact hgreater ▸ List.prefix_rfl
  | hyphenatedName => exact hname ▸ List.prefix_rfl

theorem Sink.toList_eq_nil {s : Sink} : s.toList = [] ↔ s = ∅ := by
  obtain ⟨entries⟩ := s
  simp [toList, EmptyCollection.emptyCollection]

namespace ParseState
variable {s t : ParseState}

theorem flush_faulty (h : s.scanner.pending ≠ ∅) : s.flush.Faulty := by
  rw [faulty_iff]
  simp [flush, Scanner.collect, Sink.toList_eq_nil, h]

theorem flush_eq_self (h : s.scanner.pending = ∅) : s.flush = s := by
  obtain ⟨⟨reading, pending⟩, ⟨entries⟩, depth, limitReported⟩ := s
  obtain rfl : pending = ∅ := h
  simp [flush, Scanner.collect, Sink.extend, EmptyCollection.emptyCollection]

theorem flush_flush : s.flush.flush = s.flush := flush_eq_self rfl

theorem consume_flush {way : Scanner.Advance} : s.flush.consume way = s.consume way := by
  unfold consume
  rw [flush_flush]

end ParseState

namespace Moves
variable {s t : ParseState}

/-- The faults of a token are reported when it is consumed. -/
theorem faulty_of_pending (h : Moves s t) (hs : s.Ready) (hlt : t.left < s.left)
    (hp : s.scanner.pending ≠ ∅) : t.Faulty := by
  induction h with
  | refl => exact absurd hlt (Nat.lt_irrefl _)
  | @cons s u t step later ih =>
    have hready := step.ready hs
    cases step with
    | flush => exact later.faulty (ParseState.flush_faulty hp)
    | consume => exact later.faulty (ParseState.flush_faulty hp)
    | reread way =>
      have hstart := (Scanner.reread_reread way hs.token).start_eq
      refine ih hready (Nat.lt_of_lt_of_eq hlt (congrArg Cursor.left hstart.symm)) fun h => hp ?_
      have h : (s.scanner.reread way).pending = ∅ := h
      have hprefix := s.scanner.pending_reread way
      rw [Sink.toList_eq_nil.mpr h] at hprefix
      exact Sink.toList_eq_nil.mp (List.prefix_nil.mp hprefix)
    | push d => exact later.faulty (s.push_faulty d)
    | reportLimit => exact later.faulty s.reportLimit_faulty

/-- Where a token has been consumed without a diagnostic, it had no faults. -/
theorem flush_eq (h : Moves s t) [hs : s.Ready] (hlt : t.left < s.left) (ht : t.sink = ∅) :
    s.flush = s :=
  ParseState.flush_eq_self (Decidable.byContradiction fun hp => h.faulty_of_pending hs hlt hp ht)

end Moves

namespace ParseState
variable {s t : ParseState}

instance [hs : s.Ready] : s.shallower.Ready := ⟨hs.token, hs.faulty_of_limit⟩

/-- A token that is consumed without a diagnostic has no faults. -/
theorem flush_eq_of_consume [hs : s.Ready] {way : Scanner.Advance} (h : s.token ≠ .endOfFileToken)
    (hm : Moves (s.consume way) t) (ht : t.sink = ∅) : s.flush = s :=
  Moves.flush_eq (.cons (.consume way s) hm)
    (Nat.lt_of_le_of_lt (hm.left_le inferInstance) (consume_left_lt way h)) ht

end ParseState
end EcmaSyntax
