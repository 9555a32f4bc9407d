import EcmaSyntax.Grammar.Parse

/-! # Speculation

A checkpoint holds no more than the present token and a number of diagnostics, and the depth is not
part of it. That is enough to go back because of what every routine keeps: the sink at its entry
stays a prefix, and the depth is the same at its end. -/
namespace EcmaSyntax
open Parse

/-- What a speculation that is undone leaves of it: the faults that the scanner held when it began
have been handed on, and nothing else has changed. -/
structure ParseState.Undone (s t : ParseState) : Prop where
  reading_eq : t.reading = s.reading
  depth_eq : t.depth = s.depth
  limitReported_eq : t.limitReported = s.limitReported
  pending_eq : t.scanner.pending = ∅
  reported_eq : t.sink.toList = s.sink.toList ++ s.scanner.pending.toList

namespace ParseState.Undone
variable {s t : ParseState}

theorem flush (s : ParseState) : s.Undone s.flush := by
  refine ⟨rfl, rfl, rfl, rfl, ?_⟩
  exact Sink.toList_extend s.sink s.scanner.pending

theorem eq_flush (h : s.Undone t) : t = s.flush := by
  obtain ⟨⟨reading, pending⟩, ⟨entries⟩, depth, limitReported⟩ := t
  obtain ⟨hreading, hdepth, hlimit, hpending, hreported⟩ := h
  cases hreading
  cases hdepth
  cases hlimit
  cases hpending
  have hentries : entries = s.sink.entries ++ s.scanner.pending.entries := by
    apply Array.toList_inj.mp
    rw [Array.toList_append]
    exact hreported
  cases hentries
  rfl

end ParseState.Undone

namespace Parse
variable {α : Type} {s t : ParseState}

/-- The sink at the entry of a routine stays a prefix, and its end is as deep as its entry. -/
theorem balanced (f : Parse α) {a : α} (h : f.run s = some (a, t)) :
    s.sink.toList <+: t.sink.toList ∧ t.depth = s.depth :=
  ⟨(f.moves h).sink_extends, (f.moves h).depth_eq⟩

theorem lookAhead_run (f : Parse α) (s : ParseState) :
    (lookAhead f).run s = (f.run s.flush).map fun answer => (answer.1, s.flush) := by
  change (f.run s.flush).map _ = _
  refine Option.map_congr fun answer hrun => ?_
  obtain ⟨a, u⟩ := answer
  exact congrArg (Prod.mk a) (f.moves hrun).rewind_flush

theorem attempt_run_none (f : Parse (Option α)) :
    (attempt f).run s = some (none, t) ↔
      (∃ u, f.run s.flush = some (none, u)) ∧ t = s.flush := by
  change (f.run s.flush).map _ = _ ↔ _
  rw [Option.map_eq_some_iff]
  constructor
  · rintro ⟨⟨answer, u⟩, hrun, heq⟩
    cases answer with
    | none =>
      cases heq
      exact ⟨⟨u, hrun⟩, (f.moves hrun).rewind_flush⟩
    | some a => cases heq
  · rintro ⟨⟨u, hrun⟩, rfl⟩
    exact ⟨(none, u), hrun, congrArg (Prod.mk none) (f.moves hrun).rewind_flush⟩

end Parse

/-- Speculation leaves no trace, whatever the routine and the state are. -/
theorem speculation_undone (s : ParseState) :
    (∀ {α : Type} (f : Parse α) (a : α) (t : ParseState),
      (lookAhead f).run s = some (a, t) ↔ (∃ u, f.run s.flush = some (a, u)) ∧ s.Undone t) ∧
    ∀ {α : Type} (f : Parse (Option α)) (t : ParseState),
      (attempt f).run s = some (none, t) ↔
        (∃ u, f.run s.flush = some (none, u)) ∧ s.Undone t := by
  have hundone (t : ParseState) : s.Undone t ↔ t = s.flush :=
    ⟨fun h => h.eq_flush, fun h => h ▸ .flush s⟩
  constructor
  · intro α f a t
    rw [lookAhead_run, Option.map_eq_some_iff, hundone]
    constructor
    · rintro ⟨⟨b, u⟩, hrun, heq⟩
      cases heq
      exact ⟨⟨u, hrun⟩, rfl⟩
    · rintro ⟨⟨u, hrun⟩, rfl⟩
      exact ⟨(a, u), hrun, rfl⟩
  · intro α f t
    rw [attempt_run_none, hundone]

end EcmaSyntax
