import EcmaSyntax.Grammar.State

/-! # Steps of a parse

Whatever a routine of the grammar does, it does by single steps: it hands the faults of the scanner
on, consumes the present token, reads it anew or reports. Steps only add to the sink and leave the
depth alone, so a state can be rebuilt from a checkpoint after any number of them. On its way a
routine may also read something one level deeper, as long as levels are left. -/
namespace EcmaSyntax

/-- One step of a parse. Faults of tokens are handed on, and the limit of nesting is reported by a
step of its own: what else is reported is for the grammar to find. -/
inductive Step : ParseState → ParseState → Prop
  | flush (s : ParseState) : Step s s.flush
  | consume (way : Scanner.Advance) (s : ParseState) : Step s (s.consume way)
  | reread (way : Scanner.Rereading) (s : ParseState) : Step s (s.reread way)
  | push (d : Diagnostic) (hd : d.isAny Message.isGrammatical = true) (s : ParseState) : Step s (s.push d)
  | reportLimit (s : ParseState) : Step s s.reportLimit

/-- Any number of steps. -/
inductive Moves : ParseState → ParseState → Prop
  | refl (s : ParseState) : Moves s s
  | cons {s t u : ParseState} : Step s t → Moves t u → Moves s u

/-- The greatest number of nested rules. -/
def Parse.nestingLimit : Nat := 500

/-- States that a parse may come through on its way from a state: by steps, and one level deeper. -/
inductive Along : ParseState → ParseState → Prop
  | refl (s : ParseState) : Along s s
  | step {s t u : ParseState} : Step s t → Along t u → Along s u
  | deeper {s u : ParseState} : s.depth < Parse.nestingLimit → Along s.deeper u → Along s u

namespace Moves
variable {s t u : ParseState}

theorem single (h : Step s t) : Moves s t := .cons h (.refl t)

theorem trans (h : Moves s t) (h' : Moves t u) : Moves s u := by
  induction h with
  | refl => exact h'
  | cons step _ ih => exact .cons step (ih h')

/-- What every step keeps is kept by any number of steps. -/
theorem preserves {P : ParseState → Prop} (hstep : ∀ {s t}, Step s t → P s → P t)
    (h : Moves s t) (hs : P s) : P t := by
  induction h with
  | refl => exact hs
  | cons step _ ih => exact ih (hstep step hs)

theorem along (h : Moves s t) (h' : Along t u) : Along s u := by
  induction h with
  | refl => exact h'
  | cons step _ ih => exact .step step (ih h')

end Moves

/-- What every step and every level keeps holds on the whole way. -/
theorem Along.preserves {P : ParseState → Prop} (hstep : ∀ {s t}, Step s t → P s → P t)
    (hdeeper : ∀ {s : ParseState}, s.depth < Parse.nestingLimit → P s → P s.deeper)
    {s u : ParseState} (h : Along s u) (hs : P s) : P u := by
  induction h with
  | refl => exact hs
  | step step _ ih => exact ih (hstep step hs)
  | deeper hdepth _ ih => exact ih (hdeeper hdepth hs)

/-! ## The depth -/

@[simp] theorem ParseState.depth_push (s : ParseState) (d : Diagnostic) :
    (s.push d).depth = s.depth := by
  unfold ParseState.push
  split <;> rfl

@[simp] theorem ParseState.depth_reportLimit (s : ParseState) :
    s.reportLimit.depth = s.depth := by
  unfold ParseState.reportLimit
  split <;> rfl

theorem Step.depth_eq {s t : ParseState} (h : Step s t) : t.depth = s.depth := by
  cases h with
  | flush | consume | reread => rfl
  | push d => exact s.depth_push d
  | reportLimit => exact s.depth_reportLimit

theorem Moves.depth_eq {s t : ParseState} (h : Moves s t) : t.depth = s.depth :=
  h.preserves (P := fun u => u.depth = s.depth) (fun step hs => step.depth_eq.trans hs) rfl

/-- A state at another depth. -/
def ParseState.atDepth (s : ParseState) (n : Nat) : ParseState := { s with depth := n }

/-- No step depends on the depth. -/
theorem Step.atDepth {s t : ParseState} (n : Nat) (h : Step s t) :
    Step (s.atDepth n) (t.atDepth n) := by
  cases h with
  | flush => exact .flush _
  | consume way => exact .consume way _
  | reread way => exact .reread way _
  | push d hd =>
    have h : (s.push d).atDepth n = (s.atDepth n).push d := by
      unfold ParseState.push ParseState.atDepth
      split <;> rfl
    exact h ▸ .push d hd _
  | reportLimit =>
    have h : s.reportLimit.atDepth n = (s.atDepth n).reportLimit := by
      unfold ParseState.reportLimit ParseState.atDepth
      split <;> rfl
    exact h ▸ .reportLimit _

theorem Moves.atDepth {s t : ParseState} (n : Nat) (h : Moves s t) :
    Moves (s.atDepth n) (t.atDepth n) := by
  induction h with
  | refl => exact .refl _
  | cons step _ ih => exact .cons (step.atDepth n) ih

/-- A run that is one level deeper comes back to the level where it began. -/
theorem Moves.shallower {s t : ParseState} (h : Moves s.deeper t) : Moves s t.shallower := by
  have hdepth : t.depth - 1 = s.depth := by
    rw [h.depth_eq]
    exact Nat.add_sub_cancel s.depth 1
  have hm := h.atDepth s.depth
  have ht : t.shallower = t.atDepth s.depth := by
    rw [ParseState.shallower, hdepth]
    rfl
  exact ht ▸ hm

/-! ## The sink -/

theorem ParseState.toList_push (s : ParseState) (d : Diagnostic) :
    s.sink.toList <+: (s.push d).sink.toList := by
  unfold ParseState.push
  split
  · exact List.prefix_rfl
  · simp

theorem ParseState.toList_reportLimit (s : ParseState) :
    s.sink.toList <+: s.reportLimit.sink.toList := by
  unfold ParseState.reportLimit
  split
  · exact List.prefix_rfl
  · simp

/-- A step only adds to the sink. -/
theorem Step.sink_extends {s t : ParseState} (h : Step s t) :
    s.sink.toList <+: t.sink.toList := by
  cases h with
  | flush => simp [ParseState.flush, Scanner.collect]
  | consume => simp [ParseState.consume, ParseState.flush, Scanner.collect]
  | reread => exact List.prefix_rfl
  | push d => exact s.toList_push d
  | reportLimit => exact s.toList_reportLimit

theorem Moves.sink_extends {s t : ParseState} (h : Moves s t) :
    s.sink.toList <+: t.sink.toList := by
  induction h with
  | refl => exact List.prefix_rfl
  | cons step _ ih => exact step.sink_extends.trans ih

/-! ## Going back -/

theorem Sink.truncate_of_extends {s t : Sink} (h : s.toList <+: t.toList) :
    t.truncate s.size = s := by
  obtain ⟨later, hlater⟩ := h
  have hl : (t.truncate s.size).toList = s.toList := by
    rw [toList_truncate, ← hlater, ← length_toList, List.take_left]
  cases s
  simpa [truncate, toList, ← Array.toList_inj] using hl

/-- After any number of steps a state is rebuilt from its checkpoint. -/
theorem Moves.rewind_checkpoint {s t : ParseState} (h : Moves s t)
    (hp : s.scanner.pending = ∅) : t.rewind s.checkpoint = s := by
  obtain ⟨⟨reading, pending⟩, sink, depth, limitReported⟩ := s
  cases hp
  have hd := h.depth_eq
  have hs := Sink.truncate_of_extends h.sink_extends
  simp only at hd hs
  simp only [ParseState.rewind, ParseState.checkpoint, ParseState.reading, hd, hs]
  rfl

/-- A speculation flushes first, so that its checkpoint holds everything. -/
theorem Moves.rewind_flush {s t : ParseState} (h : Moves s.flush t) :
    t.rewind s.flush.checkpoint = s.flush :=
  h.rewind_checkpoint rfl

end EcmaSyntax
