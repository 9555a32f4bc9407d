import EcmaSyntax.Proofs.Coupling.Source
import EcmaSyntax.Proofs.Parse.Held

/-! # Runs with other reports

Two runs in contexts that differ in strictness stand on the same tokens, whatever they have reported.
Behind the start of a speculation they also report the same, unless an early error may be found in
it; so they decide alike wherever the number of diagnostics since that start is what counts. -/
namespace EcmaSyntax
open Parse

/-! ## States abreast -/

namespace ParseState

/-- Two states that stand on the same token at the same depth, whatever has been reported. -/
structure Abreast (s s' : ParseState) : Prop where
  scanner_eq : s'.scanner = s.scanner
  depth_eq : s'.depth = s.depth
  limitReported_eq : s'.limitReported = s.limitReported
  held : s.Held
  held' : s'.Held

namespace Abreast
variable {s s' : ParseState} (h : s.Abreast s')
include h

theorem start_eq : s'.start = s.start := congrArg (·.start) h.scanner_eq

theorem tokenSpan_eq : s'.tokenSpan = s.tokenSpan := by
  rw [tokenSpan, h.start_eq, h.scanner_eq]
  rfl

theorem flush : s.flush.Abreast s'.flush :=
  ⟨congrArg (·.collect.2) h.scanner_eq, h.depth_eq, h.limitReported_eq, h.held.flush, h.held'.flush⟩

theorem consume (way : Scanner.Advance) : (s.consume way).Abreast (s'.consume way) :=
  ⟨congrArg (·.advance way) h.flush.scanner_eq, h.depth_eq, h.limitReported_eq, h.held.consume way,
    h.held'.consume way⟩

theorem reread (way : Scanner.Rereading) : (s.reread way).Abreast (s'.reread way) :=
  ⟨congrArg (·.reread way) h.scanner_eq, h.depth_eq, h.limitReported_eq, h.held.reread way,
    h.held'.reread way⟩

/-- The scanner, the depth and the limit are left alone by a report. -/
theorem push {d : Diagnostic} (hd : d.span.start ≤ s.start.offset) : (s.push d).Abreast s' := by
  refine ⟨?_, ?_, ?_, h.held.push hd, h.held'⟩
  · rw [h.scanner_eq]
    unfold ParseState.push
    split <;> rfl
  · rw [h.depth_eq, depth_push]
  · rw [h.limitReported_eq]
    unfold ParseState.push
    split <;> rfl

omit h in
theorem symm (h : s.Abreast s') : s'.Abreast s :=
  ⟨h.scanner_eq.symm, h.depth_eq.symm, h.limitReported_eq.symm, h.held', h.held⟩

theorem push_both {d d' : Diagnostic} (hd : d.span.start ≤ s.start.offset)
    (hd' : d'.span.start ≤ s.start.offset) : (s.push d).Abreast (s'.push d') :=
  ((h.push hd).symm.push (h.start_eq ▸ hd')).symm

theorem note_both (message message' : Option Message) :
    (s.note message).Abreast (s'.note message') := by
  have hstart : s'.tokenSpan.start ≤ s.start.offset := by
    rw [h.tokenSpan_eq]
    exact Nat.le_refl _
  cases message with
  | none =>
    cases message' with
    | none => exact h
    | some message' => exact (h.symm.push (h.start_eq ▸ hstart)).symm
  | some message =>
    cases message' with
    | none => exact h.push (Nat.le_refl _)
    | some message' => exact h.push_both (Nat.le_refl _) hstart

theorem reportLimit : s.reportLimit.Abreast s'.reportLimit := by
  refine ⟨?_, ?_, ?_, h.held.reportLimit, h.held'.reportLimit⟩
  · unfold ParseState.reportLimit
    rw [h.limitReported_eq]
    split <;> exact h.scanner_eq
  · rw [depth_reportLimit, depth_reportLimit, h.depth_eq]
  · unfold ParseState.reportLimit
    rw [h.limitReported_eq]
    split
    case isTrue hl => exact h.limitReported_eq
    case isFalse => rfl

theorem deeper : s.deeper.Abreast s'.deeper :=
  ⟨h.scanner_eq, congrArg (· + 1) h.depth_eq, h.limitReported_eq, h.held.deeper, h.held'.deeper⟩

theorem shallower : s.shallower.Abreast s'.shallower :=
  ⟨h.scanner_eq, congrArg (· - 1) h.depth_eq, h.limitReported_eq, h.held.shallower,
    h.held'.shallower⟩

end Abreast
end ParseState

/-- Whether this is reported or not according to strictness and web compatibility. -/
def Diagnostic.isEarlyError (d : Diagnostic) : Bool := earlyErrors.any d.isOf

theorem Diagnostic.report_isEarlyError {span : Span} {message : Message} (h : message ∈ earlyErrors) :
    (report span message).isEarlyError = true :=
  List.any_eq_true.mpr ⟨message, h, beq_self_eq_true _⟩

namespace Coupling

/-- The modes for early errors. -/
def isStrictness (m : Mode) : Bool := m == .strict || m == .withoutWebCompat

theorem isStrictness_le {m : Mode} (h : isStrictness m = true) : m.mayDiffer = true := by
  cases m <;> first | rfl | cases h

/-- States abreast look alike. -/
theorem aligned_of_abreast {K : Coupling} {s s' : ParseState} (h : s.Abreast s')
    (hcursor : ∀ c, K.cursor c c) (hextra : K.extra = 0) (hcount : K.count s.sink.size s'.sink.size)
    (hfloor : K.floor ≤ s.start.offset) : K.Aligned s s' where
  ready := h.held.ready
  ready' := h.held'.ready
  token_eq := congrArg (·.token) h.scanner_eq
  flags_eq := congrArg (·.flags) h.scanner_eq
  full := by
    rw [show s'.full = s.full from congrArg (·.full) h.scanner_eq]
    exact hcursor _
  start := by
    rw [h.start_eq]
    exact hcursor _
  stop := by
    rw [h.scanner_eq]
    exact hcursor _
  left_eq := by
    rw [hextra, ParseState.left, h.start_eq]
    rfl
  depth_eq := h.depth_eq
  counted := hcount
  floor_le := hfloor

/-! ## The same reports since a place -/

/-- What two runs have reported before a place. -/
structure Past where
  floor : Nat
  left : List Diagnostic
  right : List Diagnostic
  left_lt : ∀ d ∈ left, d.span.start < floor
  right_lt : ∀ d ∈ right, d.span.start < floor

/-- States abreast at or behind the place, with the same reports since. -/
structure Past.Since (past : Past) (s s' : ParseState) : Prop where
  abreast : s.Abreast s'
  floor_le : past.floor ≤ s.start.offset
  reports : ∃ later, s.sink.toList = past.left ++ later ∧ s'.sink.toList = past.right ++ later

namespace Past.Since
variable {past : Past} {s s' t t' : ParseState} (h : past.Since s s')
include h

/-- A step that brings the same reports. -/
theorem step (hs : Step s t) (ht : t.Abreast t')
    (hreports : ∃ more, t.sink.toList = s.sink.toList ++ more ∧
      t'.sink.toList = s'.sink.toList ++ more) : past.Since t t' := by
  refine ⟨ht, Nat.le_trans h.floor_le ((Moves.single hs).offset_le h.abreast.held.ready), ?_⟩
  obtain ⟨later, hleft, hright⟩ := h.reports
  obtain ⟨more, hmore, hmore'⟩ := hreports
  refine ⟨later ++ more, ?_, ?_⟩
  · rw [hmore, hleft, List.append_assoc]
  · rw [hmore', hright, List.append_assoc]

/-- The pasts lie before the place, so that neither of them keeps a report from being added. -/
theorem last_eq {n : Nat} (hn : past.floor ≤ n) :
    s'.sink.last?.any (·.span.start == n) = s.sink.last?.any (·.span.start == n) := by
  have hpast (before later : List Diagnostic) (hbefore : ∀ d ∈ before, d.span.start < past.floor)
      (sink : Sink) (hsink : sink.toList = before ++ later) :
      sink.last?.any (·.span.start == n) = later.getLast?.any (·.span.start == n) := by
    have hlast : sink.last? = (before ++ later).getLast? := by
      rw [← hsink]
      exact (Array.getLast?_toList _).symm
    rw [hlast, List.getLast?_append]
    cases hl : later.getLast? with
    | some d => rfl
    | none =>
      cases hb : before.getLast? with
      | none => rfl
      | some d =>
        have hd := hbefore d (List.mem_of_getLast? hb)
        simp only [Option.none_or, Option.any_some, Option.any_none, beq_eq_false_iff_ne]
        omega
  obtain ⟨later, hleft, hright⟩ := h.reports
  rw [hpast past.left later past.left_lt _ hleft, hpast past.right later past.right_lt _ hright]

theorem push {d : Diagnostic} (hn : past.floor ≤ d.span.start)
    (hd : d.span.start ≤ s.start.offset) : past.Since (s.push d) (s'.push d) := by
  refine ⟨h.abreast.push_both hd hd, ?_, ?_⟩
  · exact Nat.le_trans h.floor_le (Nat.le_of_eq (by unfold ParseState.push; split <;> rfl))
  · have hlast := h.last_eq hn
    obtain ⟨later, hleft, hright⟩ := h.reports
    unfold ParseState.push
    rw [hlast]
    split
    · exact ⟨later, hleft, hright⟩
    · exact ⟨later ++ [d], by simp [hleft], by simp [hright]⟩

/-- An early error that the first run does not come to report is reported by neither run. -/
theorem note {message message' : Option Message} (hearly : ∀ m ∈ message, m ∈ earlyErrors)
    (hnone : message = none → message' = none)
    (hcalm : ∀ d ∈ (s.note message).sink.toList.drop past.left.length, d.isEarlyError = false) :
    past.Since (s.note message) (s'.note message') := by
  cases message with
  | none =>
    rw [hnone rfl]
    exact h
  | some message =>
    have hlast := h.last_eq h.floor_le
    obtain ⟨later, hleft, -⟩ := h.reports
    have hadded : s.sink.last?.any (·.span.start == s.start.offset) = true := by
      by_contra hadd
      have hpush : (s.note (some message)).sink.toList =
          s.sink.toList ++ [.report s.tokenSpan message] := by
        rw [show s.note (some message) = { s with sink := s.sink.add _ } from if_neg hadd]
        exact Sink.toList_add _ _
      refine Bool.false_ne_true ((hcalm (.report s.tokenSpan message) ?_).symm.trans ?_)
      · rw [hpush, hleft, List.append_assoc, List.drop_left]
        exact List.mem_append_right _ List.mem_cons_self
      · exact Diagnostic.report_isEarlyError (hearly message rfl)
    have hs : s.note (some message) = s := if_pos hadded
    have hs' : s'.note message' = s' := by
      cases message' with
      | none => rfl
      | some message' =>
        refine if_pos ?_
        change s'.sink.last?.any (·.span.start == s'.start.offset) = true
        rw [h.abreast.start_eq, hlast]
        exact hadded
    rw [hs, hs']
    exact h

end Past.Since

/-- Runs that report the same since a place. Their contexts may differ in strictness, as long as the
first run finds no early error. -/
def since (past : Past) (differs : Bool) : Coupling where
  shift := 0
  extra := 0
  floor := past.floor
  edge _ := True
  exact := True
  free m := differs && isStrictness m
  cursor := Eq
  count n n' := ∃ k, n = past.left.length + k ∧ n' = past.right.length + k
  state := past.Since
  calm u := differs = true → ∀ d ∈ u.sink.toList.drop past.left.length, d.isEarlyError = false

instance (past : Past) (differs : Bool) : (since past differs).Lawful where
  aligned h := by
    refine aligned_of_abreast h.abreast (fun _ => rfl) rfl ?_ h.floor_le
    obtain ⟨later, hleft, hright⟩ := h.reports
    refine ⟨later.length, ?_, ?_⟩
    · rw [← Sink.length_toList, hleft, List.length_append]
    · rw [← Sink.length_toList, hright, List.length_append]
  edged _ _ := ParseState.edged_of_forall (fun _ => trivial) _
  offset_eq h := h ▸ rfl
  text_eq h h' := by rw [← h, ← h']
  count_lt _ := by
    rintro ⟨k, rfl, rfl⟩ ⟨l, rfl, rfl⟩
    rw [Nat.add_lt_add_iff_left, Nat.add_lt_add_iff_left]
  free_le h := isStrictness_le (Bool.and_eq_true_iff.mp h).2
  flush {s s'} h := by
    refine h.step (.flush s) h.abreast.flush ⟨s.scanner.pending.toList, Sink.toList_extend _ _, ?_⟩
    rw [← h.abreast.scanner_eq]
    exact Sink.toList_extend _ _
  consume {s s'} way _ _ h := by
    refine h.step (.consume way s) (h.abreast.consume way)
      ⟨s.scanner.pending.toList, Sink.toList_extend _ _, ?_⟩
    rw [← h.abreast.scanner_eq]
    exact Sink.toList_extend _ _
  reread {s s'} way _ _ h := by
    refine h.step (.reread way s) (h.abreast.reread way) ⟨[], ?_, ?_⟩
    · exact (List.append_nil _).symm
    · exact (List.append_nil _).symm
  push d hd h := h.push hd.floor_le hd.start_le
  reportLimit {s s'} h := by
    refine h.step (.reportLimit s) h.abreast.reportLimit ?_
    unfold ParseState.reportLimit
    rw [h.abreast.limitReported_eq, h.abreast.tokenSpan_eq]
    split
    · exact ⟨[], (List.append_nil _).symm, (List.append_nil _).symm⟩
    · exact ⟨_, Sink.toList_add _ _, Sink.toList_add _ _⟩
  deeper h := ⟨h.abreast.deeper, h.floor_le, h.reports⟩
  shallower h := ⟨h.abreast.shallower, h.floor_le, h.reports⟩
  jsx h := by cases differs <;> cases h
  early message message' hfree hearly hnone hcalm hs := by
    have hdiffers : differs = true := hfree.elim (fun h => (Bool.and_eq_true_iff.mp h).1)
      fun h => (Bool.and_eq_true_iff.mp h).1
    exact hs.note hearly hnone (hcalm hdiffers)

end Coupling
end EcmaSyntax
