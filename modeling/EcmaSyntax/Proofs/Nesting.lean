import EcmaSyntax.Proofs.Termination

/-! # The guard of nesting

A rule that is met at the limit of nesting reports this and skips the rest of the source, while the
routines around it go on and may meet rules at the limit again; a speculation may be undone after
that. One invariant ties the flag of the state to its sink. Every single step keeps it, and so does
a level that is entered below the limit, so it holds in all states that a parse comes through. -/
namespace EcmaSyntax

/-- How often a sink tells that the limit of nesting is reached. -/
def Sink.limitReports (s : Sink) : Nat := s.toList.countP (·.isOf .nestingTooDeep)

namespace Sink

@[simp] theorem limitReports_add (s : Sink) (d : Diagnostic) :
    (s.add d).limitReports = s.limitReports + if d.isOf .nestingTooDeep then 1 else 0 := by
  simp [limitReports, List.countP_append, List.countP_singleton]

@[simp] theorem limitReports_extend (s t : Sink) :
    (s.extend t).limitReports = s.limitReports + t.limitReports := by
  simp [limitReports, List.countP_append]

end Sink

/-! ## The scanner -/

/-- What the grammar finds is not the limit of nesting. -/
theorem Diagnostic.isOf_nestingTooDeep {d : Diagnostic} (h : d.isAny Message.isGrammatical = true) :
    d.isOf .nestingTooDeep = false := by
  refine Bool.eq_false_iff.mpr fun hd => ?_
  cases (isAny_eq hd).symm.trans h

namespace Scanner

/-- The faults of a token have other causes. -/
theorem take_limitReports (s : Scanner) (l : Lexeme) :
    (s.take l).pending.limitReports = s.pending.limitReports := by
  unfold take reportFault
  split
  case h_1 => rfl
  case h_2 f _ =>
    have hf (span : Span) : (Diagnostic.report span f.message).isOf .nestingTooDeep = false := by
      cases f <;> rfl
    simp [report, Fault.report, hf]

theorem skipTrivia_limitReports (s : Scanner) :
    s.skipTrivia.pending.limitReports = s.pending.limitReports := by
  have hcomment (span : Span) : (Diagnostic.report span .commentEndExpected).isOf .nestingTooDeep =
      false := rfl
  unfold skipTrivia
  dsimp only
  split
  · simp [report, hcomment]
  · rfl

theorem scan_limitReports (s : Scanner) :
    s.scan.pending.limitReports = s.pending.limitReports :=
  (take_limitReports _ _).trans s.skipTrivia_limitReports

theorem rescanSlash_limitReports (s : Scanner) :
    s.rescanSlash.pending.limitReports = s.pending.limitReports := by
  unfold rescanSlash
  split
  · exact take_limitReports _ _
  · rfl

theorem advance_limitReports (s : Scanner) (way : Advance) :
    (s.advance way).pending.limitReports = s.pending.limitReports := by
  cases way with
  | plain => exact s.scan_limitReports
  | expression => exact (rescanSlash_limitReports _).trans s.scan_limitReports
  | child => exact take_limitReports _ _
  | attributeValue =>
    unfold advance scanAttributeValue
    dsimp only
    split
    case h_1 | h_2 => exact (take_limitReports _ _).trans s.skipTrivia_limitReports
    case h_3 => exact (scan_limitReports _).trans s.skipTrivia_limitReports

theorem reread_limitReports (s : Scanner) (way : Rereading) :
    (s.reread way).pending.limitReports = s.pending.limitReports := by
  cases way with
  | slash => exact s.rescanSlash_limitReports
  | greaterThan =>
    unfold reread rescanGreaterThan
    dsimp only
    split <;> rfl
  | template =>
    unfold reread rescanTemplate
    dsimp only
    split
    · exact take_limitReports _ _
    · rfl
  | hyphenatedName =>
    unfold reread rescanHyphenatedName
    dsimp only
    split <;> rfl

end Scanner

/-- Nothing is reported about a first line that names an interpreter. -/
theorem Scanner.skipShebang_pending (text : List Char) :
    (Scanner.ofText text).skipShebang.pending = ∅ := by
  unfold skipShebang
  split
  · split <;> rfl
  · rfl

/-! ## States of a parse -/

/-- The depth is within the limit, and the sink tells of the limit once if the flag says so and
never otherwise. The faults that the scanner holds do not tell of it. -/
structure ParseState.Guarded (s : ParseState) : Prop where
  depth_le : s.depth ≤ Parse.nestingLimit
  held_eq : s.scanner.pending.limitReports = 0
  reports_eq : s.sink.limitReports = if s.limitReported then 1 else 0

namespace ParseState.Guarded
variable {s t : ParseState}

theorem ofText (text : List Char) : (ParseState.ofText text).Guarded := by
  refine ⟨Nat.zero_le _, ?_, rfl⟩
  rw [ParseState.ofText, Scanner.skipShebang_pending]
  rfl

theorem flush (h : s.Guarded) : s.flush.Guarded := by
  refine ⟨h.depth_le, rfl, ?_⟩
  calc
    s.flush.sink.limitReports = s.sink.limitReports + s.scanner.pending.limitReports :=
      Sink.limitReports_extend _ _
    _ = if s.limitReported then 1 else 0 := by rw [h.held_eq, h.reports_eq, Nat.add_zero]

theorem consume (h : s.Guarded) (way : Scanner.Advance) : (s.consume way).Guarded :=
  ⟨h.depth_le, (Scanner.advance_limitReports _ _).trans h.flush.held_eq, h.flush.reports_eq⟩

theorem reread (h : s.Guarded) (way : Scanner.Rereading) : (s.reread way).Guarded :=
  ⟨h.depth_le, (Scanner.reread_limitReports _ _).trans h.held_eq, h.reports_eq⟩

theorem push (h : s.Guarded) {d : Diagnostic} (hd : d.isAny Message.isGrammatical = true) :
    (s.push d).Guarded := by
  have hd := Diagnostic.isOf_nestingTooDeep hd
  unfold ParseState.push
  split
  · exact h
  · exact ⟨h.depth_le, h.held_eq, by simpa [hd] using h.reports_eq⟩

theorem reportLimit (h : s.Guarded) : s.reportLimit.Guarded := by
  have hlimit : (Diagnostic.report s.tokenSpan .nestingTooDeep).isOf .nestingTooDeep = true := rfl
  unfold ParseState.reportLimit
  split
  case isTrue => exact h
  case isFalse hflag =>
    have hnone : s.sink.limitReports = 0 := by rw [h.reports_eq, if_neg hflag]
    exact ⟨h.depth_le, h.held_eq, by simp [hlimit, hnone]⟩

theorem deeper (h : s.Guarded) (hdepth : s.depth < Parse.nestingLimit) : s.deeper.Guarded :=
  ⟨hdepth, h.held_eq, h.reports_eq⟩

theorem step (h : s.Guarded) (hstep : Step s t) : t.Guarded := by
  cases hstep with
  | flush => exact h.flush
  | consume way => exact h.consume way
  | reread way => exact h.reread way
  | push d hd => exact h.push hd
  | reportLimit => exact h.reportLimit

theorem along (h : s.Guarded) (hway : Along s t) : t.Guarded :=
  hway.preserves (fun hstep hs => hs.step hstep) (fun hdepth hs => hs.deeper hdepth) h

theorem limitReported_iff (h : s.Guarded) : s.limitReported = true ↔ s.sink.limitReports = 1 := by
  rw [h.reports_eq]
  cases s.limitReported <;> decide

theorem not_limitReported_iff (h : s.Guarded) :
    s.limitReported = false ↔ s.sink.limitReports = 0 := by
  rw [h.reports_eq]
  cases s.limitReported <;> decide

theorem reports_le (h : s.Guarded) : s.sink.limitReports ≤ 1 := by
  rw [h.reports_eq]
  cases s.limitReported <;> decide

end ParseState.Guarded

/-- Whatever a parse comes through, also within a speculation that is undone, it is never deeper
than the limit, and its flag tells whether the sink has the one diagnostic of the limit. It ends at
the depth where it began, and reports the limit no more than once. -/
theorem parse_guarded (source : String) (options : ParseOptions) :
    (∀ u, (Grammar.source (.ofOptions options)).visits (.ofText source.toList) u →
      u.depth ≤ Parse.nestingLimit ∧
      (u.limitReported = true ↔ u.sink.limitReports = 1) ∧
      (u.limitReported = false ↔ u.sink.limitReports = 0)) ∧
    ∃ statements t, run source options = some (statements, t) ∧
      (Grammar.source (.ofOptions options)).visits (.ofText source.toList) t ∧ t.depth = 0 ∧
      (parse source options).diagnostics = t.sink ∧
      (parse source options).diagnostics.limitReports ≤ 1 := by
  have hguarded {u : ParseState}
      (hu : (Grammar.source (.ofOptions options)).visits (.ofText source.toList) u) : u.Guarded :=
    (ParseState.Guarded.ofText _).along ((Grammar.source _).along hu)
  refine ⟨fun u hu => ?_, ?_⟩
  · have h := hguarded hu
    exact ⟨h.depth_le, h.limitReported_iff, h.not_limitReported_iff⟩
  · obtain ⟨statements, t, hrun, -⟩ := run_ends source options
    have hvisited := (Grammar.source (.ofOptions options)).ends hrun
    have hsink : (parse source options).diagnostics = t.sink := by rw [parse, hrun]
    refine ⟨statements, t, hrun, hvisited, ?_, hsink, ?_⟩
    · exact ((Grammar.source _).moves hrun).depth_eq
    · rw [hsink]
      exact (hguarded hvisited).reports_le

end EcmaSyntax
