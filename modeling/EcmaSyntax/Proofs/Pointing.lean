import EcmaSyntax.Proofs.Coupling.Source
import EcmaSyntax.Proofs.Nesting
import EcmaSyntax.Proofs.Texts
import EcmaSyntax.Proofs.Token.Faults

/-! # Where diagnostics point

Every diagnostic ends between two characters of the source and, but for one case, begins between two
as well. The faults of a token lie at its ends. Reports are made at tokens and nodes, except that one
is made at the closing parenthesis of a list, which is supposed one byte before the end of the list.
It is there, or the list is empty and its opening one is; but a list that is cut off at the limit of
nesting ends where the source does. A run is compared with itself: states in which all that has been
reported is so correspond to themselves. -/
namespace EcmaSyntax
open Parse Grammar

/-! ## Faults of tokens -/

namespace Scanner
variable {edge : Nat → Prop} {s : Scanner}

/-- All faults that are held begin and end at edges. -/
def HeldOn (edge : Nat → Prop) (s : Scanner) : Prop :=
  ∀ d ∈ s.pending.toList, edge d.span.start ∧ edge d.span.stop

theorem HeldOn.report {d : Diagnostic} (h : s.HeldOn edge) (hstart : edge d.span.start)
    (hstop : edge d.span.stop) : (s.report d).HeldOn edge := by
  intro e he
  rw [Scanner.report, Sink.toList_add, List.mem_append, List.mem_singleton] at he
  rcases he with he | rfl
  · exact h e he
  · exact ⟨hstart, hstop⟩

/-- The fault of a lexeme lies at the ends of its token. -/
theorem HeldOn.take {l : Lexeme} (h : s.HeldOn edge) (hs : s.start.Sound)
    (hedge : ∀ c, s.start.Reaches c → edge c.offset) : (s.take l).HeldOn edge := by
  have hstart := hedge _ (.refl s.start)
  have hstop := hedge _ (.skip l.size s.start)
  have hle := (Cursor.Reaches.skip l.size s.start).offset_le hs
  unfold Scanner.take reportFault
  split
  case h_1 => exact h
  case h_2 f _ =>
    refine HeldOn.report (s := { s with stop := _, token := _, flags := _ }) h ?_ ?_
    · cases f
      case unterminatedString | unterminatedTemplate => exact hstop
      case unterminatedRegularExpression | invalidCharacter => exact hstart
    · cases f
      case unterminatedString | unterminatedTemplate => exact hstop
      case unterminatedRegularExpression | invalidCharacter =>
        change edge (Span.between _ _).stop
        rwa [Span.stop_between hle]

theorem HeldOn.skipTrivia (h : s.HeldOn edge) (hedge : ∀ c, s.stop.Reaches c → edge c.offset) :
    s.skipTrivia.HeldOn edge := by
  have hstart := hedge _ (.skip s.trivia.size s.stop)
  unfold Scanner.skipTrivia
  dsimp only
  split
  · exact HeldOn.report (s := s) h hstart hstart
  · exact h

theorem HeldOn.scan (h : s.HeldOn edge) (hs : s.stop.Sound)
    (hedge : ∀ c, s.stop.Reaches c → edge c.offset) : s.scan.HeldOn edge := by
  refine (h.skipTrivia hedge).take (skipTrivia_sound hs) fun c hc => hedge c ?_
  rw [skipTrivia_reading] at hc
  exact (Cursor.Reaches.skip _ _).trans hc

theorem HeldOn.reread (way : Rereading) (h : s.HeldOn edge) (hs : s.start.Sound)
    (hedge : ∀ c, s.start.Reaches c → edge c.offset) : (s.reread way).HeldOn edge := by
  rcases s.reread_cases way with heq | ⟨-, ⟨l, heq, -⟩ | hpending⟩
  · rwa [heq]
  · exact heq ▸ h.take hs hedge
  · rwa [HeldOn, hpending]

theorem HeldOn.advance (way : Advance) (h : s.HeldOn edge) (hs : s.stop.Sound)
    (hedge : ∀ c, s.stop.Reaches c → edge c.offset) : (s.advance way).HeldOn edge := by
  have htrivia := h.skipTrivia hedge
  have hbehind (c : Cursor) (hc : s.skipTrivia.start.Reaches c) : edge c.offset := by
    rw [skipTrivia_reading] at hc
    exact hedge c ((Cursor.Reaches.skip _ _).trans hc)
  have hscan := scan_movedOn hs
  cases way with
  | plain => exact h.scan hs hedge
  | expression =>
    refine (h.scan hs hedge).reread .slash hscan.ready.start_sound fun c hc => hedge c ?_
    exact (hscan.full_eq ▸ hscan.ready.full_start).trans hc
  | child =>
    exact HeldOn.take (s := { s with full := s.stop, start := s.stop, flags := ∅ }) h hs hedge
  | attributeValue =>
    unfold Scanner.advance scanAttributeValue
    dsimp only
    split
    case h_1 | h_2 => exact htrivia.take (skipTrivia_sound hs) hbehind
    case h_3 => exact HeldOn.scan (s := { s with pending := s.skipTrivia.pending }) htrivia hs hedge

end Scanner

/-! ## States of a parse -/

/-- An offset between two characters of a source, or at one of its ends. -/
def IsBoundary (source : String) (n : Nat) : Prop := String.Pos.Raw.IsValid source ⟨n⟩

theorem Cursor.Reaches.isBoundary {source : String} {c : Cursor}
    (h : (Cursor.start source.toList).Reaches c) : IsBoundary source c.offset :=
  (h.covers (.refl c)).pos_valid

namespace ParseState
variable {source : String} {s t : ParseState}

/-- The places of a token that has been read in a source lie between characters. -/
theorem edged_of_placed (h : s.reading.Placed source) : s.Edged (IsBoundary source) := by
  refine ⟨h.start_full.isBoundary, h.reaches_start.isBoundary, h.reaches_stop.isBoundary,
    fun hparen => ?_⟩
  have hsize : (String.ofList s.reading.spelling).utf8ByteSize = 1 := by
    rcases hparen with ht | ht
    · rw [h.spelled.punctuator "(" (congrArg Kind.punctuatorText ht)]
      rfl
    · rw [h.spelled.punctuator ")" (congrArg Kind.punctuatorText ht)]
      rfl
  have hstop : s.scanner.stop.offset =
      s.start.offset + (String.ofList s.reading.spelling).utf8ByteSize :=
    (h.start_stop.passes h.start_sound).2
  rw [hstop, hsize, Nat.add_sub_cancel]
  exact h.reaches_start.isBoundary

/-- All that has been found ends at a boundary, and begins at one unless the limit of nesting has been
reported. -/
structure Points (source : String) (s : ParseState) : Prop where
  ready : s.Ready
  placed : s.reading.Placed source
  held : s.scanner.HeldOn (IsBoundary source)
  stop : ∀ d ∈ s.sink.toList, IsBoundary source d.span.stop
  start : ∀ d ∈ s.sink.toList, IsBoundary source d.span.start ∨
    (s.limitReported = true ∧ d.IsSupposed)

namespace Points
variable (h : s.Points source)
include h

/-- A step that brings no more than one report. -/
theorem step (hs : Step s t) (hheld : t.scanner.HeldOn (IsBoundary source))
    (hsink : ∀ d ∈ t.sink.toList, d ∈ s.sink.toList ∨ (IsBoundary source d.span.stop ∧
      (IsBoundary source d.span.start ∨ (t.limitReported = true ∧ d.IsSupposed)))) :
    t.Points source where
  ready := hs.ready h.ready
  placed := (Moves.single hs).placed h.placed
  held := hheld
  stop d hd := (hsink d hd).elim (h.stop d) And.left
  start d hd := (hsink d hd).elim
    (fun hd => (h.start d hd).imp_right fun hlimit => ⟨hs.limitReported hlimit.1, hlimit.2⟩) And.right

theorem flush : s.flush.Points source := by
  refine h.step (.flush s) (fun _ hd => nomatch hd) fun d hd => ?_
  rw [ParseState.flush, Sink.toList_extend, List.mem_append] at hd
  exact hd.imp_right fun hd => ⟨(h.held d hd).2, .inl (h.held d hd).1⟩

theorem reaches_edge (c : Cursor) (hc : s.start.Reaches c) : IsBoundary source c.offset :=
  (h.placed.reaches_start.trans hc).isBoundary

theorem consume (way : Scanner.Advance) : (s.consume way).Points source := by
  have hstop := h.placed.stop_sound
  refine h.step (.consume way s) ?_ fun d hd => ?_
  · exact (h.flush.held).advance way hstop fun c hc =>
      h.reaches_edge c (h.placed.start_stop.trans hc)
  · exact .inr ⟨h.flush.stop d hd, h.flush.start d hd⟩

theorem reread (way : Scanner.Rereading) : (s.reread way).Points source :=
  h.step (.reread way s) (h.held.reread way h.placed.start_sound h.reaches_edge)
    fun _ hd => .inl hd

/-- One more report. -/
theorem add {d : Diagnostic} (ht : t.Ready) (hscanner : t.scanner = s.scanner)
    (hlimit : s.limitReported = true → t.limitReported = true)
    (hsink : ∀ e ∈ t.sink.toList, e ∈ s.sink.toList ∨ e = d)
    (hstop : IsBoundary source d.span.stop)
    (hstart : IsBoundary source d.span.start ∨ (s.limitReported = true ∧ d.IsSupposed)) :
    t.Points source where
  ready := ht
  placed := by
    rw [reading, hscanner]
    exact h.placed
  held := hscanner ▸ h.held
  stop e he := by
    rcases hsink e he with he | rfl
    · exact h.stop e he
    · exact hstop
  start e he := by
    refine Or.imp_right (And.imp_left hlimit) ?_
    rcases hsink e he with he | rfl
    · exact h.start e he
    · exact hstart

theorem push {d : Diagnostic} (hstop : IsBoundary source d.span.stop)
    (hstart : IsBoundary source d.span.start ∨ (s.limitReported = true ∧ d.IsSupposed)) :
    (s.push d).Points source := by
  have hready := h.ready.push d
  revert hready
  unfold ParseState.push
  split
  case isTrue => exact fun _ => h
  case isFalse =>
    refine fun hready => h.add hready rfl id (fun e he => ?_) hstop hstart
    rwa [Sink.toList_add, List.mem_append, List.mem_singleton] at he

theorem reportLimit : s.reportLimit.Points source := by
  have hedged := edged_of_placed h.placed
  have hready := (Step.reportLimit s).ready h.ready
  revert hready
  unfold ParseState.reportLimit
  split
  case isTrue => exact fun _ => h
  case isFalse =>
    refine fun hready => h.add (d := .report s.tokenSpan .nestingTooDeep) hready rfl (fun _ => rfl)
      (fun e he => ?_) ?_ (.inl hedged.start)
    · rwa [Sink.toList_add, List.mem_append, List.mem_singleton] at he
    · change IsBoundary source (Span.between _ _).stop
      rw [Span.stop_between (h.ready.start_stop.offset_le h.ready.start_sound)]
      exact hedged.stop

theorem deeper : s.deeper.Points source := ⟨h.ready.deeper, h.placed, h.held, h.stop, h.start⟩

theorem shallower : s.shallower.Points source :=
  ⟨h.ready.shallower, h.placed, h.held, h.stop, h.start⟩

end Points
end ParseState

namespace Coupling

/-- The same states, in which all that has been reported points into the source. -/
def pointing (source : String) : Coupling where
  shift := 0
  extra := 0
  floor := 0
  edge := IsBoundary source
  exact := True
  free _ := false
  cursor := Eq
  count := Eq
  state s s' := s' = s ∧ s.Points source
  calm _ := True

instance (source : String) : (pointing source).Lawful where
  aligned := by
    rintro _ s ⟨rfl, h⟩
    exact ⟨h.ready, h.ready, rfl, rfl, rfl, rfl, rfl, rfl, rfl, rfl, Nat.zero_le _⟩
  edged h hm := ParseState.edged_of_placed (hm.placed h.2.placed)
  offset_eq h := h ▸ rfl
  text_eq h h' := by rw [← h, ← h']
  count_lt _ h h' := by rw [← h, ← h']
  free_le h := nomatch h
  flush := by
    rintro _ s ⟨rfl, h⟩
    exact ⟨rfl, h.flush⟩
  consume way _ _ := by
    rintro ⟨rfl, h⟩
    exact ⟨rfl, h.consume way⟩
  reread way _ _ := by
    rintro ⟨rfl, h⟩
    exact ⟨rfl, h.reread way⟩
  push d hd := by
    rintro ⟨rfl, h⟩
    exact ⟨rfl, h.push hd.edge_stop hd.edge_start⟩
  reportLimit := by
    rintro _ s ⟨rfl, h⟩
    exact ⟨rfl, h.reportLimit⟩
  deeper := by
    rintro _ s ⟨rfl, h⟩
    exact ⟨rfl, h.deeper⟩
  shallower := by
    rintro _ s ⟨rfl, h⟩
    exact ⟨rfl, h.shallower⟩
  jsx h := nomatch h
  early _ _ h := nomatch h

instance (source : String) : (pointing source).Recurs top top := top_recurs trivial

end Coupling

/-! ## Sources -/

theorem firstToken_points (source : String) :
    (ParseState.firstToken source.toList).Points source := by
  have hstop := (Scanner.skipShebang_placed source).stop_sound
  have hsink : (ParseState.firstToken source.toList).sink.toList = [] := by
    change (Sink.extend ∅ (Scanner.ofText source.toList).skipShebang.pending).toList = []
    rw [Scanner.skipShebang_pending]
    rfl
  refine ⟨inferInstance, firstToken_placed source, ?_, fun d hd => ?_, fun d hd => ?_⟩
  · refine Scanner.HeldOn.advance (s := (ParseState.ofText source.toList).flush.scanner) .expression
      (fun _ hd => nomatch hd) hstop fun c hc => ?_
    exact ((Scanner.skipShebang_reaches source.toList).trans hc).isBoundary
  all_goals
    rw [hsink] at hd
    cases hd

/-- Once the limit of nesting is reported, a diagnostic tells of it. -/
theorem ParseState.Guarded.exists_limit {s : ParseState} (h : s.Guarded)
    (hlimit : s.limitReported = true) : ∃ d ∈ s.sink.toList, d.isOf .nestingTooDeep = true := by
  have hcount : s.sink.limitReports = 1 := h.limitReported_iff.mp hlimit
  exact List.countP_pos_iff.mp (Nat.lt_of_lt_of_eq Nat.one_pos hcount.symm)

/-- Every diagnostic ends between two characters of the source, or at one of its ends. It begins so as
well, unless it is a missing expression where the limit of nesting has cut a list off. -/
theorem parse_points (source : String) (options : ParseOptions) {d : Diagnostic}
    (hd : d ∈ (parse source options).diagnostics.toList) :
    d.span.stop ≤ source.utf8ByteSize ∧ IsBoundary source d.span.stop ∧
      (IsBoundary source d.span.start ∨ (d.IsSupposed ∧
        ∃ e ∈ (parse source options).diagnostics.toList, e.isOf .nestingTooDeep = true)) := by
  obtain ⟨statements, t, hrun, -⟩ := run_ends source options
  have hguarded : t.Guarded :=
    (ParseState.Guarded.ofText _).along ((Grammar.source _).along ((Grammar.source _).ends hrun))
  have hpoints : t.Points source := by
    have := Coupling.contexts_rfl (.pointing source) (.ofOptions options)
    have hfollows : (Coupling.pointing source).Follows (sourceStatements (.ofOptions options))
      (sourceStatements (.ofOptions options)) := Coupling.sourceStatements_follows
    rw [run_eq, Option.map_eq_some_iff] at hrun
    obtain ⟨⟨_, u⟩, hrun, heq⟩ := hrun
    cases heq
    obtain ⟨-, _, -, -, -, hu⟩ :=
      hfollows _ _ ⟨rfl, firstToken_points source⟩ (fun _ _ => trivial) _ _ hrun
    exact hu.flush
  have hsink : (parse source options).diagnostics = t.sink := by rw [parse, hrun]
  rw [hsink] at hd ⊢
  have hstop := hpoints.stop d hd
  refine ⟨hstop.le_utf8ByteSize, hstop, (hpoints.start d hd).imp_right fun h => ?_⟩
  exact ⟨h.2, hguarded.exists_limit h.1⟩

/-- A diagnostic behind a character of two bytes. -/
theorem missing_operand_points : ∃ d ∈ (parse "é = ;" {}).diagnostics.toList, d.span = ⟨5, 1⟩ ∧
    d.span.stop ≤ "é = ;".utf8ByteSize ∧ IsBoundary "é = ;" d.span.stop ∧
      (IsBoundary "é = ;" d.span.start ∨ (d.IsSupposed ∧
        ∃ e ∈ (parse "é = ;" {}).diagnostics.toList, e.isOf .nestingTooDeep = true)) := by
  have hspan : (parse "é = ;" {}).diagnostics.toList.any (·.span == ⟨5, 1⟩) = true := by
    decide +kernel
  obtain ⟨d, hd, hspan⟩ := List.any_eq_true.mp hspan
  exact ⟨d, hd, eq_of_beq hspan, parse_points _ _ hd⟩

/-- As many blocks as may be open, and in the last one a list of a character of two bytes. -/
def deepText : List Char := List.replicate 248 '{' ++ ['(', 'é']

/-- A list that the limit of nesting cuts off ends behind a character of two bytes, and the report
begins between the two. -/
theorem deep_list_splits : ∃ d ∈ (parse (String.ofList deepText) {}).diagnostics.toList,
    d.span = ⟨250, 1⟩ ∧ ¬ IsBoundary (String.ofList deepText) d.span.start := by
  have hspan : (parse (String.ofList deepText) {}).diagnostics.toList.any (·.span == ⟨250, 1⟩) =
      true := by
    -- the characters are not read back from their bytes
    rw [parse, run, String.toList_ofList]
    decide +kernel
  obtain ⟨d, hd, hspan⟩ := List.any_eq_true.mp hspan
  refine ⟨d, hd, eq_of_beq hspan, ?_⟩
  rw [eq_of_beq hspan]
  unfold IsBoundary
  decide +kernel

end EcmaSyntax
