import EcmaSyntax.Proofs.Coupling.Source
import EcmaSyntax.Proofs.Token.Trivia

/-! # Runs behind other beginnings

Two sources with the same ending are read alike from there on, as long as nothing has been reported:
the scanner looks at the text before it and at whether a line begins, and offsets are only copied. So
all places are moved by the same number of bytes. -/
namespace EcmaSyntax
open Parse

/-! ## Moved scanners -/

/-- Two places before the same text. -/
structure Cursor.Moved (n : Nat) (c c' : Cursor) : Prop where
  offset_eq : c'.offset = c.offset + n
  left_eq : c'.left = c.left
  rest_eq : c'.rest = c.rest
  line_eq : c'.atLineStart = c.atLineStart

namespace Cursor.Moved
variable {n k : Nat} {c c' d d' : Cursor}

theorem next (h : c.Moved n c') : c.next.Moved n c'.next := by
  unfold Cursor.next
  rw [h.rest_eq]
  split
  · exact h
  · refine ⟨?_, congrArg (· - 1) h.left_eq, rfl, rfl⟩
    simp only [h.offset_eq]
    omega

theorem skip (h : c.Moved n c') (k : Nat) : (c.skip k).Moved n (c'.skip k) := by
  induction k generalizing c c' with
  | zero => exact h
  | succ k ih => exact ih h.next

theorem textTo_eq (h : c.Moved n c') (hd : d.Moved n d') : c'.textTo d' = c.textTo d := by
  rw [Cursor.textTo, Cursor.textTo, h.rest_eq, h.left_eq, hd.left_eq]

end Cursor.Moved

/-- The same token at moved places. -/
structure Reading.Moved (n : Nat) (r r' : Reading) : Prop where
  full : r.full.Moved n r'.full
  start : r.start.Moved n r'.start
  stop : r.stop.Moved n r'.stop
  token_eq : r'.token = r.token
  flags_eq : r'.flags = r.flags

/-- Sinks with the same diagnostics at moved places. -/
def Sink.Moved (n : Nat) (s s' : Sink) : Prop := s'.toList = s.toList.map (Diagnostic.moved n)

namespace Sink.Moved
variable {n : Nat} {s s' t t' : Sink} {d d' : Diagnostic}

theorem empty (n : Nat) : Sink.Moved n ∅ ∅ := rfl

theorem add (h : s.Moved n s') (hd : d' = d.moved n) : (s.add d).Moved n (s'.add d') := by
  rw [Sink.Moved, Sink.toList_add, Sink.toList_add, h, hd, List.map_append]
  rfl

theorem extend (h : s.Moved n s') (ht : t.Moved n t') : (s.extend t).Moved n (s'.extend t') := by
  rw [Sink.Moved, Sink.toList_extend, Sink.toList_extend, h, ht, List.map_append]

theorem eq_empty (h : s.Moved n s') (hs : s = ∅) : s' = ∅ := by
  subst hs
  exact Sink.toList_eq_nil.mp h

theorem size_eq (h : s.Moved n s') : s'.size = s.size := by
  rw [← Sink.length_toList, ← Sink.length_toList, h, List.length_map]

/-- The last diagnostic is at a place if the other last one is at the moved place. -/
theorem last_eq (h : s.Moved n s') (k : Nat) :
    s'.last?.any (·.span.start == k + n) = s.last?.any (·.span.start == k) := by
  have hlast : s'.last? = s.last?.map (Diagnostic.moved n) := by
    have hmap : s'.toList.getLast? = s.toList.getLast?.map (Diagnostic.moved n) := by
      rw [h, List.getLast?_map]
    rwa [Sink.toList, Sink.toList, Array.getLast?_toList, Array.getLast?_toList] at hmap
  rw [hlast]
  cases s.last? with
  | none => rfl
  | some d =>
    change (d.span.start + n == k + n) = (d.span.start == k)
    simp

end Sink.Moved

theorem Fault.report_moved (f : Fault) (n first last : Nat) :
    f.report (first + n) (last + n) = (f.report first last).moved n := by
  have hspan : f.span (first + n) (last + n) = (f.span first last).moved n := by
    cases f with
    | unterminatedString | unterminatedTemplate => rfl
    | unterminatedRegularExpression | invalidCharacter => exact (Span.moved_between n _ _).symm
  rw [Fault.report, hspan]
  rfl

/-- Scanners on the same token at moved places. -/
structure Scanner.Moved (n : Nat) (s s' : Scanner) : Prop where
  reading : s.toReading.Moved n s'.toReading
  pending : s.pending.Moved n s'.pending

/-- A scanner behind the present token, as if it had read none. -/
def Scanner.behind (s : Scanner) : Scanner :=
  { full := s.stop, start := s.stop, stop := s.stop, pending := s.pending }

theorem Scanner.scan_behind (s : Scanner) : s.behind.scan = s.scan := by
  have htrivia : s.behind.trivia = s.trivia := rfl
  unfold scan skipTrivia
  rw [htrivia]
  dsimp only
  split <;> rfl

namespace Scanner.Moved
variable {n : Nat} {s s' : Scanner}

theorem reportFault (h : s.Moved n s') (fault : Option Fault) :
    (s.reportFault fault).Moved n (s'.reportFault fault) := by
  cases fault with
  | none => exact h
  | some f =>
    refine ⟨h.reading, h.pending.add ?_⟩
    rw [h.reading.start.offset_eq, h.reading.stop.offset_eq]
    exact f.report_moved n _ _

theorem take (h : s.Moved n s') (l : Lexeme) : (s.take l).Moved n (s'.take l) := by
  have hflags : s'.flags ∪ l.flags = s.flags ∪ l.flags := congrArg (· ∪ l.flags) h.reading.flags_eq
  have htoken : Scanner.Moved n
      { s with stop := s.start.skip l.size, token := l.kind, flags := s.flags ∪ l.flags }
      { s' with stop := s'.start.skip l.size, token := l.kind, flags := s'.flags ∪ l.flags } :=
    ⟨⟨h.reading.full, h.reading.start, h.reading.start.skip l.size, rfl, hflags⟩, h.pending⟩
  exact htoken.reportFault l.fault

theorem trivia_eq (h : s.Moved n s') : s'.trivia = s.trivia := by
  rw [Scanner.trivia, Scanner.trivia, h.reading.stop.line_eq, h.reading.stop.rest_eq]

theorem skipTrivia (h : s.Moved n s') : s.skipTrivia.Moved n s'.skipTrivia := by
  have hstart := h.reading.stop.skip s.trivia.size
  constructor
  · rw [Scanner.skipTrivia_reading, Scanner.skipTrivia_reading, h.trivia_eq]
    exact ⟨h.reading.stop, hstart, hstart, h.reading.token_eq, rfl⟩
  · unfold Scanner.skipTrivia
    rw [h.trivia_eq]
    dsimp only
    split
    · refine h.pending.add ?_
      rw [hstart.offset_eq]
      rfl
    · exact h.pending

/-- What is scanned depends on where the token before ends, and on nothing else of it. -/
theorem scan_of_stop (hstop : s.stop.Moved n s'.stop) (hpending : s.pending.Moved n s'.pending) :
    s.scan.Moved n s'.scan := by
  have h : s.behind.Moved n s'.behind := ⟨⟨hstop, hstop, hstop, rfl, rfl⟩, hpending⟩
  rw [← s.scan_behind, ← s'.scan_behind]
  unfold Scanner.scan
  dsimp only
  rw [h.skipTrivia.reading.start.rest_eq]
  exact h.skipTrivia.take _

theorem scan (h : s.Moved n s') : s.scan.Moved n s'.scan := scan_of_stop h.reading.stop h.pending

theorem rescanSlash (h : s.Moved n s') : s.rescanSlash.Moved n s'.rescanSlash := by
  unfold Scanner.rescanSlash Scanner.atSlash
  rw [h.reading.token_eq, h.reading.start.next.rest_eq]
  split
  · exact h.take _
  · exact h

theorem rescanGreaterThan (h : s.Moved n s') :
    s.rescanGreaterThan.Moved n s'.rescanGreaterThan := by
  unfold Scanner.rescanGreaterThan
  rw [h.reading.token_eq, h.reading.stop.rest_eq]
  split
  · exact ⟨⟨h.reading.full, h.reading.start, h.reading.stop.skip _, rfl, h.reading.flags_eq⟩,
      h.pending⟩
  · exact h

theorem rescanTemplate (h : s.Moved n s') : s.rescanTemplate.Moved n s'.rescanTemplate := by
  unfold Scanner.rescanTemplate
  rw [h.reading.token_eq, h.reading.start.next.rest_eq]
  split
  · exact h.take _
  · exact h

theorem rescanHyphenatedName (h : s.Moved n s') :
    s.rescanHyphenatedName.Moved n s'.rescanHyphenatedName := by
  unfold Scanner.rescanHyphenatedName
  rw [h.reading.token_eq, h.reading.stop.rest_eq]
  split
  · exact ⟨⟨h.reading.full, h.reading.start, h.reading.stop.skip _, rfl,
      congrArg (· ∪ _) h.reading.flags_eq⟩, h.pending⟩
  · exact h

theorem scanChild (h : s.Moved n s') : s.scanChild.Moved n s'.scanChild := by
  have hstop := h.reading.stop
  unfold Scanner.scanChild
  rw [hstop.rest_eq]
  have hplaced : Scanner.Moved n { s with full := s.stop, start := s.stop, flags := ∅ }
      { s' with full := s'.stop, start := s'.stop, flags := ∅ } :=
    ⟨⟨hstop, hstop, hstop, h.reading.token_eq, rfl⟩, h.pending⟩
  exact hplaced.take _

theorem scanAttributeValue (h : s.Moved n s') :
    s.scanAttributeValue.Moved n s'.scanAttributeValue := by
  unfold Scanner.scanAttributeValue
  dsimp only
  rw [h.skipTrivia.reading.start.rest_eq]
  split
  · exact h.skipTrivia.take _
  · exact h.skipTrivia.take _
  · exact scan ⟨h.reading, h.skipTrivia.pending⟩

theorem advance (h : s.Moved n s') (way : Advance) :
    (s.advance way).Moved n (s'.advance way) := by
  cases way with
  | plain => exact h.scan
  | expression => exact h.scan.rescanSlash
  | child => exact h.scanChild
  | attributeValue => exact h.scanAttributeValue

theorem reread (h : s.Moved n s') (way : Rereading) :
    (s.reread way).Moved n (s'.reread way) := by
  cases way with
  | slash => exact h.rescanSlash
  | greaterThan => exact h.rescanGreaterThan
  | template => exact h.rescanTemplate
  | hyphenatedName => exact h.rescanHyphenatedName

end Scanner.Moved

/-- A place is told by the bytes before it. -/
theorem Cursor.rest_of_offset {before behind : List Char} {c : Cursor}
    (h : (Cursor.start (before ++ behind)).Reaches c)
    (hoffset : c.offset = (String.ofList before).utf8ByteSize) : c.rest = behind := by
  obtain ⟨htext, hbytes⟩ := h.passes (Cursor.start_sound _)
  have htext : before ++ behind = _ := htext
  rw [hoffset, show (Cursor.start (before ++ behind)).offset = 0 from rfl, Nat.zero_add] at hbytes
  generalize (Cursor.start (before ++ behind)).textTo c = taken at htext hbytes
  have hnil {x : List Char} (hx : (String.ofList x).utf8ByteSize = 0) : x = [] :=
    String.ofList_eq_empty_iff.mp (String.utf8ByteSize_eq_zero_iff.mp hx)
  rcases List.append_eq_append_iff.mp htext with ⟨x, htaken, rfl⟩ | ⟨x, htaken, hrest⟩
  · rw [htaken, String.ofList_append, String.utf8ByteSize_append] at hbytes
    rw [hnil (by omega : (String.ofList x).utf8ByteSize = 0)]
    rfl
  · rw [htaken, String.ofList_append, String.utf8ByteSize_append] at hbytes
    rw [hrest, hnil (by omega : (String.ofList x).utf8ByteSize = 0)]
    rfl

/-- Places before the same end of two sources. What stands before it counts by its bytes, and by
whether it ends a line. -/
theorem Cursor.moved_of_reaches {text text' before before' behind : List Char} {c c' : Cursor}
    {n : Nat} (h : (Cursor.start text).Reaches c) (h' : (Cursor.start text').Reaches c')
    (htext : text = before ++ behind) (htext' : text' = before' ++ behind)
    (hc : c.rest = behind) (hc' : c'.rest = behind)
    (hline : Trivia.atLineStart before' = Trivia.atLineStart before)
    (hbytes : (String.ofList before').utf8ByteSize = (String.ofList before).utf8ByteSize + n) :
    c.Moved n c' := by
  subst htext htext'
  have hbefore {text : List Char} {d : Cursor} (hd : (Cursor.start (text ++ behind)).Reaches d)
      (hrest : d.rest = behind) : (Cursor.start (text ++ behind)).textTo d = text ∧
        d.offset = (String.ofList text).utf8ByteSize ∧ d.left = behind.length := by
    obtain ⟨hpasses, hoffset⟩ := hd.passes (Cursor.start_sound _)
    have htext : (Cursor.start (text ++ behind)).textTo d = text := by
      rw [hrest] at hpasses
      exact (List.append_cancel_right hpasses).symm
    rw [htext] at hoffset
    exact ⟨htext, hoffset.trans (Nat.zero_add _),
      (hd.sound (Cursor.start_sound _)).trans (congrArg List.length hrest)⟩
  obtain ⟨htext, hoffset, hleft⟩ := hbefore h hc
  obtain ⟨htext', hoffset', hleft'⟩ := hbefore h' hc'
  refine ⟨by rw [hoffset', hoffset, hbytes], hleft'.trans hleft.symm, hc'.trans hc.symm, ?_⟩
  rw [h.atLineStart_eq, h'.atLineStart_eq, htext, htext', hline]

/-! ## Moved states -/

/-- The same states at moved places, behind the beginnings of the two sources. -/
structure ParseState.Moved (n floor : Nat) (s s' : ParseState) : Prop where
  ready : s.Ready
  ready' : s'.Ready
  scanner : s.scanner.Moved n s'.scanner
  sink : s.sink.Moved n s'.sink
  depth_eq : s'.depth = s.depth
  limitReported_eq : s'.limitReported = s.limitReported
  floor_le : floor ≤ s.start.offset

namespace ParseState.Moved
variable {n floor : Nat} {s s' t t' : ParseState} (h : s.Moved n floor s')
include h

/-- Steps of both runs. -/
theorem step (hs : Step s t) (hs' : Step s' t') (hscanner : t.scanner.Moved n t'.scanner)
    (hsink : t.sink.Moved n t'.sink) (hlimit : t'.limitReported = t.limitReported) :
    t.Moved n floor t' where
  ready := hs.ready h.ready
  ready' := hs'.ready h.ready'
  scanner := hscanner
  sink := hsink
  depth_eq := by rw [hs'.depth_eq, hs.depth_eq, h.depth_eq]
  limitReported_eq := hlimit
  floor_le := Nat.le_trans h.floor_le ((Moves.single hs).offset_le h.ready)

theorem flush : s.flush.Moved n floor s'.flush :=
  h.step (.flush s) (.flush s') ⟨h.scanner.reading, .empty n⟩ (h.sink.extend h.scanner.pending)
    h.limitReported_eq

theorem consume (way : Scanner.Advance) : (s.consume way).Moved n floor (s'.consume way) :=
  h.step (.consume way s) (.consume way s') (h.flush.scanner.advance way) h.flush.sink
    h.limitReported_eq

theorem reread (way : Scanner.Rereading) : (s.reread way).Moved n floor (s'.reread way) :=
  h.step (.reread way s) (.reread way s') (h.scanner.reread way) h.sink h.limitReported_eq

theorem tokenSpan_eq : s'.tokenSpan = s.tokenSpan.moved n := by
  rw [tokenSpan, tokenSpan, Span.moved_between, ← h.scanner.reading.stop.offset_eq]
  exact congrArg (Span.between · _) h.scanner.reading.start.offset_eq

theorem push (d : Diagnostic) : (s.push d).Moved n floor (s'.push (d.moved n)) := by
  have hlast : s'.sink.last?.any (·.span.start == (d.moved n).span.start) =
      s.sink.last?.any (·.span.start == d.span.start) := h.sink.last_eq d.span.start
  have hs := h.ready.push d
  have hs' := h.ready'.push (d.moved n)
  revert hs hs'
  unfold ParseState.push
  rw [hlast]
  intro hs hs'
  split
  · exact h
  · rename_i hnew
    rw [if_neg hnew] at hs hs'
    exact ⟨hs, hs', h.scanner, h.sink.add rfl, h.depth_eq, h.limitReported_eq, h.floor_le⟩

theorem reportLimit : s.reportLimit.Moved n floor s'.reportLimit := by
  have hs : Step s s.reportLimit := .reportLimit s
  have hs' : Step s' s'.reportLimit := .reportLimit s'
  revert hs hs'
  unfold ParseState.reportLimit
  rw [h.limitReported_eq, h.tokenSpan_eq]
  intro hs hs'
  split
  · exact h
  · rename_i hlimit
    rw [if_neg hlimit] at hs hs'
    exact h.step hs hs' h.scanner (h.sink.add rfl) rfl

theorem deeper : s.deeper.Moved n floor s'.deeper :=
  ⟨h.ready.deeper, h.ready'.deeper, h.scanner, h.sink, congrArg (· + 1) h.depth_eq,
    h.limitReported_eq, h.floor_le⟩

theorem shallower : s.shallower.Moved n floor s'.shallower :=
  ⟨h.ready.shallower, h.ready'.shallower, h.scanner, h.sink, congrArg (· - 1) h.depth_eq,
    h.limitReported_eq, h.floor_le⟩

end ParseState.Moved

namespace Coupling

/-- Runs on the same ending of two sources. -/
def moved (n floor : Nat) : Coupling where
  shift := n
  extra := 0
  floor := floor
  edge _ := True
  exact := True
  free _ := false
  cursor := Cursor.Moved n
  count := Eq
  state := ParseState.Moved n floor
  calm _ := True

instance (n floor : Nat) : (moved n floor).Lawful where
  aligned h :=
    { ready := h.ready
      ready' := h.ready'
      token_eq := h.scanner.reading.token_eq
      flags_eq := h.scanner.reading.flags_eq
      full := h.scanner.reading.full
      start := h.scanner.reading.start
      stop := h.scanner.reading.stop
      left_eq := h.scanner.reading.start.left_eq
      depth_eq := h.depth_eq
      counted := h.sink.size_eq.symm
      floor_le := h.floor_le }
  edged _ _ := ParseState.edged_of_forall (fun _ => trivial) _
  offset_eq h := h.offset_eq
  text_eq h h' := h.textTo_eq h'
  count_lt _ h h' := by rw [← h, ← h']
  free_le h := nomatch h
  flush h := h.flush
  consume way _ _ h := h.consume way
  reread way _ _ h := h.reread way
  push d _ h := h.push d
  reportLimit h := h.reportLimit
  deeper h := h.deeper
  shallower h := h.shallower
  jsx h := nomatch h
  early _ _ h := nomatch h

/-- Headers that are the same but for the place. -/
theorem moved_header {n floor : Nat} {h h' : Header} (hh : (moved n floor).header h h') :
    h' = { h with range := h.range.moved n } := by
  obtain ⟨range, flags, modifiers⟩ := h'
  obtain rfl : range = h.range.moved n := hh.range_eq
  obtain rfl : modifiers = h.modifiers := hh.modifiers_eq
  obtain rfl : flags = h.flags := hh.exact_eq trivial
  rfl

instance (n floor : Nat) : (moved n floor).Recurs Grammar.top Grammar.top := top_recurs trivial

end Coupling
end EcmaSyntax
