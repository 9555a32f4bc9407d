import EcmaSyntax.Proofs.Parse.Ready
import EcmaSyntax.Proofs.Token.Spelled

/-! # Where faults lie

What has been reported lies before the end of the present token. A token that opens a list has no
faults of its own, so that there all reports lie before its start, or at it. Steps of a parse keep
this. -/
namespace EcmaSyntax

/-- The kinds of tokens that open a list which may be read in a speculation. -/
def Kind.isOpening : Kind → Bool
  | .lessThanToken | .openBraceToken | .openBracketToken => true
  | _ => false

theorem Fault.span_start_le {first last : Nat} (h : first ≤ last) (f : Fault) :
    (f.span first last).start ≤ last := by
  cases f
  · exact Nat.le_refl _
  · exact Nat.le_refl _
  · exact h
  · exact h

namespace Lexeme

theorem isOpening_of_isPlain {k : Kind} (h : k.isPlain = true) : k.isOpening = false := by
  unfold Kind.isOpening
  split <;> first | rfl | cases h

/-- A lexeme that opens a list has no fault. -/
theorem read_fault (text : List Char) :
    (read text).fault = none ∨ (read text).kind.isOpening = false := by
  generalize hread : read text = l
  cases reads_of_read hread with
  | ended | punctuator | name => exact .inl rfl
  | number => exact .inr (isOpening_of_isPlain (number_isPlain _))
  | string | invalid => exact .inr rfl
  | template =>
    refine .inr ?_
    dsimp only [template]
    split <;> rfl
  | privateName hp => exact .inr (isOpening_of_isPlain (privateName?_isPlain hp))

theorem childLexeme_fault (text : List Char) : (Scanner.childLexeme text).fault = none := by
  unfold Scanner.childLexeme
  split <;> rfl

theorem greaterThan_isOpening (text : List Char) : (greaterThan text).1.isOpening = false := by
  unfold greaterThan
  split <;> rfl

end Lexeme

/-! ## The scanner -/

namespace Scanner
variable {s : Scanner}

/-- The offset behind which nothing is reported at the present token. -/
def front (s : Scanner) : Nat := if s.token.isOpening then s.start.offset else s.stop.offset

theorem start_le_front (hs : s.start.Sound) (h : s.start.Reaches s.stop) :
    s.start.offset ≤ s.front := by
  unfold front
  split
  · exact Nat.le_refl _
  · exact h.offset_le hs

theorem front_le_stop (hs : s.start.Sound) (h : s.start.Reaches s.stop) :
    s.front ≤ s.stop.offset := by
  unfold front
  split
  · exact h.offset_le hs
  · exact Nat.le_refl _

/-- All faults lie before an offset, or at it. -/
def HeldBefore (s : Scanner) (n : Nat) : Prop := ∀ d ∈ s.pending.toList, d.span.start ≤ n

theorem HeldBefore.mono {m n : Nat} (h : s.HeldBefore m) (hmn : m ≤ n) : s.HeldBefore n :=
  fun d hd => Nat.le_trans (h d hd) hmn

theorem HeldBefore.report {n : Nat} {d : Diagnostic} (h : s.HeldBefore n) (hd : d.span.start ≤ n) :
    (s.report d).HeldBefore n := by
  intro e he
  rw [Scanner.report, Sink.toList_add, List.mem_append, List.mem_singleton] at he
  rcases he with he | rfl
  · exact h e he
  · exact hd

theorem start_le_take (l : Lexeme) (hs : s.start.Sound) : s.start.offset ≤ (s.take l).front := by
  have hle : (s.take l).start.offset ≤ (s.take l).front := by
    refine start_le_front ?_ ?_
    · rw [take_reading]
      exact hs
    · rw [take_reading]
      exact .skip _ _
  rwa [take_reading] at hle

/-- A lexeme that is taken brings no faults behind its end. -/
theorem take_held {l : Lexeme} (hs : s.start.Sound)
    (hl : l.fault = none ∨ l.kind.isOpening = false) (h : s.HeldBefore (s.take l).front) :
    (s.take l).HeldBefore (s.take l).front := by
  cases hfault : l.fault with
  | none =>
    have hpending : (s.take l).pending = s.pending := by
      rw [take, hfault]
      rfl
    rwa [HeldBefore, hpending]
  | some f =>
    have hkind : l.kind.isOpening = false := hl.resolve_left (by simp [hfault])
    have hlast : (s.take l).front = (s.start.skip l.size).offset := by
      rw [front, take_reading]
      simp only [hkind, Bool.false_eq_true, if_false]
    rw [hlast] at h ⊢
    rw [take, hfault]
    refine HeldBefore.report (s := { s with stop := _, token := _, flags := _ }) h ?_
    exact Fault.span_start_le ((Cursor.Reaches.skip l.size s.start).offset_le hs) f

theorem skipTrivia_held (h : s.HeldBefore (s.stop.skip s.trivia.size).offset) :
    s.skipTrivia.HeldBefore s.skipTrivia.start.offset := by
  rw [skipTrivia_reading]
  unfold skipTrivia
  dsimp only
  split
  · exact HeldBefore.report (s := s) h (Nat.le_refl _)
  · exact h

theorem scan_held (hs : s.stop.Sound) (h : s.HeldBefore (s.stop.skip s.trivia.size).offset) :
    s.scan.HeldBefore s.scan.front :=
  take_held (skipTrivia_sound hs) (Lexeme.read_fault _)
    ((skipTrivia_held h).mono (start_le_take _ (skipTrivia_sound hs)))

/-- A token is read anew as it is, as another lexeme, or as a longer one without faults. None of the
others opens a list. -/
theorem reread_cases (s : Scanner) (way : Rereading) :
    s.reread way = s ∨ (s.reread way).token.isOpening = false ∧
      ((∃ l, s.reread way = s.take l ∧ l.kind.isOpening = false) ∨
        (s.reread way).pending = s.pending) := by
  have htake (l : Lexeme) (hl : l.kind.isOpening = false) : (s.take l).token.isOpening = false ∧
      ((∃ l', s.take l = s.take l' ∧ l'.kind.isOpening = false) ∨
        (s.take l).pending = s.pending) := by
    refine ⟨?_, .inl ⟨l, rfl, hl⟩⟩
    rw [take_reading]
    exact hl
  cases way with
  | slash =>
    unfold reread rescanSlash
    dsimp only
    split
    · exact .inr (htake _ rfl)
    · exact .inl rfl
  | greaterThan =>
    unfold reread rescanGreaterThan
    dsimp only
    split
    · exact .inr ⟨Lexeme.greaterThan_isOpening _, .inr rfl⟩
    · exact .inl rfl
  | template =>
    unfold reread rescanTemplate
    dsimp only
    split
    · refine .inr (htake _ ?_)
      dsimp only [Lexeme.template]
      split <;> rfl
    · exact .inl rfl
  | hyphenatedName =>
    unfold reread rescanHyphenatedName
    dsimp only
    split
    · exact .inr ⟨rfl, .inr rfl⟩
    · exact .inl rfl

/-- Reading anew makes no token shorter. -/
theorem front_le_reread (way : Rereading) (hs : s.Ready) (h : s.Spelled) :
    s.front ≤ (s.reread way).front := by
  rcases s.reread_cases way with heq | ⟨hkind, -⟩
  · exact Nat.le_of_eq (congrArg front heq.symm)
  · have hstop := (reread_spelled way hs.start_sound hs.start_stop h).2.offset_le hs.stop_sound
    have hfront : (s.reread way).front = (s.reread way).stop.offset := by
      simp only [front, hkind, Bool.false_eq_true, if_false]
    rw [hfront]
    exact Nat.le_trans (front_le_stop hs.start_sound hs.start_stop) hstop

theorem reread_held (way : Rereading) (hs : s.Ready) (hspelled : s.Spelled)
    (h : s.HeldBefore s.front) : (s.reread way).HeldBefore (s.reread way).front := by
  have hold : s.HeldBefore (s.reread way).front := h.mono (front_le_reread way hs hspelled)
  rcases s.reread_cases way with heq | ⟨-, ⟨l, heq, hkind⟩ | hpending⟩
  · rwa [heq]
  · rw [heq] at hold ⊢
    exact take_held hs.start_sound (.inr hkind) hold
  · rwa [HeldBefore, hpending]

/-- Wherever a scanner moves on to, the faults lie before the end of the token there. -/
theorem advance_held (way : Advance) (hs : s.stop.Sound) (h : s.HeldBefore s.stop.offset) :
    (s.advance way).HeldBefore (s.advance way).front := by
  have hgap : s.stop.offset ≤ (s.stop.skip s.trivia.size).offset :=
    (Cursor.Reaches.skip s.trivia.size s.stop).offset_le hs
  have hscan : s.scan.HeldBefore s.scan.front := scan_held hs (h.mono hgap)
  have htrivia := skipTrivia_held (h.mono hgap)
  have hsound := skipTrivia_sound hs
  cases way with
  | plain => exact hscan
  | expression => exact reread_held .slash (scan_movedOn hs).ready (scan_spelled hs) hscan
  | child =>
    let t : Scanner := { s with full := s.stop, start := s.stop, flags := ∅ }
    exact take_held (s := t) hs (.inl (Lexeme.childLexeme_fault _))
      (h.mono (start_le_take (s := t) _ hs))
  | attributeValue =>
    unfold advance scanAttributeValue
    dsimp only
    split
    case h_1 | h_2 => exact take_held hsound (.inr rfl) (htrivia.mono (start_le_take _ hsound))
    case h_3 =>
      rw [skipTrivia_reading] at htrivia
      exact scan_held (s := { s with pending := s.skipTrivia.pending }) hs htrivia

end Scanner
end EcmaSyntax
