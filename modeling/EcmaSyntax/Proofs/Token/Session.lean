import EcmaSyntax.Proofs.Token.Spelled

/-! # Sessions with a scanner

A client moves a scanner on, has tokens read anew, keeps states and goes back to them, in any order
and also before the first token. Throughout, the places of the present token follow each other and
lie between characters of the source, and so do the ends of its text and of what stands between its
delimiters. A token that is met by moving on begins behind the one before, and is empty only at the
end of the source; the place behind it decreases by going back alone. -/
namespace EcmaSyntax

/-! ## Places of one token -/

/-- How many characters of the present token are delimiters that are there. -/
def Reading.margins (r : Reading) : Nat × Nat :=
  let (front, behind) := delimiters r.token
  (front, if r.flags.has .unterminated then 0 else behind)

/-- The present token lies in a source, between characters. -/
structure Reading.Faithful (source : String) (r : Reading) : Prop where
  full_le_start : r.full.offset ≤ r.start.offset
  start_le_stop : r.start.offset ≤ r.stop.offset
  stop_le_size : r.stop.offset ≤ source.utf8ByteSize
  full_valid : String.Pos.Raw.IsValid source ⟨r.full.offset⟩
  start_valid : String.Pos.Raw.IsValid source ⟨r.start.offset⟩
  stop_valid : String.Pos.Raw.IsValid source ⟨r.stop.offset⟩
  text_covered : Range.Covers ⟨r.start.offset, r.stop.offset⟩ source r.text
  value_covered :
    Range.Covers ⟨r.start.offset + r.margins.1, r.stop.offset - r.margins.2⟩ source r.value
  ended : r.token = .endOfFileToken → r.stop.offset = source.utf8ByteSize

/-- The present token has been read in a source. -/
structure Reading.Placed (source : String) (r : Reading) : Prop where
  start_full : (Cursor.start source.toList).Reaches r.full
  full_start : r.full.Reaches r.start
  start_stop : r.start.Reaches r.stop
  spelled : r.Spelled
  ended : r.token = .endOfFileToken → r.stop.rest = []

namespace Reading.Placed
variable {source : String} {r : Reading}

theorem reaches_start (h : r.Placed source) : (Cursor.start source.toList).Reaches r.start :=
  h.start_full.trans h.full_start

theorem reaches_stop (h : r.Placed source) : (Cursor.start source.toList).Reaches r.stop :=
  h.reaches_start.trans h.start_stop

theorem start_sound (h : r.Placed source) : r.start.Sound :=
  h.reaches_start.sound (Cursor.start_sound _)

theorem stop_sound (h : r.Placed source) : r.stop.Sound := h.start_stop.sound h.start_sound

/-- What stands between the delimiters of a token is a slice of its own. -/
theorem value_covered (h : r.Placed source) :
    Range.Covers ⟨r.start.offset + r.margins.1, r.stop.offset - r.margins.2⟩ source r.value := by
  obtain ⟨front, inner, behind, hspelling, hfront, hbehind, hsize⟩ := h.spelled.delimits
  have hcovers := h.reaches_start.covers h.start_stop
  have hmargins : r.margins = (front.length, behind.length) := by rw [hfront, hbehind]; rfl
  have hlength : r.spelling.length - behind.length = (front ++ inner).length := by
    rw [hspelling, List.length_append]
    exact Nat.add_sub_cancel _ _
  have hvalue : r.value = String.ofList inner := by
    calc
      r.value = String.ofList
          ((r.spelling.take (r.spelling.length - r.margins.2)).drop r.margins.1) := rfl
      _ = String.ofList inner := by
        rw [hmargins, hlength, hspelling, List.take_left, List.drop_left]
  rw [hvalue, hmargins]
  change Range.Covers _ source (String.ofList r.spelling) at hcovers
  rw [hspelling] at hcovers
  exact hcovers.inner (fun c hc => hsize c (List.mem_append_left _ hc))
    fun c hc => hsize c (List.mem_append_right _ hc)

theorem faithful (h : r.Placed source) : r.Faithful source := by
  have htrivia := h.start_full.covers h.full_start
  have htext := h.reaches_start.covers h.start_stop
  exact ⟨htrivia.pos_le_stop, htext.pos_le_stop, htext.stop_le_size, htrivia.pos_valid,
    htext.pos_valid, htext.stop_valid, htext, h.value_covered,
    fun ht => h.reaches_stop.offset_eq_size (h.ended ht)⟩

end Reading.Placed

/-! ## Requests -/

namespace Scanner

/-- What a client may ask of a scanner. -/
inductive Request
  | advance (way : Advance)
  | reread (way : Rereading)
  /-- Takes the faults held so far. -/
  | collect
  /-- Keeps the present state. -/
  | save
  /-- Goes back to a state that has been kept. -/
  | restore (i : Nat)
deriving DecidableEq

/-- A scanner with the states that its client has kept. -/
structure Session where
  scanner : Scanner
  kept : List Reading := []

namespace Session

/-- A session before the first token. The client may leave out a first line that names an
interpreter. -/
def start (source : String) (shebang : Bool) : Session :=
  let s := ofText source.toList
  { scanner := if shebang then s.skipShebang else s }

def request (s : Session) : Request → Session
  | .advance way => { s with scanner := s.scanner.advance way }
  | .reread way => { s with scanner := s.scanner.reread way }
  | .collect => { s with scanner := s.scanner.collect.2 }
  | .save => { s with kept := s.kept ++ [s.scanner.toReading] }
  | .restore i =>
    match s.kept[i]? with
    | none => s
    | some r => { s with scanner := s.scanner.withReading r }

def serve (s : Session) (requests : List Request) : Session := requests.foldl request s

end Session

/-- How a scanner stands behind a request. -/
structure Follows (s : Scanner) (r : Request) (t : Scanner) : Prop where
  stop_le : (∀ i, r ≠ .restore i) → s.stop.offset ≤ t.stop.offset
  advanced : ∀ way, r = .advance way →
    t.full = s.stop ∧ (t.token ≠ .endOfFileToken → t.start.offset < t.stop.offset)
  reread : ∀ way, r = .reread way → t.full = s.full ∧ t.start = s.start

variable {source : String} {s : Scanner}

theorem advance_placed (way : Advance) (h : s.Placed source) : (s.advance way).Placed source := by
  obtain ⟨hfull, hready⟩ := advance_movedOn way h.stop_sound
  refine ⟨hfull ▸ h.reaches_stop, hready.full_start, hready.start_stop,
    advance_spelled way h.stop_sound, fun ht => ?_⟩
  have hleft : (s.advance way).start.left = 0 := hready.ended.mp ht
  have hle := hready.start_stop.left_le hready.start_sound
  exact (Cursor.left_eq_zero hready.stop_sound).mp (by omega)

/-- Reading anew leaves the places before the token. -/
theorem reread_places (way : Rereading) :
    (s.reread way).full = s.full ∧ (s.reread way).start = s.start := by
  cases way with
  | slash => exact rescanSlash_reading
  | greaterThan | template | hyphenatedName =>
    simp only [reread, rescanGreaterThan, rescanTemplate, rescanHyphenatedName]
    split <;> simp

/-- The kinds of tokens that reading anew gives. -/
def Rereading.kinds : Rereading → List Kind
  | .slash => [.regularExpressionLiteral]
  | .greaterThan =>
    [.greaterThanToken, .greaterThanEqualsToken, .greaterThanGreaterThanToken,
      .greaterThanGreaterThanEqualsToken, .greaterThanGreaterThanGreaterThanToken,
      .greaterThanGreaterThanGreaterThanEqualsToken]
  | .template => [.templateMiddle, .templateTail]
  | .hyphenatedName => [.identifier]

/-- A token is left as it is, or it becomes one of a few kinds. -/
theorem reread_kinds (s : Scanner) (way : Rereading) :
    s.reread way = s ∨ (s.reread way).token ∈ way.kinds := by
  cases way with
  | slash =>
    unfold reread rescanSlash
    dsimp only
    split
    · rw [take_reading]
      exact .inr List.mem_cons_self
    · exact .inl rfl
  | greaterThan =>
    unfold reread rescanGreaterThan
    dsimp only
    split
    · right
      dsimp only
      unfold Lexeme.greaterThan
      split <;> decide
    · exact .inl rfl
  | template =>
    unfold reread rescanTemplate
    dsimp only
    split
    · right
      rw [take_reading]
      dsimp only [Lexeme.template]
      split <;> decide
    · exact .inl rfl
  | hyphenatedName =>
    unfold reread rescanHyphenatedName
    dsimp only
    split
    · exact .inr List.mem_cons_self
    · exact .inl rfl

/-- A token of another kind has not been read anew. -/
theorem reread_eq_of_token {way : Rereading} {k : Kind} (h : (s.reread way).token = k)
    (hk : k ∉ way.kinds) : s.reread way = s :=
  (reread_kinds s way).resolve_right (h ▸ hk)

theorem reread_placed (way : Rereading) (h : s.Placed source) : (s.reread way).Placed source := by
  obtain ⟨hfull, hstart⟩ := reread_places (s := s) way
  obtain ⟨hspelled, hstop⟩ := reread_spelled way h.start_sound h.start_stop h.spelled
  refine ⟨hfull ▸ h.start_full, hfull ▸ hstart ▸ h.full_start,
    hstart ▸ h.start_stop.trans hstop, hspelled, fun ht => ?_⟩
  have heq := reread_eq_of_token ht (by cases way <;> decide)
  rw [heq] at ht ⊢
  exact h.ended ht

/-- Before the first token there is none. -/
theorem ofText_placed (source : String) : (ofText source.toList).Placed source :=
  ⟨.refl _, .refl _, .refl _, .of_isPlain rfl, nofun⟩

theorem skipShebang_token (text : List Char) : (ofText text).skipShebang.token = .unknown := by
  unfold skipShebang
  split
  · split <;> rfl
  · rfl

theorem skipShebang_placed (source : String) : (ofText source.toList).skipShebang.Placed source := by
  have h := ofText_placed source
  have hstop := skipShebang_reaches source.toList
  unfold skipShebang at hstop ⊢
  split
  case h_1 =>
    split
    · exact ⟨h.start_full, h.full_start, .skip _ _, .of_isPlain rfl, nofun⟩
    · exact h
  case h_2 => exact h

/-! ## Sessions -/

/-- All readings of a session, the present one and those that are kept. -/
structure Session.All (p : Reading → Prop) (s : Session) : Prop where
  present : p s.scanner.toReading
  kept : ∀ r ∈ s.kept, p r

namespace Session
variable {s : Session}

theorem All.start {p : Reading → Prop} {source : String} (shebang : Bool)
    (htext : p (ofText source.toList).toReading)
    (hshebang : p (ofText source.toList).skipShebang.toReading) : (start source shebang).All p := by
  cases shebang with
  | false => exact ⟨htext, fun _ h => nomatch h⟩
  | true => exact ⟨hshebang, fun _ h => nomatch h⟩

/-- What moving on and reading anew preserve holds of all readings of a session. -/
theorem All.request {p : Reading → Prop}
    (hadvance : ∀ (t : Scanner) way, p t.toReading → p (t.advance way).toReading)
    (hreread : ∀ (t : Scanner) way, p t.toReading → p (t.reread way).toReading)
    (h : s.All p) (r : Request) : (s.request r).All p := by
  cases r with
  | advance way => exact ⟨hadvance _ way h.present, h.kept⟩
  | reread way => exact ⟨hreread _ way h.present, h.kept⟩
  | collect => exact ⟨h.present, h.kept⟩
  | save =>
    refine ⟨h.present, fun r hr => ?_⟩
    rcases List.mem_append.mp hr with hr | hr
    · exact h.kept r hr
    · exact List.mem_singleton.mp hr ▸ h.present
  | restore i =>
    unfold Session.request
    dsimp only
    split
    · exact h
    case h_2 r hr => exact ⟨h.kept r (List.mem_of_getElem? hr), h.kept⟩

theorem All.serve {p : Reading → Prop}
    (hadvance : ∀ (t : Scanner) way, p t.toReading → p (t.advance way).toReading)
    (hreread : ∀ (t : Scanner) way, p t.toReading → p (t.reread way).toReading)
    (h : s.All p) (requests : List Request) : (s.serve requests).All p := by
  induction requests generalizing s with
  | nil => exact h
  | cons r _ ih => exact ih (h.request hadvance hreread r)

/-- All readings of a session have been read in its source. -/
theorem served_placed (source : String) (shebang : Bool) (requests : List Request) :
    ((Session.start source shebang).serve requests).All (Reading.Placed source) :=
  (All.start shebang (ofText_placed source) (skipShebang_placed source)).serve
    (fun _ way => advance_placed way) (fun _ way => reread_placed way) requests

/-- A request but going back moves on, or else leaves the place behind the token. -/
theorem follows (hpresent : s.scanner.Placed source) (r : Request) :
    s.scanner.Follows r (s.request r).scanner := by
  cases r with
  | advance way =>
    obtain ⟨hfull, hready⟩ := advance_movedOn way hpresent.stop_sound
    have hstop := hready.full_start.trans hready.start_stop
    refine ⟨fun _ => ?_, fun way' heq => ?_, nofun⟩
    · rw [hfull] at hstop
      exact hstop.offset_le hpresent.stop_sound
    · cases heq
      refine ⟨hfull, fun ht => ?_⟩
      exact (hready.start_stop.offset_lt_iff hready.start_sound).mpr (hready.stop_lt ht)
  | reread way =>
    have hstop := (reread_spelled way hpresent.start_sound hpresent.start_stop hpresent.spelled).2
    refine ⟨fun _ => hstop.offset_le hpresent.stop_sound, nofun, fun way' heq => ?_⟩
    cases heq
    exact reread_places way
  | collect | save => exact ⟨fun _ => Nat.le_refl _, nofun, nofun⟩
  | restore i => exact ⟨fun hne => absurd rfl (hne i), nofun, nofun⟩

/-- Whatever a client asks of a scanner, the present token lies in the source, and every request
moves the scanner on as it should. -/
theorem serve_faithful (source : String) (shebang : Bool) (requests : List Request) :
    ((start source shebang).serve requests).scanner.Faithful source ∧
      ∀ r, ((start source shebang).serve requests).scanner.Follows r
        (((start source shebang).serve requests).request r).scanner := by
  have hserve := (served_placed source shebang requests).present
  exact ⟨hserve.faithful, follows hserve⟩

end Session
end Scanner
end EcmaSyntax
