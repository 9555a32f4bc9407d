import EcmaSyntax.Proofs.Source.Cursor
import EcmaSyntax.Proofs.Token.Lexeme

/-! # The places of a token

The end of the token before, the start and the end of the present token follow each other, and only
the end of the source is an empty token. Moving to the next token takes up the end of the present
one as the new first place; reading anew keeps both places before the token. -/
namespace EcmaSyntax

/-- What holds of every token. -/
structure Reading.Ready (r : Reading) : Prop where
  full_start : r.full.Reaches r.start
  start_stop : r.start.Reaches r.stop
  sound : r.full.Sound
  ended : r.token = .endOfFileToken ↔ r.start.left = 0
  nonempty : r.start.left ≠ 0 → r.stop.left < r.start.left
  /-- A name that is spelled like a keyword is that keyword. -/
  spelled : r.token.isName = true → ∀ k, Kind.ofKeyword? r.text = some k → r.token = k

namespace Reading.Ready
variable {r : Reading}

theorem start_sound (h : r.Ready) : r.start.Sound := h.full_start.sound h.sound

theorem stop_sound (h : r.Ready) : r.stop.Sound := h.start_stop.sound h.start_sound

theorem stop_lt (h : r.Ready) (ht : r.token ≠ .endOfFileToken) :
    r.stop.left < r.start.left :=
  h.nonempty fun h0 => ht (h.ended.mpr h0)

end Reading.Ready

namespace Scanner

@[simp] theorem report_reading (s : Scanner) (d : Diagnostic) :
    (s.report d).toReading = s.toReading := rfl

@[simp] theorem reportFault_reading (s : Scanner) (fault : Option Fault) :
    (s.reportFault fault).toReading = s.toReading := by
  cases fault <;> rfl

@[simp] theorem take_reading (s : Scanner) (l : Lexeme) :
    (s.take l).toReading =
      { s.toReading with
        stop := s.start.skip l.size
        token := l.kind
        flags := s.flags ∪ l.flags } := by
  simp [take]

@[simp] theorem skipTrivia_reading (s : Scanner) :
    s.skipTrivia.toReading =
      { s.toReading with
        full := s.stop
        start := s.stop.skip s.trivia.size
        stop := s.stop.skip s.trivia.size
        flags := .when s.trivia.lineBreak TokenFlag.precedingLineBreak } := by
  unfold skipTrivia
  dsimp only
  split <;> rfl

/-- A lexeme that fits the text where the token starts makes a token. -/
theorem take_ready {s : Scanner} {l : Lexeme} (hs : s.full.Reaches s.start) (hf : s.full.Sound)
    (hnil : s.start.rest = [] → l.kind = .endOfFileToken)
    (hcons : s.start.rest ≠ [] → l.Proper s.start.rest) : (s.take l).Ready := by
  have hsound := hs.sound hf
  have hleft := Cursor.left_eq_zero hsound
  rw [take_reading]
  refine ⟨hs, .skip _ _, hf, ?_, ?_, ?_⟩
  · constructor
    · intro hk
      exact Decidable.byContradiction fun h0 => (hcons (mt hleft.mpr h0)).kind_ne hk
    · intro h0
      exact hnil (hleft.mp h0)
  · intro h0
    have hrest := mt hleft.mpr h0
    exact Cursor.skip_left_lt hsound hrest (hcons hrest).size_pos
  · intro hname k hk
    change l.kind.isName = true at hname
    have hrest : s.start.rest ≠ [] := fun h => by
      rw [hnil h] at hname
      cases hname
    have hl := (hcons hrest).name_eq hname
    rw [Reading.text, Reading.spelling, Cursor.textTo_skip _ hsound, hl] at hk
    exact (congrArg Lexeme.kind hl).trans (Lexeme.name_kind hk)

theorem take_proper_ready {s : Scanner} {l : Lexeme} (hs : s.full.Reaches s.start)
    (hf : s.full.Sound) (hrest : s.start.rest ≠ []) (hl : l.Proper s.start.rest) :
    (s.take l).Ready :=
  take_ready hs hf (fun h => absurd h hrest) (fun _ => hl)

/-- A first line that is left out lies before the first token. -/
theorem skipShebang_reaches (text : List Char) :
    (Cursor.start text).Reaches (ofText text).skipShebang.stop := by
  unfold skipShebang
  split
  · split
    · exact .skip _ _
    · exact .refl _
  · exact .refl _

/-! ## Moving to the next token -/

/-- A scanner that stands on a token, moved on from another one. -/
structure MovedOn (s t : Scanner) : Prop where
  full_eq : t.full = s.stop
  ready : t.Ready

theorem scan_movedOn {s : Scanner} (h : s.stop.Sound) : s.MovedOn s.scan := by
  refine ⟨by simp [scan], ?_⟩
  unfold scan
  apply take_ready
  · simpa using Cursor.Reaches.skip _ _
  · simpa using h
  · intro hnil
    rw [hnil]
    rfl
  · exact Lexeme.read_proper

theorem rescanSlash_reading {s : Scanner} : s.rescanSlash.full = s.full ∧
    s.rescanSlash.start = s.start := by
  unfold rescanSlash
  split <;> simp

theorem rest_ne_nil {s : Scanner} (h : s.Ready) (ht : s.token ≠ .endOfFileToken) :
    s.start.rest ≠ [] := by
  have hlt := h.stop_lt ht
  have hleft := Cursor.left_eq_zero h.start_sound
  intro hnil
  have := hleft.mpr hnil
  omega

theorem rescanSlash_ready {s : Scanner} (h : s.Ready) : s.rescanSlash.Ready := by
  unfold rescanSlash
  split
  case isTrue hslash =>
    have ht : s.token ≠ .endOfFileToken := by
      rintro ht
      simp [atSlash, ht] at hslash
    exact take_proper_ready h.full_start h.sound (rest_ne_nil h ht)
      (Lexeme.regularExpression_proper _ _)
  · exact h

theorem scanChild_movedOn {s : Scanner} (h : s.stop.Sound) : s.MovedOn s.scanChild := by
  refine ⟨by simp [scanChild], ?_⟩
  unfold scanChild
  apply take_ready
  · exact .refl _
  · exact h
  · intro hnil
    have hnil : s.stop.rest = [] := hnil
    rw [hnil]
    rfl
  · exact Lexeme.childLexeme_proper

theorem scanAttributeValue_movedOn {s : Scanner} (h : s.stop.Sound) :
    s.MovedOn s.scanAttributeValue := by
  have hreach : s.skipTrivia.full.Reaches s.skipTrivia.start := by
    simpa using Cursor.Reaches.skip _ _
  have hsound : s.skipTrivia.full.Sound := by simpa using h
  -- a quote begins a string behind the trivia; anything else is scanned from the start
  unfold scanAttributeValue
  dsimp only
  split
  case h_3 =>
    have hm : MovedOn { s with pending := s.skipTrivia.pending } _ := scan_movedOn h
    exact ⟨hm.full_eq, hm.ready⟩
  all_goals
    case _ rest hrest =>
      refine ⟨by simp, take_proper_ready hreach hsound ?_ (Lexeme.plainString_proper _ _ _)⟩
      rw [hrest]
      exact List.cons_ne_nil _ _

theorem advance_movedOn {s : Scanner} (way : Advance) (h : s.stop.Sound) :
    s.MovedOn (s.advance way) := by
  cases way with
  | plain => exact scan_movedOn h
  | child => exact scanChild_movedOn h
  | attributeValue => exact scanAttributeValue_movedOn h
  | expression =>
    obtain ⟨hfull, hready⟩ := scan_movedOn h
    exact ⟨rescanSlash_reading.1.trans hfull, rescanSlash_ready hready⟩

/-! ## Reading anew -/

/-- A scanner on the same token, read in another way. -/
structure Reread (s t : Scanner) : Prop where
  full_eq : t.full = s.full
  start_eq : t.start = s.start
  ready : t.Ready

theorem Reread.refl {s : Scanner} (h : s.Ready) : s.Reread s := ⟨rfl, rfl, h⟩

/-- A token may be made longer. -/
theorem longer_ready {s : Scanner} {kind : Kind} {n : Nat} {flags : TokenFlags} (h : s.Ready)
    (ht : s.token ≠ .endOfFileToken) (hkind : kind ≠ .endOfFileToken)
    (hspelled : kind.isName = true → ∃ c ∈ s.stop.rest.take n, c.isLower = false) :
    Reading.Ready { s.toReading with token := kind, stop := s.stop.skip n, flags := flags } := by
  have hlt := h.stop_lt ht
  refine ⟨h.full_start, h.start_stop.trans (.skip _ _), h.sound, ?_, ?_, ?_⟩
  · constructor
    · exact fun hk => absurd hk hkind
    · intro h0
      exact absurd (h.ended.mpr h0) ht
  · intro _
    have hle := (Cursor.Reaches.skip n s.stop).left_le h.stop_sound
    change (s.stop.skip n).left < s.start.left
    omega
  · intro hname k hk
    obtain ⟨c, hc, hlower⟩ := hspelled hname
    obtain ⟨m, hm⟩ := h.start_stop
    have hmem : c ∈ s.start.textTo (s.stop.skip n) := by
      rw [hm, ← Cursor.skip_add, Cursor.textTo_skip _ h.start_sound, List.take_add]
      rw [hm, Cursor.skip_rest] at hc
      exact List.mem_append_right _ hc
    cases (Lexeme.ofKeyword?_eq_none hmem hlower).symm.trans hk

theorem rescanGreaterThan_reread {s : Scanner} (h : s.Ready) : s.Reread s.rescanGreaterThan := by
  unfold rescanGreaterThan
  split
  case isTrue hk =>
    have ht : s.token ≠ .endOfFileToken := by
      rintro ht
      simp [ht] at hk
    obtain ⟨hend, hname⟩ := Lexeme.greaterThan_kind s.stop.rest
    exact ⟨rfl, rfl, longer_ready h ht hend fun h => by simp [hname] at h⟩
  · exact .refl h

theorem rescanTemplate_reread {s : Scanner} (h : s.Ready) : s.Reread s.rescanTemplate := by
  unfold rescanTemplate
  split
  case isTrue hk =>
    have ht : s.token ≠ .endOfFileToken := by
      rintro ht
      simp [ht] at hk
    exact ⟨by simp, by simp, take_proper_ready h.full_start h.sound (rest_ne_nil h ht)
      (Lexeme.template_proper _ _ _)⟩
  · exact .refl h

theorem rescanHyphenatedName_reread {s : Scanner} (h : s.Ready) :
    s.Reread s.rescanHyphenatedName := by
  unfold rescanHyphenatedName
  split
  case isTrue hk =>
    rw [Bool.and_eq_true] at hk
    obtain ⟨hname, hhyphen⟩ := hk
    have ht : s.token ≠ .endOfFileToken := by
      rintro ht
      rw [ht] at hname
      cases hname
    refine ⟨rfl, rfl, longer_ready h ht (by simp) fun _ => ⟨'-', ?_, rfl⟩⟩
    obtain ⟨rest, hrest⟩ := List.head?_eq_some_iff.mp (eq_of_beq hhyphen)
    have hpos : 0 < (Lexeme.nameRun (fun c => c == '-' || Text.isNamePart c) 0 ('-' :: rest)).size :=
      Lexeme.nameRun_size_pos (.inl rfl)
    obtain ⟨n, hn⟩ := Nat.exists_eq_succ_of_ne_zero (Nat.ne_of_gt hpos)
    rw [hrest, hn]
    exact List.mem_cons_self
  · exact .refl h

theorem reread_reread {s : Scanner} (way : Rereading) (h : s.Ready) :
    s.Reread (s.reread way) := by
  cases way with
  | slash => exact ⟨rescanSlash_reading.1, rescanSlash_reading.2, rescanSlash_ready h⟩
  | greaterThan => exact rescanGreaterThan_reread h
  | template => exact rescanTemplate_reread h
  | hyphenatedName => exact rescanHyphenatedName_reread h

/-- A slash is read anew as a regular expression. -/
theorem reread_slash_token {s : Scanner}
    (h : s.token = .slashToken ∨ s.token = .slashEqualsToken) :
    (s.reread .slash).token = .regularExpressionLiteral := by
  have hslash : s.atSlash = true := by simpa [atSlash] using h
  rw [reread, rescanSlash, if_pos hslash, take_reading]
  rfl

/-- A closing brace is read anew as a piece of a template. -/
theorem reread_template_token {s : Scanner} (h : s.token = .closeBraceToken) :
    (s.reread .template).token = .templateMiddle ∨ (s.reread .template).token = .templateTail := by
  rw [reread, rescanTemplate, if_pos (beq_iff_eq.mpr h), take_reading]
  unfold Lexeme.template
  dsimp only
  split
  · exact .inl rfl
  · exact .inr rfl

end Scanner
end EcmaSyntax
