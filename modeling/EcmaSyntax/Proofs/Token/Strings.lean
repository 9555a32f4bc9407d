import EcmaSyntax.Proofs.Token.Session

/-! # Strings as they are spelled

A token that is a string begins with a quote, and ends with the same quote unless its end is
missing, however it has been read. -/
namespace EcmaSyntax

/-- A string as it is spelled: behind its quote, with the same quote behind it if its end is
there. -/
def QuotedText (unterminated : Bool) (spelling : List Char) : Prop :=
  ∃ quote ∈ ['\x22', '\''], ∃ inner, spelling = quote :: inner ∧
    (unterminated = false → ∃ body, inner = body ++ [quote])

theorem QuotedText.or {unterminated : Bool} {spelling : List Char}
    (h : QuotedText unterminated spelling) (b : Bool) : QuotedText (b || unterminated) spelling := by
  obtain ⟨quote, hquote, inner, rfl, hclosed⟩ := h
  exact ⟨quote, hquote, inner, rfl, fun h => hclosed (Bool.or_eq_false_iff.mp h).2⟩

/-- A lexeme at the front of a text is spelled as a string if it is one. -/
def Lexeme.KeepsQuotes (l : Lexeme) (text : List Char) : Prop :=
  l.kind = .stringLiteral → QuotedText (l.flags.has .unterminated) (text.take l.size)

/-- The present token is spelled as a string if it is one. -/
def Reading.KeepsQuotes (r : Reading) : Prop :=
  r.token = .stringLiteral → QuotedText (r.flags.has .unterminated) r.spelling

namespace Lexeme

theorem KeepsQuotes.of_ne {l : Lexeme} {text : List Char} (h : l.kind ≠ .stringLiteral) :
    l.KeepsQuotes text := fun hk => absurd hk h

theorem string_keepsQuotes {quote : Char} (hquote : quote ∈ ['\x22', '\'']) (rest : List Char) :
    (string quote rest).KeepsQuotes (quote :: rest) := by
  have hclosed := stringBody_closed quote rest
  intro _
  unfold string
  generalize stringBody quote rest = body at hclosed ⊢
  obtain ⟨n, closed⟩ := body
  dsimp only at hclosed ⊢
  rw [has_unterminated _ _ _ (by decide), List.take_succ_cons]
  refine ⟨quote, hquote, _, rfl, fun h => hclosed ?_⟩
  simpa using h

theorem plainString_keepsQuotes {quote : Char} (hquote : quote ∈ ['\x22', '\''])
    (rest : List Char) : (Scanner.plainString quote rest).KeepsQuotes (quote :: rest) := by
  have hclosed := take_closed quote rest
  intro _
  unfold Scanner.plainString
  dsimp only
  rw [has_unterminated _ _ _ (by decide)]
  generalize rest.takeWhile (· != quote) = inner at hclosed ⊢
  by_cases h : inner.length < rest.length
  · rw [if_pos h, decide_eq_true h, List.take_succ_cons, hclosed h]
    exact ⟨quote, hquote, _, rfl, fun _ => ⟨inner, rfl⟩⟩
  · rw [if_neg h, decide_eq_false h, List.take_succ_cons]
    exact ⟨quote, hquote, _, rfl, nofun⟩

theorem template_ne_string (first : Bool) (rest : List Char) :
    (template first rest).kind ≠ .stringLiteral := by
  unfold template
  dsimp only
  split <;> cases first <;> exact nofun

theorem name_ne_string (text : List Char) : (name text).kind ≠ .stringLiteral := by
  unfold name
  dsimp only
  split
  · exact nofun
  · cases hword : Kind.ofKeyword? (String.ofList (text.take (nameRun Text.isNamePart 0 text).size)) with
    | none => exact nofun
    | some k =>
      have hkeyword := (Kind.ofKeyword?_kind hword).1
      rintro rfl
      cases hkeyword

/-- A token at the front of a text that is a string begins with a quote. -/
theorem read_keepsQuotes (text : List Char) : (read text).KeepsQuotes text := by
  have hplain {k : Kind} (h : k.isPlain = true) : k ≠ .stringLiteral := by
    rintro rfl
    cases h
  generalize hread : read text = l
  cases reads_of_read hread with
  | ended | invalid => exact .of_ne nofun
  | number => exact .of_ne (hplain (number_isPlain _))
  | string hquote => exact string_keepsQuotes (by simpa using hquote) _
  | template => exact .of_ne (template_ne_string true _)
  | privateName hp => exact .of_ne (hplain (privateName?_isPlain hp))
  | punctuator hp =>
    refine .of_ne ?_
    rintro rfl
    cases punctuator?_text hp
  | name => exact .of_ne (name_ne_string _)

end Lexeme

namespace Scanner
variable {s : Scanner}

theorem take_keepsQuotes {l : Lexeme} (hs : s.start.Sound) (hl : l.KeepsQuotes s.start.rest) :
    (s.take l).KeepsQuotes := by
  intro hk
  have hspelling : (s.take l).spelling = s.start.rest.take l.size := by
    rw [take_reading]
    exact Cursor.textTo_skip l.size hs
  rw [take_reading] at hk
  rw [hspelling, take_reading, FlagSet.has_union]
  exact (hl hk).or _

theorem scan_keepsQuotes (hs : s.stop.Sound) : s.scan.KeepsQuotes :=
  take_keepsQuotes (skipTrivia_sound hs) (Lexeme.read_keepsQuotes _)

theorem reread_keepsQuotes (way : Rereading) (hs : s.start.Sound) (h : s.KeepsQuotes) :
    (s.reread way).KeepsQuotes := by
  cases way with
  | slash =>
    unfold reread rescanSlash
    dsimp only
    split
    · exact take_keepsQuotes hs (.of_ne nofun)
    · exact h
  | greaterThan =>
    unfold reread rescanGreaterThan
    dsimp only
    split
    case isTrue =>
      intro hk
      have htext := Lexeme.greaterThan_text s.stop.rest
      rw [show (Lexeme.greaterThan s.stop.rest).1 = .stringLiteral from hk] at htext
      cases htext
    case isFalse => exact h
  | template =>
    unfold reread rescanTemplate
    dsimp only
    split
    · exact take_keepsQuotes hs (.of_ne (Lexeme.template_ne_string _ _))
    · exact h
  | hyphenatedName =>
    unfold reread rescanHyphenatedName
    dsimp only
    split
    · nofun
    · exact h

theorem advance_keepsQuotes (way : Advance) (hs : s.stop.Sound) : (s.advance way).KeepsQuotes := by
  cases way with
  | plain => exact scan_keepsQuotes hs
  | expression =>
    exact reread_keepsQuotes .slash (scan_movedOn hs).ready.start_sound (scan_keepsQuotes hs)
  | child =>
    let t : Scanner := { s with full := s.stop, start := s.stop, flags := ∅ }
    refine take_keepsQuotes (s := t) hs (.of_ne ?_)
    unfold childLexeme
    split <;> exact nofun
  | attributeValue =>
    have hsound := skipTrivia_sound hs
    unfold advance scanAttributeValue
    dsimp only
    split
    case h_1 hrest =>
      exact take_keepsQuotes hsound (hrest ▸ Lexeme.plainString_keepsQuotes (by decide) _)
    case h_2 hrest =>
      exact take_keepsQuotes hsound (hrest ▸ Lexeme.plainString_keepsQuotes (by decide) _)
    case h_3 => exact scan_keepsQuotes (s := { s with pending := _ }) hs

end Scanner
end EcmaSyntax
