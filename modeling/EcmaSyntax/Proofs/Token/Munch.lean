import EcmaSyntax.Proofs.Token.Session

/-! # Maximal munch

Scanning reads one lexeme at the front of the text behind the trivia, and the token has the
characters, the kind and the flags of that lexeme. What lexemes of a sort may be is told apart from
how they are read: a lexeme of the sort is the longest of the texts of that sort that stand where it
is read. -/
namespace EcmaSyntax

/-- The longest of the texts with a property that stand at the front of a text. -/
structure LongestFront (p : List Char → Prop) (front text : List Char) : Prop where
  holds : p front
  stands : front <+: text
  length_le : ∀ other, p other → other <+: text → other.length ≤ front.length

/-! ## What begins a name -/

namespace Text
variable {c : Char}

/-- Characters other than digits and blanks that begin no word. -/
def punctuation : List Char := "\x22'\x60#()\x7b\x7d[];,~@.?:<>=!+-*/%&|^".toList

theorem not_nameStart_of_toNat (first last : Nat) (h : first ≤ c.toNat ∧ c.toNat ≤ last)
    (hall : (List.range' first (last + 1 - first)).all
      (fun n => !isNameStart (Char.ofNat n)) = true) : isNameStart c = false := by
  have hmem : c.toNat ∈ List.range' first (last + 1 - first) := by
    rw [List.mem_range'_1]
    omega
  simpa using List.all_eq_true.mp hall _ hmem

/-- A character that begins a word begins no other token and no trivia. -/
theorem isNameStart_other (h : isNameStart c = true) :
    isDecimalDigit c = false ∧ isBlank c = false ∧ isLineTerminator c = false ∧
      c ∉ punctuation := by
  have hnot {p : Char → Bool} (hp : p c = true → isNameStart c = false) : p c = false :=
    Bool.eq_false_iff.mpr fun hc => Bool.noConfusion (h.symm.trans (hp hc))
  refine ⟨hnot fun hc => ?_, hnot fun hc => ?_, hnot fun hc => ?_, fun hc => ?_⟩
  · simp only [isDecimalDigit, Bool.and_eq_true, decide_eq_true_eq, Char.le_def,
      UInt32.le_iff_toNat_le] at hc
    exact not_nameStart_of_toNat 0x30 0x39 hc (by decide +kernel)
  · simp only [isBlank, Bool.or_eq_true, beq_iff_eq, Bool.and_eq_true, decide_eq_true_eq] at hc
    have hone {n : Nat} (hn : c.toNat = n) (h : isNameStart (Char.ofNat n) = false) :
        isNameStart c = false := by
      rwa [← hn, Char.ofNat_toNat] at h
    rcases hc with (((((((((rfl | rfl) | hn) | hn) | hn) | hn) | hn) | hn) | hn) | hn) | hn
    all_goals
      first
      | decide +kernel
      | exact hone hn (by decide +kernel)
      | exact not_nameStart_of_toNat _ _ hn (by decide +kernel)
  · simp only [isLineTerminator, Bool.or_eq_true, beq_iff_eq] at hc
    rcases hc with ((rfl | rfl) | rfl) | rfl <;> decide +kernel
  · have hall : punctuation.all (!isNameStart ·) = true := by decide +kernel
    have := List.all_eq_true.mp hall c hc
    simp [h] at this

end Text

namespace Lexeme
variable {text : List Char} {c : Char}

theorem punctuator?_eq_none (h : c ∉ Text.punctuation) : punctuator? (c :: text) = none := by
  unfold punctuator?
  split
  all_goals first | rfl | skip
  all_goals
    rename_i heq
    obtain ⟨rfl, -⟩ := List.cons.inj heq
    exact absurd (by decide) h

theorem number_kind (text : List Char) :
    (number text).kind = .numericLiteral ∨ (number text).kind = .bigIntLiteral := by
  have hof (isInteger : Bool) (body rest : List Char) (flags : TokenFlags) :
      (numberOf isInteger body rest flags).kind = .numericLiteral ∨
        (numberOf isInteger body rest flags).kind = .bigIntLiteral := by
    unfold numberOf
    split
    · exact .inr rfl
    · exact .inl rfl
  have hdecimal : (decimal text).kind = .numericLiteral ∨ (decimal text).kind = .bigIntLiteral := by
    unfold decimal
    dsimp only
    split
    · exact .inl rfl
    · exact hof _ _ _ _
  unfold number
  split
  · split
    · exact hof _ _ _ _
    · exact hdecimal
  · exact hdecimal

theorem template_kind (rest : List Char) :
    (template true rest).kind = .noSubstitutionTemplateLiteral ∨
      (template true rest).kind = .templateHead := by
  dsimp only [template]
  split
  · exact .inr rfl
  · exact .inl rfl

theorem privateName?_kind {l : Lexeme} (h : privateName? text = some l) :
    l.kind = .privateIdentifier := by
  unfold privateName? at h
  split at h
  · cases h
  · split at h <;> cases h
    rfl

theorem name_isName (text : List Char) : (name text).kind.isName = true := by
  dsimp only [name]
  split
  · rfl
  · cases hk : Kind.ofKeyword? _ with
    | none => rfl
    | some k => simp [Kind.isName, (Kind.ofKeyword?_kind hk).1]

theorem read_of_startsNumber (h : StartsNumber text) : read text = number text := by
  obtain ⟨c, rest, rfl, hc⟩ := h
  exact if_pos hc

/-- Where a name may start, nothing else does. -/
theorem startsName_other {rest : List Char} (h : startsName (c :: rest) = true) :
    Text.isDecimalDigit c = false ∧ c ∉ Text.punctuation := by
  rw [startsName, Bool.or_eq_true] at h
  rcases h with hstart | hescape
  · obtain ⟨hdigit, -, -, hother⟩ := Text.isNameStart_other hstart
    exact ⟨hdigit, hother⟩
  · obtain ⟨e, he⟩ := Option.isSome_iff_exists.mp hescape
    rw [escape?_head he]
    decide

/-- Where a name may start, a name is read. -/
theorem read_of_startsName (h : startsName text = true) : read text = name text := by
  cases text with
  | nil => cases h
  | cons c rest =>
    obtain ⟨hdigit, hother⟩ := startsName_other h
    have hne (d : Char) (hd : d ∈ Text.punctuation) : c ≠ d := fun h => hother (h ▸ hd)
    rw [read, if_neg (by simp [hdigit, hne '.' (by decide)]),
      if_neg (by simp [hne '\x22' (by decide), hne '\'' (by decide)]),
      if_neg (by simp [hne '\x60' (by decide)]), if_neg (by simp [hne '#' (by decide)]),
      punctuator?_eq_none hother]
    exact if_pos h

/-- A name is read only there. -/
theorem read_isName_iff : (read text).kind.isName = true ↔ startsName text = true := by
  refine ⟨fun h => ?_, fun h => read_of_startsName h ▸ name_isName text⟩
  generalize hread : read text = l at h
  cases reads_of_read hread with
  | ended | string | invalid => cases h
  | number =>
    rcases number_kind text with hk | hk <;> rw [hk] at h <;> cases h
  | @template rest =>
    rcases template_kind rest with hk | hk <;> rw [hk] at h <;> cases h
  | privateName hp =>
    rw [privateName?_kind hp] at h
    cases h
  | punctuator hp => cases (punctuator?_proper hp).2.2.symm.trans h
  | name hname => exact hname

end Lexeme

/-! ## Tokens -/

/-- A token has the characters, the kind and the flags of a lexeme. -/
structure Reading.Shows (r : Reading) (l : Lexeme) : Prop where
  rest_eq : r.start.rest = r.spelling ++ r.stop.rest
  spelling_eq : r.spelling = r.start.rest.take l.size
  token_eq : r.token = l.kind
  has_eq : ∀ f, f ≠ TokenFlag.precedingLineBreak → r.flags.has f = l.flags.has f

namespace Scanner
variable {s : Scanner}

theorem scan_shows (hs : s.stop.Sound) : s.scan.Shows (.read s.scan.start.rest) := by
  have hsound := skipTrivia_sound hs
  have hstart : s.scan.start = s.skipTrivia.start := by rw [scan, take_reading]
  rw [hstart, scan, take_reading]
  refine ⟨?_, Cursor.textTo_skip _ hsound, rfl, fun f hf => ?_⟩
  · rw [Reading.spelling]
    dsimp only
    rw [Cursor.textTo_skip _ hsound, Cursor.skip_rest, List.take_append_drop]
  · have hgap : s.skipTrivia.flags.has f = false := by
      rw [skipTrivia_reading, FlagSet.has_when]
      have hbreak : (FlagSet.one TokenFlag.precedingLineBreak).has f = false := by
        cases f <;> first | rfl | exact absurd rfl hf
      rw [hbreak, Bool.and_false]
    dsimp only
    rw [FlagSet.has_union, hgap, Bool.false_or]

/-- The ways to move on that do not scan give tokens of a few kinds only. -/
theorem advance_cases (s : Scanner) (way : Advance) :
    (s.advance way).toReading = s.scan.toReading ∨
      (s.advance way).token = .regularExpressionLiteral ∨
      (s.advance way).token = .stringLiteral ∨
      (way = .child ∧ (s.advance way).token = (childLexeme s.stop.rest).kind) := by
  cases way with
  | plain => exact .inl rfl
  | expression =>
    unfold advance scanAllowingRegularExpression rescanSlash
    dsimp only
    split
    · refine .inr (.inl ?_)
      rw [take_reading]
      rfl
    · exact .inl rfl
  | child =>
    refine .inr (.inr (.inr ⟨rfl, ?_⟩))
    rw [advance, scanChild, take_reading]
  | attributeValue =>
    unfold advance scanAttributeValue
    dsimp only
    split
    case h_3 =>
      exact .inl (by simp [scan, trivia])
    all_goals
      refine .inr (.inr (.inl ?_))
      rw [take_reading]
      rfl

end Scanner
end EcmaSyntax
