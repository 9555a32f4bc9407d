import EcmaSyntax.Proofs.Parse.Ready

/-! # What stands before a token

A token follows the trivia behind the one before it, and its flag tells whether they hold a line
break. Only among the children of an element there are no trivia, but the tokens that are read there
are of few kinds. Every way to read a token keeps this, since no flag that a token has of itself
tells of line breaks before it. -/
namespace EcmaSyntax

/-! ## Line breaks in trivia -/

/-- Trivia without a line break hold no line terminator. -/
theorem Trivia.not_isLineTerminator {place : Place} {text : List Char}
    (h : (extent place text).lineBreak = false) :
    ∀ c ∈ text.take (extent place text).size, Text.isLineTerminator c = false := by
  have hslash : Text.isLineTerminator '/' = false := by decide
  have hasterisk : Text.isLineTerminator '*' = false := by decide
  fun_induction extent place text <;> simp_all [Extent.after, Extent.broken]

/-- The trivia behind a place. -/
def Cursor.gap (c : Cursor) : Trivia.Extent :=
  Trivia.extent (.betweenTokens c.atLineStart) c.rest

/-! ## Flags of lexemes -/

/-- Flags of a token that do not tell of line breaks before it. -/
def TokenFlags.IsOwn (flags : TokenFlags) : Prop := flags.has .precedingLineBreak = false

namespace TokenFlags.IsOwn
variable {s t : TokenFlags}

theorem empty : IsOwn ∅ := FlagSet.has_empty _

theorem union (hs : s.IsOwn) (ht : t.IsOwn) : IsOwn (s ∪ t) := by
  simp_all [IsOwn]

theorem when (c : Bool) (hs : s.IsOwn) : IsOwn (.when c s) := by
  simp_all [IsOwn, FlagSet.has_when]

theorem one {flag : TokenFlag} (h : flag ≠ .precedingLineBreak) : IsOwn (FlagSet.one flag) := by
  cases flag <;> first | rfl | exact absurd rfl h

end TokenFlags.IsOwn

namespace Lexeme
open TokenFlags

theorem escape?_isOwn {text : List Char} {e : Run} (h : escape? text = some e) :
    IsOwn e.flags := by
  unfold escape? at h
  split at h
  case h_1 =>
    dsimp only at h
    split at h <;> cases h
    exact .union (.union .empty (.one nofun)) (.one nofun)
  case h_2 =>
    split at h <;> cases h
    exact .one nofun
  case h_3 => cases h

theorem nameRun_isOwn (isPart : Char → Bool) (n : Nat) (text : List Char) :
    IsOwn (nameRun isPart n text).flags := by
  fun_induction nameRun isPart n text with
  | case1 | case4 => exact .empty
  | case2 _ _ _ ih | case3 _ _ _ ih => exact .union ih .empty
  | case5 _ _ _ e he ih => exact .union ih (escape?_isOwn he)

theorem regularExpressionBody_isOwn (inClass : Bool) (rest : List Char) :
    IsOwn (regularExpressionBody inClass rest).1.flags := by
  fun_induction regularExpressionBody inClass rest with
  | case1 | case2 | case4 => exact .empty
  | case3 _ _ _ _ _ _ heq ih =>
    rw [heq] at ih
    exact .union ih .empty
  | case5 => exact .union (nameRun_isOwn _ _ _) .empty
  | case6 _ _ _ _ _ _ _ _ heq ih =>
    rw [heq] at ih
    exact .union ih .empty

theorem number_isOwn (text : List Char) : IsOwn (number text).flags := by
  have hnumber {isInteger : Bool} {body rest : List Char} {flags : TokenFlags}
      (h : flags.IsOwn) : IsOwn (numberOf isInteger body rest flags).flags := by
    have hseparator : IsOwn (FlagSet.one TokenFlag.containsSeparator) := .one nofun
    have hflags := h.union (.when (body.contains '_') hseparator)
    unfold numberOf
    dsimp only
    split <;> exact hflags
  have hdecimal : IsOwn (decimal text).flags := by
    unfold decimal
    dsimp only
    split
    · exact .one nofun
    · exact hnumber (.when _ (.one nofun))
  unfold number
  split
  case h_1 =>
    split
    case h_1 flag _ hradix =>
      refine hnumber (.one ?_)
      unfold radix? at hradix
      split at hradix <;> cases hradix <;> nofun
    case h_2 => exact hdecimal
  case h_2 => exact hdecimal

theorem string_isOwn (quote : Char) (rest : List Char) : IsOwn (string quote rest).flags :=
  .union (.when _ (.one nofun)) (.when _ (.one nofun))

theorem template_isOwn (first : Bool) (rest : List Char) : IsOwn (template first rest).flags :=
  .when _ (.one nofun)

theorem plainString_isOwn (quote : Char) (rest : List Char) :
    IsOwn (Scanner.plainString quote rest).flags :=
  .union (.when _ (.one nofun)) (.when _ (.one nofun))

theorem regularExpression_isOwn (rest : List Char) : IsOwn (regularExpression rest).flags :=
  .union (regularExpressionBody_isOwn _ _) (.when _ (.one nofun))

theorem privateName?_isOwn {rest : List Char} {l : Lexeme} (h : privateName? rest = some l) :
    IsOwn l.flags := by
  unfold privateName? at h
  split at h
  · cases h
  · split at h <;> cases h
    exact nameRun_isOwn _ _ _

theorem read_isOwn (text : List Char) : IsOwn (read text).flags := by
  generalize hread : read text = l
  cases reads_of_read hread with
  | ended | punctuator | invalid => exact .empty
  | number => exact number_isOwn _
  | string => exact string_isOwn _ _
  | template => exact template_isOwn _ _
  | privateName hp => exact privateName?_isOwn hp
  | name => exact nameRun_isOwn _ _ _

theorem childLexeme_isOwn (text : List Char) : IsOwn (Scanner.childLexeme text).flags := by
  unfold Scanner.childLexeme
  split <;> first | exact .empty | exact .when _ (.one nofun)

end Lexeme

/-! ## Readings -/

/-- The kinds of tokens that are read among the children of an element. -/
def Kind.isChildToken : Kind → Bool
  | .jsxText | .openBraceToken | .lessThanToken | .lessThanSlashToken | .endOfFileToken => true
  | _ => false

theorem Kind.isChildToken_of_isName {k : Kind} (h : k.isName = true) :
    k.isChildToken = false := by
  unfold isChildToken
  split <;> first | rfl | exact absurd h (by decide)

/-- A token follows the trivia behind the one before it, and its flag tells of them. -/
structure Reading.FollowsGap (r : Reading) : Prop where
  start_eq : r.start = r.full.skip r.full.gap.size
  flag_eq : r.hasPrecedingLineBreak = r.full.gap.lineBreak

/-- A token follows the trivia behind the one before it, or it is read among children. -/
def Reading.Spaced (r : Reading) : Prop :=
  r.FollowsGap ∨
    (r.start = r.full ∧ r.hasPrecedingLineBreak = false ∧ r.token.isChildToken = true)

namespace Scanner
variable {s : Scanner}

/-- A lexeme changes nothing of what stands before it. -/
theorem take_hasPrecedingLineBreak (s : Scanner) {l : Lexeme} (hl : l.flags.IsOwn) :
    (s.take l).hasPrecedingLineBreak = s.hasPrecedingLineBreak := by
  rw [take_reading, Reading.hasPrecedingLineBreak, FlagSet.has_union, hl, Bool.or_false]
  rfl

theorem skipTrivia_followsGap (s : Scanner) {l : Lexeme} (hl : l.flags.IsOwn) :
    (s.skipTrivia.take l).FollowsGap := by
  refine ⟨by simp [Cursor.gap, trivia], ?_⟩
  have hflag : (FlagSet.one TokenFlag.precedingLineBreak).has .precedingLineBreak = true := rfl
  rw [take_hasPrecedingLineBreak _ hl, Reading.hasPrecedingLineBreak, take_reading,
    skipTrivia_reading, FlagSet.has_when, hflag, Bool.and_true]
  rfl

theorem scan_followsGap (s : Scanner) : s.scan.FollowsGap :=
  s.skipTrivia_followsGap (Lexeme.read_isOwn _)

theorem scan_spaced (s : Scanner) : s.scan.Spaced := .inl s.scan_followsGap

theorem scanChild_spaced (s : Scanner) : s.scanChild.Spaced := by
  refine .inr ⟨by simp [scanChild], ?_, ?_⟩
  · rw [scanChild, take_hasPrecedingLineBreak _ (Lexeme.childLexeme_isOwn _)]
    exact FlagSet.has_empty _
  · rw [scanChild, take_reading]
    unfold childLexeme
    split <;> rfl

end Scanner

/-- A token that is not read among children may be read anew. -/
theorem Reading.Spaced.anew {r r' : Reading} (h : r.Spaced) (hk : r.token.isChildToken = false)
    (hfull : r'.full = r.full) (hstart : r'.start = r.start)
    (hflag : r'.hasPrecedingLineBreak = r.hasPrecedingLineBreak) : r'.Spaced := by
  rcases h with ⟨hs, hf⟩ | ⟨-, -, hchild⟩
  · exact .inl ⟨by rw [hfull, hstart, hs], by rw [hfull, hflag, hf]⟩
  · cases hk.symm.trans hchild

namespace Scanner
variable {s : Scanner}

theorem rescanSlash_spaced (h : s.Spaced) : s.rescanSlash.Spaced := by
  unfold rescanSlash
  split
  case isTrue hslash =>
    refine h.anew ?_ (by simp) (by simp)
      (take_hasPrecedingLineBreak s (Lexeme.regularExpression_isOwn _))
    rw [atSlash, Bool.or_eq_true, beq_iff_eq, beq_iff_eq] at hslash
    rcases hslash with ht | ht <;> rw [ht] <;> rfl
  · exact h

theorem scanAttributeValue_spaced (s : Scanner) : s.scanAttributeValue.Spaced := by
  unfold scanAttributeValue
  dsimp only
  split
  case h_3 => exact scan_spaced _
  all_goals exact .inl (s.skipTrivia_followsGap (Lexeme.plainString_isOwn _ _))

theorem advance_spaced (s : Scanner) (way : Advance) : (s.advance way).Spaced := by
  cases way with
  | plain => exact s.scan_spaced
  | expression => exact rescanSlash_spaced s.scan_spaced
  | child => exact s.scanChild_spaced
  | attributeValue => exact s.scanAttributeValue_spaced

theorem rescanHyphenatedName_spaced (h : s.Spaced) : s.rescanHyphenatedName.Spaced := by
  unfold rescanHyphenatedName
  split
  case isTrue hname =>
    have hname : s.token.isName = true := (Bool.and_eq_true_iff.mp hname).1
    have hk : s.token.isChildToken = false := Kind.isChildToken_of_isName hname
    have hrun := Lexeme.nameRun_isOwn (fun c => c == '-' || Text.isNamePart c) 0 s.stop.rest
    refine h.anew hk rfl rfl ?_
    dsimp only
    rw [Reading.hasPrecedingLineBreak, FlagSet.has_union, hrun, Bool.or_false]
    rfl
  · exact h

theorem reread_spaced (way : Rereading) (h : s.Spaced) : (s.reread way).Spaced := by
  cases way with
  | slash => exact rescanSlash_spaced h
  | greaterThan =>
    unfold reread rescanGreaterThan
    dsimp only
    split
    case isTrue ht => exact h.anew (eq_of_beq ht ▸ rfl) rfl rfl rfl
    · exact h
  | template =>
    unfold reread rescanTemplate
    dsimp only
    split
    case isTrue ht =>
      exact h.anew (eq_of_beq ht ▸ rfl) (by simp) (by simp)
        (take_hasPrecedingLineBreak s (Lexeme.template_isOwn _ _))
    · exact h
  | hyphenatedName => exact rescanHyphenatedName_spaced h

end Scanner

/-! ## Steps of a parse -/

theorem Step.spaced {s t : ParseState} (h : Step s t) (hs : s.reading.Spaced) :
    t.reading.Spaced := by
  cases h with
  | flush => exact hs
  | consume way => exact s.flush.scanner.advance_spaced way
  | reread way => exact Scanner.reread_spaced way hs
  | push d =>
    unfold ParseState.push
    split <;> exact hs
  | reportLimit =>
    unfold ParseState.reportLimit
    split <;> exact hs

theorem Moves.spaced {s t : ParseState} (h : Moves s t) (hs : s.reading.Spaced) :
    t.reading.Spaced :=
  h.preserves (fun step hs => step.spaced hs) hs

end EcmaSyntax
