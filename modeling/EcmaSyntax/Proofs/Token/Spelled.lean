import EcmaSyntax.Proofs.Source.Slice
import EcmaSyntax.Proofs.Token.Scanner

/-! # What a kind of token tells of its characters

A punctuator has one spelling and a keyword is spelled as it is looked up. A string or a piece of a
template begins with its delimiter and, unless its end is missing, ends with one; delimiters take
one byte for each character. Every way to read a token keeps this, so that a token that is read
anew does not become shorter, and what lies between delimiters is a slice of the source. -/
namespace EcmaSyntax

namespace Kind

/-- The characters of a token lie between its delimiters. -/
def Delimits (kind : Kind) (unterminated : Bool) (spelling : List Char) : Prop :=
  ∃ front inner behind, spelling = front ++ inner ++ behind ∧
    front.length = (Reading.delimiters kind).1 ∧
    behind.length = (if unterminated then 0 else (Reading.delimiters kind).2) ∧
    ∀ c ∈ front ++ behind, c.utf8Size = 1

/-- Whether a token is a template or the first piece of one. -/
def opensTemplate (kind : Kind) : Bool :=
  kind == .noSubstitutionTemplateLiteral || kind == .templateHead

/-- What a kind tells of the characters of its tokens, some of which lack their end. -/
structure Spells (kind : Kind) (unterminated : Bool) (spelling : List Char) : Prop where
  punctuator : ∀ text, kind.punctuatorText = some text → String.ofList spelling = text
  keyword : kind.isAnyKeyword = true → ofKeyword? (String.ofList spelling) = some kind
  delimits : kind.Delimits unterminated spelling
  template : kind.opensTemplate = true → spelling.head? = some '\x60'

/-- A kind that tells nothing of the characters of its tokens. -/
def isPlain (kind : Kind) : Bool :=
  kind.punctuatorText.isNone && !kind.isAnyKeyword && Reading.delimiters kind == (0, 0)

variable {kind : Kind} {unterminated : Bool} {spelling : List Char}

theorem punctuatorText_of_isPlain (h : kind.isPlain = true) : kind.punctuatorText = none := by
  simp only [isPlain, Bool.and_eq_true, Option.isNone_iff_eq_none] at h
  exact h.1.1

/-- Without delimiters all characters lie between them. -/
theorem delimits_of_zero (hzero : Reading.delimiters kind = (0, 0)) :
    kind.Delimits unterminated spelling := by
  refine ⟨[], spelling, [], by simp, ?_, ?_, nofun⟩
  · rw [hzero]
    rfl
  · rw [hzero]
    cases unterminated <;> rfl

/-- One character in front and some behind, which may be missing. -/
theorem delimits_of_quote {quote : Char} {inner closing : List Char}
    (hkind : (Reading.delimiters kind).1 = 1)
    (hclosing : closing.length = if unterminated then 0 else (Reading.delimiters kind).2)
    (hsize : ∀ c ∈ quote :: closing, c.utf8Size = 1) :
    kind.Delimits unterminated (quote :: (inner ++ closing)) :=
  ⟨[quote], inner, closing, rfl, hkind.symm, hclosing, hsize⟩

/-- What is looked up is a keyword, and no other kind of token that tells its characters. -/
theorem ofKeyword?_kind {text : String} (h : ofKeyword? text = some kind) :
    kind.isAnyKeyword = true ∧ kind.punctuatorText = none ∧
      Reading.delimiters kind = (0, 0) := by
  unfold ofKeyword? at h
  split at h <;> cases h <;> exact ⟨rfl, rfl, rfl⟩

/-- A keyword is looked up as it is spelled. -/
theorem ofKeyword?_iff {text : String} : ofKeyword? text = some kind ↔ kind.keywordText = some text := by
  constructor
  · intro h
    unfold ofKeyword? at h
    split at h <;> cases h <;> rfl
  · intro h
    unfold keywordText at h
    split at h <;> cases h <;> rfl

namespace Spells

theorem not_opensTemplate (hzero : Reading.delimiters kind = (0, 0)) :
    ¬ kind.opensTemplate = true := by
  rw [opensTemplate, Bool.or_eq_true, beq_iff_eq, beq_iff_eq]
  rintro (rfl | rfl) <;> cases hzero

theorem of_isPlain (h : kind.isPlain = true) : kind.Spells unterminated spelling := by
  simp only [isPlain, Bool.and_eq_true, Option.isNone_iff_eq_none, Bool.not_eq_true',
    beq_iff_eq] at h
  obtain ⟨⟨hpunctuator, hkeyword⟩, hzero⟩ := h
  refine ⟨fun text h => ?_, fun h => ?_, delimits_of_zero hzero,
    fun h => absurd h (not_opensTemplate hzero)⟩
  · cases hpunctuator.symm.trans h
  · cases hkeyword.symm.trans h

theorem of_punctuator (h : kind.punctuatorText = some (String.ofList spelling)) :
    kind.Spells unterminated spelling := by
  have hzero : Reading.delimiters kind = (0, 0) := by
    unfold Reading.delimiters
    split <;> first | rfl | cases h
  refine ⟨fun text htext => Option.some.inj (h.symm.trans htext), fun hk => ?_,
    delimits_of_zero hzero, fun h => absurd h (not_opensTemplate hzero)⟩
  have hnone : kind.punctuatorText = none := by
    unfold punctuatorText
    split <;> first | rfl | cases hk
  cases hnone.symm.trans h

theorem of_keyword (h : ofKeyword? (String.ofList spelling) = some kind) :
    kind.Spells unterminated spelling := by
  obtain ⟨-, hnone, hzero⟩ := ofKeyword?_kind h
  exact ⟨fun _ htext => (nomatch hnone.symm.trans htext), fun _ => h, delimits_of_zero hzero,
    fun h => absurd h (not_opensTemplate hzero)⟩

/-- A kind of tokens with delimiters. -/
theorem of_delimits (hkind : kind.punctuatorText = none ∧ kind.isAnyKeyword = false)
    (h : kind.Delimits unterminated spelling)
    (ht : kind.opensTemplate = true → spelling.head? = some '\x60') :
    kind.Spells unterminated spelling :=
  ⟨fun _ htext => (nomatch hkind.1.symm.trans htext),
    fun hk => (nomatch hkind.2.symm.trans hk), h, ht⟩

/-- A token whose end is missing has no delimiter behind. -/
theorem or (h : kind.Spells unterminated spelling) (b : Bool) :
    kind.Spells (b || unterminated) spelling := by
  refine ⟨h.punctuator, h.keyword, ?_, h.template⟩
  obtain ⟨front, inner, behind, hspelling, hfront, hbehind, hsize⟩ := h.delimits
  cases b with
  | false => exact ⟨front, inner, behind, hspelling, hfront, hbehind, hsize⟩
  | true =>
    refine ⟨front, inner ++ behind, [], by simpa using hspelling, hfront, rfl, ?_⟩
    rw [List.append_nil]
    exact fun c hc => hsize c (List.mem_append_left behind hc)

end Spells
end Kind

/-- The characters of a lexeme are as its kind tells. -/
def Lexeme.Spelled (l : Lexeme) (text : List Char) : Prop :=
  l.kind.Spells (l.flags.has .unterminated) (text.take l.size)

/-- The characters of a token are as its kind tells. -/
def Reading.Spelled (r : Reading) : Prop := r.token.Spells (r.flags.has .unterminated) r.spelling

namespace Lexeme

/-! ## Strings and templates -/

theorem has_unterminated (b c : Bool) (flags : TokenFlags) (h : flags.has .unterminated = false) :
    (FlagSet.when b flags ∪ .when c TokenFlag.unterminated : TokenFlags).has .unterminated = c := by
  cases b <;> cases c <;> simp [FlagSet.when, h] <;> decide

theorem stringBody_closed (quote : Char) (rest : List Char)
    (h : (stringBody quote rest).2 = true) :
    ∃ inner, rest.take (stringBody quote rest).1 = inner ++ [quote] := by
  fun_induction stringBody quote rest with
  | case1 => cases h
  | case2 rest n closed heq ih =>
    rw [heq] at ih
    obtain ⟨inner, hinner⟩ := ih h
    exact ⟨'\\' :: '\r' :: '\n' :: inner, by simpa using hinner⟩
  | case3 c rest _ n closed heq ih =>
    rw [heq] at ih
    obtain ⟨inner, hinner⟩ := ih h
    exact ⟨'\\' :: c :: inner, by simpa using hinner⟩
  | case4 c rest _ _ hquote => exact ⟨[], by simp [eq_of_beq hquote]⟩
  | case5 => cases h
  | case6 c rest _ _ _ _ n closed heq ih =>
    rw [heq] at ih
    obtain ⟨inner, hinner⟩ := ih h
    exact ⟨c :: inner, by simpa using hinner⟩

/-- The delimiter at which a piece of template text ends. -/
def TemplateEnd.delimiter : TemplateEnd → List Char
  | .closed => ['\x60']
  | .substitution => ['$', '{']
  | .missing => []

theorem TemplateEnd.delimiter_size (e : TemplateEnd) : ∀ c ∈ e.delimiter, c.utf8Size = 1 := by
  cases e with
  | closed => exact List.forall_mem_singleton.mpr rfl
  | substitution => exact List.forall_mem_cons.mpr ⟨rfl, List.forall_mem_singleton.mpr rfl⟩
  | missing => exact List.forall_mem_nil _

theorem templateBody_ended (rest : List Char) :
    ∃ inner, rest.take (templateBody rest).1 = inner ++ (templateBody rest).2.delimiter := by
  fun_induction templateBody rest with
  | case1 => exact ⟨[], rfl⟩
  | case2 rest n e heq ih =>
    rw [heq] at ih
    obtain ⟨inner, hinner⟩ := ih
    exact ⟨'\\' :: '\r' :: '\n' :: inner, by simpa using hinner⟩
  | case3 c rest _ n e heq ih =>
    rw [heq] at ih
    obtain ⟨inner, hinner⟩ := ih
    exact ⟨'\\' :: c :: inner, by simpa using hinner⟩
  | case4 => exact ⟨[], rfl⟩
  | case5 c rest _ _ _ hquote => exact ⟨[], by simp [eq_of_beq hquote, TemplateEnd.delimiter]⟩
  | case6 c rest _ _ _ _ n e heq ih =>
    rw [heq] at ih
    obtain ⟨inner, hinner⟩ := ih
    exact ⟨c :: inner, by simpa using hinner⟩

theorem string_spelled {quote : Char} (hquote : quote.utf8Size = 1) (rest : List Char) :
    (string quote rest).Spelled (quote :: rest) := by
  have hclosed := stringBody_closed quote rest
  refine .of_delimits ⟨rfl, rfl⟩ ?_ nofun
  unfold string
  generalize stringBody quote rest = body at hclosed ⊢
  obtain ⟨n, closed⟩ := body
  dsimp only at hclosed ⊢
  rw [has_unterminated _ _ _ (by decide), List.take_succ_cons]
  cases closed with
  | false =>
    rw [← List.append_nil (rest.take n)]
    exact Kind.delimits_of_quote rfl rfl (by simpa using hquote)
  | true =>
    obtain ⟨inner, hinner⟩ := hclosed rfl
    rw [hinner]
    exact Kind.delimits_of_quote rfl rfl (by simpa using hquote)

/-- Where a quote is missing no character before the end is one. -/
theorem take_closed (quote : Char) (rest : List Char)
    (h : (rest.takeWhile (· != quote)).length < rest.length) :
    rest.take ((rest.takeWhile (· != quote)).length + 1) =
      rest.takeWhile (· != quote) ++ [quote] := by
  induction rest with
  | nil => cases h
  | cons c rest ih =>
    by_cases hc : c = quote
    · simp [hc]
    · simp only [bne_iff_ne, ne_eq, hc, not_false_eq_true, List.takeWhile_cons_of_pos,
        List.length_cons, Nat.add_lt_add_iff_right] at h ⊢
      rw [List.take_succ_cons, ih h, List.cons_append]

theorem plainString_spelled {quote : Char} (hquote : quote.utf8Size = 1) (rest : List Char) :
    (Scanner.plainString quote rest).Spelled (quote :: rest) := by
  have hclosed := take_closed quote rest
  refine .of_delimits ⟨rfl, rfl⟩ ?_ nofun
  unfold Scanner.plainString
  dsimp only
  rw [has_unterminated _ _ _ (by decide)]
  generalize rest.takeWhile (· != quote) = inner at hclosed ⊢
  by_cases h : inner.length < rest.length
  · rw [if_pos h, decide_eq_true h, List.take_succ_cons, hclosed h]
    exact Kind.delimits_of_quote rfl rfl (by simpa using hquote)
  · rw [if_neg h, decide_eq_false h, List.take_succ_cons,
      ← List.append_nil (rest.take _)]
    exact Kind.delimits_of_quote rfl rfl (by simpa using hquote)

/-- A piece of a template begins with a backquote, or with the closing brace before it. -/
theorem template_spelled {quote : Char} (hquote : quote.utf8Size = 1) {first : Bool}
    (hfirst : first = true → quote = '\x60') (rest : List Char) :
    (template first rest).Spelled (quote :: rest) := by
  obtain ⟨inner, hinner⟩ := templateBody_ended rest
  unfold template
  generalize templateBody rest = body at hinner
  obtain ⟨n, ending⟩ := body
  dsimp only at hinner
  have htake : (quote :: rest).take (n + 1) = quote :: (inner ++ ending.delimiter) := by
    rw [List.take_succ_cons, hinner]
  refine .of_delimits ?_ ?_ ?_
  · cases first <;> cases ending <;> exact ⟨rfl, rfl⟩
  · dsimp only
    rw [htake]
    have hsize : ∀ c ∈ quote :: ending.delimiter, c.utf8Size = 1 := by
      rintro c hc
      rcases List.mem_cons.mp hc with rfl | hc
      · exact hquote
      · exact ending.delimiter_size c hc
    refine Kind.delimits_of_quote ?_ ?_ hsize
    · cases first <;> cases ending <;> rfl
    · cases first <;> cases ending <;> rfl
  · dsimp only
    rw [htake]
    cases first with
    | false => cases ending <;> nofun
    | true => exact fun _ => congrArg some (hfirst rfl)

/-! ## Other lexemes -/

theorem numberOf_isPlain {isInteger : Bool} {body rest : List Char} {flags : TokenFlags} :
    (numberOf isInteger body rest flags).kind.isPlain = true := by
  unfold numberOf
  split <;> rfl

theorem number_isPlain (text : List Char) : (number text).kind.isPlain = true := by
  have hdecimal : (decimal text).kind.isPlain = true := by
    unfold decimal
    dsimp only
    split
    · rfl
    · exact numberOf_isPlain
  unfold number
  split
  · split
    · exact numberOf_isPlain
    · exact hdecimal
  · exact hdecimal

theorem privateName?_isPlain {rest : List Char} {l : Lexeme} (h : privateName? rest = some l) :
    l.kind.isPlain = true := by
  unfold privateName? at h
  split at h
  · cases h
  · split at h
    · cases h
      rfl
    · cases h

/-- A punctuator is spelled in its only way. -/
theorem punctuator?_text {text : List Char} {kind : Kind} {size : Nat}
    (h : punctuator? text = some (kind, size)) :
    kind.punctuatorText = some (String.ofList (text.take size)) := by
  unfold punctuator? at h
  split at h <;> (try split at h) <;> cases h <;> rfl

/-- So is what a greater-than sign forms with the characters behind it. -/
theorem greaterThan_text (text : List Char) :
    (greaterThan text).1.punctuatorText =
      some (String.ofList ('>' :: text.take (greaterThan text).2)) := by
  unfold greaterThan
  split <;> rfl

theorem name_spelled (text : List Char) : (name text).Spelled text := by
  unfold Spelled name
  dsimp only
  generalize nameRun Text.isNamePart 0 text = run
  split
  · exact .of_isPlain rfl
  · cases hword : Kind.ofKeyword? (String.ofList (text.take run.size)) with
    | none => exact .of_isPlain rfl
    | some k => exact .of_keyword hword

theorem read_spelled (text : List Char) : (read text).Spelled text := by
  generalize hread : read text = l
  cases reads_of_read hread with
  | ended => exact .of_isPlain rfl
  | number => exact .of_isPlain (number_isPlain _)
  | string hquote =>
    refine string_spelled ?_ _
    rcases hquote with rfl | rfl <;> rfl
  | template => exact template_spelled rfl (fun _ => rfl) _
  | privateName hp => exact .of_isPlain (privateName?_isPlain hp)
  | punctuator hp => exact .of_punctuator (punctuator?_text hp)
  | name => exact name_spelled _
  | invalid => exact .of_isPlain rfl

theorem name_punctuatorText (text : List Char) : (name text).kind.punctuatorText = none := by
  unfold name
  dsimp only
  split
  · rfl
  · generalize String.ofList _ = word
    cases hword : Kind.ofKeyword? word with
    | none => rfl
    | some k => exact (Kind.ofKeyword?_kind hword).2.1

theorem template_punctuatorText (first : Bool) (text : List Char) :
    (template first text).kind.punctuatorText = none := by
  unfold template
  dsimp only
  split <;> cases first <;> rfl

/-- A punctuator has neither flags nor a fault. -/
theorem read_punctuator (text : List Char) :
    (read text).kind.punctuatorText = none ∨
      ∃ kind size, punctuator? text = some (kind, size) ∧ read text = ⟨kind, size, ∅, none⟩ := by
  generalize hread : read text = l
  cases reads_of_read hread with
  | ended | string | invalid => exact .inl rfl
  | number => exact .inl (Kind.punctuatorText_of_isPlain (number_isPlain _))
  | template => exact .inl (template_punctuatorText true _)
  | privateName hp => exact .inl (Kind.punctuatorText_of_isPlain (privateName?_isPlain hp))
  | punctuator hp => exact .inr ⟨_, _, hp, rfl⟩
  | name => exact .inl (name_punctuatorText _)

theorem childLexeme_spelled (text : List Char) : (Scanner.childLexeme text).Spelled text := by
  unfold Scanner.childLexeme
  split
  · exact .of_isPlain rfl
  · exact .of_punctuator rfl
  · exact .of_punctuator rfl
  · exact .of_punctuator rfl
  · exact .of_isPlain rfl

/-- A regular expression takes up a slash, and an equals sign behind it. -/
theorem regularExpression_size (rest : List Char) :
    1 ≤ (regularExpression rest).size ∧ 2 ≤ (regularExpression ('=' :: rest)).size := by
  refine ⟨Nat.le_add_left _ _, ?_⟩
  have hbody : 1 ≤ (regularExpressionBody false ('=' :: rest)).1.size := Nat.le_add_left _ _
  exact Nat.succ_le_succ hbody

end Lexeme

/-! ## Readings -/

namespace Reading.Spelled
variable {r : Reading}

/-- A punctuator stands at the start of its token. -/
theorem rest_eq (h : r.Spelled) (hs : r.start.Sound) (hstop : r.start.Reaches r.stop)
    (text : List Char) (ht : r.token.punctuatorText = some (String.ofList text)) :
    r.start.rest = text ++ r.stop.rest ∧ r.stop = r.start.skip text.length := by
  have hspelling : r.spelling = text := by
    rw [← String.toList_ofList (l := r.spelling), h.punctuator _ ht, String.toList_ofList]
  have hrest := (hstop.passes hs).1
  have hskip := hstop.eq_skip hs
  rw [Reading.spelling] at hspelling
  rw [hspelling] at hrest hskip
  exact ⟨hrest, hskip⟩

/-- Behind a greater-than sign stands what an operator is formed with. -/
theorem greaterThan_spelling (h : r.Spelled) (hs : r.start.Sound) (hstop : r.start.Reaches r.stop)
    (ht : r.token = .greaterThanToken) : r.start.rest = '>' :: r.stop.rest ∧
      ∀ n, r.start.textTo (r.stop.skip n) = '>' :: r.stop.rest.take n := by
  obtain ⟨hrest, hskip⟩ := h.rest_eq hs hstop ['>'] (by rw [ht]; rfl)
  refine ⟨hrest, fun n => ?_⟩
  calc
    r.start.textTo (r.stop.skip n) = r.start.textTo (r.start.skip (1 + n)) := by
      rw [Cursor.skip_add, hskip, List.length_singleton]
    _ = r.start.rest.take (1 + n) := Cursor.textTo_skip _ hs
    _ = '>' :: r.stop.rest.take n := by rw [hrest, Nat.add_comm]; rfl

end Reading.Spelled

namespace Scanner
variable {s : Scanner}

theorem take_spelled {l : Lexeme} (hs : s.start.Sound) (hl : l.Spelled s.start.rest) :
    (s.take l).Spelled := by
  have hspelling : (s.take l).spelling = s.start.rest.take l.size := by
    rw [take_reading]
    exact Cursor.textTo_skip l.size hs
  unfold Reading.Spelled
  rw [hspelling, take_reading, FlagSet.has_union]
  exact hl.or _

theorem skipTrivia_sound (hs : s.stop.Sound) : s.skipTrivia.start.Sound := by
  rw [skipTrivia_reading]
  exact Cursor.skip_sound _ hs

theorem scan_spelled (hs : s.stop.Sound) : s.scan.Spelled :=
  take_spelled (skipTrivia_sound hs) (Lexeme.read_spelled _)

theorem rescanSlash_spelled (hs : s.start.Sound) (h : s.Spelled) : s.rescanSlash.Spelled := by
  unfold rescanSlash
  split
  · exact take_spelled hs (.of_isPlain rfl)
  · exact h

/-- Every way to move on reads a token that is spelled as its kind tells. -/
theorem advance_spelled (way : Advance) (hs : s.stop.Sound) : (s.advance way).Spelled := by
  cases way with
  | plain => exact scan_spelled hs
  | expression => exact rescanSlash_spelled (scan_movedOn hs).ready.start_sound (scan_spelled hs)
  | child =>
    let t : Scanner := { s with full := s.stop, start := s.stop, flags := ∅ }
    exact take_spelled (s := t) hs (Lexeme.childLexeme_spelled _)
  | attributeValue =>
    have hsound := skipTrivia_sound hs
    unfold advance scanAttributeValue
    dsimp only
    split
    case h_1 hrest => exact take_spelled hsound (hrest ▸ Lexeme.plainString_spelled rfl _)
    case h_2 hrest => exact take_spelled hsound (hrest ▸ Lexeme.plainString_spelled rfl _)
    case h_3 => exact scan_spelled (s := { s with pending := _ }) hs

theorem rescanSlash_reaches (hs : s.start.Sound) (hstop : s.start.Reaches s.stop)
    (h : s.Spelled) : s.stop.Reaches s.rescanSlash.stop := by
  unfold rescanSlash
  split
  case isFalse => exact .refl _
  case isTrue hslash =>
    rw [take_reading]
    obtain ⟨hone, htwo⟩ := Lexeme.regularExpression_size s.start.next.rest
    rw [atSlash, Bool.or_eq_true, beq_iff_eq, beq_iff_eq] at hslash
    rcases hslash with ht | ht
    · obtain ⟨-, hskip⟩ := h.rest_eq hs hstop ['/'] (by rw [ht]; rfl)
      rw [hskip]
      exact .of_le hone _
    · obtain ⟨hrest, hskip⟩ := h.rest_eq hs hstop ['/', '='] (by rw [ht]; rfl)
      have hnext : s.start.next.rest = '=' :: s.stop.rest := by rw [Cursor.next, hrest]; rfl
      rw [hskip, hnext]
      exact .of_le (Lexeme.regularExpression_size _).2 _

/-- A token that is spelled as its kind tells is read anew as such a token, and as none that is
shorter. -/
theorem reread_spelled (way : Rereading) (hs : s.start.Sound) (hstop : s.start.Reaches s.stop)
    (h : s.Spelled) : (s.reread way).Spelled ∧ s.stop.Reaches (s.reread way).stop := by
  cases way with
  | slash => exact ⟨rescanSlash_spelled hs h, rescanSlash_reaches hs hstop h⟩
  | greaterThan =>
    unfold reread rescanGreaterThan
    dsimp only
    split
    case isFalse => exact ⟨h, .refl _⟩
    case isTrue ht =>
      have hspelling := (h.greaterThan_spelling hs hstop (eq_of_beq ht)).2
      refine ⟨.of_punctuator ?_, .skip _ _⟩
      rw [Lexeme.greaterThan_text, Reading.spelling, hspelling]
  | template =>
    unfold reread rescanTemplate
    dsimp only
    split
    case isFalse => exact ⟨h, .refl _⟩
    case isTrue ht =>
      obtain ⟨hrest, hskip⟩ :=
        h.rest_eq hs hstop ['\x7d'] (by rw [eq_of_beq ht]; rfl)
      have hnext : s.start.next.rest = s.stop.rest := by rw [Cursor.next, hrest]; rfl
      refine ⟨take_spelled hs ?_, ?_⟩
      · rw [hnext, hrest]
        exact Lexeme.template_spelled rfl (fun h => Bool.noConfusion h) _
      · rw [take_reading, hskip]
        exact .of_le (Nat.le_add_left _ _) _
  | hyphenatedName =>
    unfold reread rescanHyphenatedName
    dsimp only
    split
    · exact ⟨.of_isPlain rfl, .skip _ _⟩
    · exact ⟨h, .refl _⟩

end Scanner
end EcmaSyntax
