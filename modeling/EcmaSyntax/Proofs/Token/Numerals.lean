import EcmaSyntax.Proofs.Token.NumberParts

/-! # Numerals

A number is taken up to its end, and its kind and its flags tell how it is written. Older octal
numbers take their digits alone, also where a longer numeral stands. -/
namespace EcmaSyntax

/-- The characters at the front of a text are those of the number there, and the kind and the flags
are those that these call for. -/
structure Numbered (token : Kind) (has : TokenFlag → Bool) (front text : List Char) : Prop where
  longest : ∃ run, LongestFront (Digits Text.isDecimalDigit) run text ∧
    (OldOctal run ∧ front = run ∨ ¬ OldOctal run ∧ LongestFront Numeral front text)
  token_eq : token = if front.getLast? = some 'n' then .bigIntLiteral else .numericLiteral
  has_iff : ∀ f, f ≠ TokenFlag.precedingLineBreak → (has f = true ↔ CallsFor front f)

namespace Lexeme
variable {text rest : List Char} {c : Char}

/-! ## The whole -/

/-- An integer has the mark that stands behind its body. -/
theorem numberOf_mark (isInteger : Bool) (body rest : List Char) (flags : TokenFlags) :
    ∃ mark, mark <+: rest ∧ IntegerMark isInteger mark ∧
      (mark = [] → isInteger = true → ¬ ['n'] <+: rest) ∧
      numberOf isInteger body rest flags =
        ⟨if mark = [] then .numericLiteral else .bigIntLiteral, (body ++ mark).length,
          flags ∪ .when (body.contains '_') TokenFlag.containsSeparator, none⟩ := by
  unfold numberOf
  dsimp only
  split
  case isTrue h =>
    simp only [Bool.and_eq_true, beq_iff_eq, List.head?_eq_some_iff] at h
    obtain ⟨hint, behind, rfl⟩ := h
    exact ⟨['n'], ⟨behind, rfl⟩, .inr ⟨hint, rfl⟩, nofun, by simp⟩
  case isFalse h =>
    refine ⟨[], List.nil_prefix, .inl rfl, fun _ hint ⟨behind, hrest⟩ => h ?_, by simp⟩
    simp [hint, ← hrest]

/-- A number is exact if its body is, with a mark behind it or none. -/
theorem numberOf_numbered {isInteger : Bool} {body run : List Char} {flags : TokenFlags}
    (hrun : LongestFront (Digits Text.isDecimalDigit) run (body ++ rest)) (hold : ¬ OldOctal run)
    (hn : 'n' ∉ body)
    (hnumeral : ∀ mark, IntegerMark isInteger mark → Numeral (body ++ mark))
    (hlongest : ∀ other, Numeral other → other <+: body ++ rest →
      other.length ≤ body.length ∨ isInteger = true ∧ other = body ++ ['n'])
    (hseparator : flags.has .containsSeparator = false)
    (hflags : ∀ mark, IntegerMark isInteger mark → ∀ f, f ≠ .containsSeparator →
      (flags.has f = true ↔ CallsFor (body ++ mark) f)) :
    let l := numberOf isInteger body rest flags
    Numbered l.kind l.flags.has ((body ++ rest).take l.size) (body ++ rest) := by
  obtain ⟨mark, ⟨behind, rfl⟩, hmark, hnone, heq⟩ := numberOf_mark isInteger body rest flags
  rw [heq]
  dsimp only
  rw [← List.append_assoc, List.take_left]
  refine ⟨⟨run, by rwa [List.append_assoc], .inr ⟨hold, hnumeral mark hmark,
    List.prefix_append _ _, fun other hother hfront => ?_⟩⟩, ?_, fun f _ => ?_⟩
  · rw [List.append_assoc] at hfront
    rw [List.length_append]
    rcases hlongest other hother hfront with hle | ⟨hint, rfl⟩
    · exact Nat.le_add_right_of_le hle
    · rcases hmark with rfl | ⟨-, rfl⟩
      · exact absurd ((List.prefix_append_right_inj _).mp hfront) (hnone rfl hint)
      · exact Nat.le_of_eq List.length_append
  · rcases hmark with rfl | ⟨-, rfl⟩
    · rw [List.append_nil, if_pos rfl, if_neg fun h => hn (List.mem_of_getLast? h)]
    · rw [List.getLast?_concat, if_pos rfl, if_neg (List.cons_ne_nil _ _)]
  · rw [FlagSet.has_union, FlagSet.has_when, Bool.or_eq_true, Bool.and_eq_true]
    by_cases hf : f = .containsSeparator
    · subst hf
      have hone : (FlagSet.one TokenFlag.containsSeparator).has .containsSeparator = true := by
        decide
      have hmem : '_' ∉ mark := by
        rcases hmark with rfl | ⟨-, rfl⟩ <;> decide
      simp [hseparator, hone, CallsFor, hmem]
    · have hone : (FlagSet.one TokenFlag.containsSeparator).has f = false := by
        cases f <;> first | rfl | contradiction
      simpa [hone] using hflags mark hmark f hf

/-- No numeral where a base is marked is longer than the integer in this base, with its mark. -/
theorem based_longest {b : Base} {letter : Char} (hletter : letter ∈ b.letters)
    {other : List Char} (hother : Numeral other) (hfront : other <+: '0' :: letter :: rest) :
    other.length ≤ ('0' :: letter :: digitRun b.isDigit rest).length ∨
      other = '0' :: letter :: digitRun b.isDigit rest ++ ['n'] := by
  rcases hother.of_letter hletter hfront with hle | ⟨digits, mark, h, hmark, rfl⟩
  · exact .inl (Nat.le_trans hle (Nat.succ_pos _))
  replace hfront := (List.cons_prefix_cons.mp (List.cons_prefix_cons.mp hfront).2).2
  rcases hmark with rfl | ⟨-, rfl⟩
  · rw [List.append_nil] at hfront ⊢
    have hle := digitRun_longest.length_le _ h hfront
    exact .inl (Nat.succ_le_succ (Nat.succ_le_succ hle))
  · obtain ⟨tail, rfl⟩ := hfront
    have hexact : digitRun b.isDigit (digits ++ 'n' :: tail) = digits :=
      digitRun_exact h fun hc => hc.elim (by decide) (by simp [Base.not_digit_n])
    rw [List.append_assoc, List.singleton_append, hexact]
    exact .inr rfl

theorem based_numbered {b : Base} {letter : Char} (hletter : letter ∈ b.letters) :
    let digits := digitRun b.isDigit rest
    let l := numberOf true ('0' :: letter :: digits) (rest.drop digits.length) b.flag
    Numbered l.kind l.flags.has (('0' :: letter :: rest).take l.size) ('0' :: letter :: rest) := by
  intro digits
  obtain ⟨hpart, hn⟩ := Base.letters_not_part hletter
  have hdigits : Digits b.isDigit digits := digitRun_digits _ _
  have htext : '0' :: letter :: digits ++ rest.drop digits.length = '0' :: letter :: rest :=
    congrArg ('0' :: letter :: ·) (List.prefix_iff_eq_append.mp (digitRun_stands _ _))
  have hzero : Digits Text.isDecimalDigit ['0'] := by simp [Digits, Text.isDecimalDigit]
  have hrun : digitRun Text.isDecimalDigit ('0' :: letter :: rest) = ['0'] :=
    digitRun_exact hzero fun h =>
      Bool.false_ne_true (hpart ▸ Text.isDecimalPart_of_digit h)
  have hbody : 'n' ∉ '0' :: letter :: digits := by
    intro hmem
    rcases List.mem_cons.mp hmem with h | hmem
    · exact absurd h (by decide)
    rcases List.mem_cons.mp hmem with h | hmem
    · exact hn h.symm
    · rcases hdigits _ hmem with h | h
      · exact absurd h (by decide)
      · exact Bool.false_ne_true (b.not_digit_n ▸ h)
  rw [← htext]
  refine numberOf_numbered (htext ▸ hrun ▸ digitRun_longest) ?_ hbody
    (fun mark hmark => .based hletter hdigits hmark)
    (fun other hother hfront => ?_) ?_ fun mark _ f hseparator => ?_
  · rw [← isOldOctal_iff]
    decide
  · rw [htext] at hfront
    exact (based_longest hletter hother hfront).imp_right fun h => ⟨rfl, h⟩
  · cases b <;> decide
  · rw [Base.has_flag]
    exact (Base.callsFor_iff_flag hletter hseparator).symm

/-- The number at the front of a text has the base that is marked there, or is decimal. -/
theorem number_cases (text : List Char) :
    (∃ (b : Base) (letter : Char) (rest : List Char), text = '0' :: letter :: rest ∧
      letter ∈ b.letters ∧ number text =
        let digits := digitRun b.isDigit rest
        numberOf true ('0' :: letter :: digits) (rest.drop digits.length) b.flag) ∨
      (∀ b : Base, ¬ b.Marks text) ∧ number text = decimal text := by
  unfold number
  split
  case h_1 letter rest =>
    cases h : radix? letter with
    | some p =>
      obtain ⟨b, hb⟩ := Base.exists_letter h
      obtain rfl := Option.some.inj (h.symm.trans (Base.radix?_of_letter hb))
      exact .inl ⟨b, letter, rest, rfl, hb, rfl⟩
    | none =>
      refine .inr ⟨fun b ⟨other, hother, hfront⟩ => ?_, rfl⟩
      obtain rfl := (List.cons_prefix_cons.mp (List.cons_prefix_cons.mp hfront).2).1
      cases h.symm.trans (Base.radix?_of_letter hother)
  case h_2 hnot =>
    exact .inr ⟨fun b ⟨letter, _, rest, htext⟩ => hnot letter rest htext.symm, rfl⟩

theorem oldOctal_numbered (h : OldOctal (digitRun Text.isDecimalDigit text)) :
    Numbered (decimal text).kind (decimal text).flags.has (text.take (decimal text).size) text := by
  have hdecimal : decimal text = ⟨.numericLiteral, (digitRun Text.isDecimalDigit text).length,
      TokenFlag.octal, none⟩ := if_pos (isOldOctal_iff.mpr h)
  have hfront := List.prefix_iff_eq_take.mp (digitRun_stands Text.isDecimalDigit text)
  rw [hdecimal, ← hfront]
  refine ⟨⟨_, digitRun_longest, .inl ⟨h, rfl⟩⟩, (if_neg fun hn => ?_).symm, fun f _ => ?_⟩
  · exact absurd (h.octal (List.mem_of_getLast? hn)) (by decide)
  · have hseparator : '_' ∉ digitRun Text.isDecimalDigit text := fun hc =>
      absurd (h.octal hc) (by decide)
    have hmarks (b : Base) : ¬ b.Marks (digitRun Text.isDecimalDigit text) :=
      b.not_marks_of_parts fun c hc => .inl (Text.isDecimalPart_of_digit (h.digits c hc))
    have hoctal : (TokenFlag.octal : TokenFlags).has f = true ↔ f = .octal := by
      cases f <;> decide
    simp only [hoctal, callsFor_iff, h.not_scientific, hseparator, hmarks, h, and_false,
      and_true, exists_false, or_false, false_or]

theorem decimal_eq (hold : ¬ OldOctal (digitRun Text.isDecimalDigit text)) :
    decimal text = numberOf (isWhole text) (mantissaRun text ++ scaleRun text)
      (text.drop (mantissaRun text ++ scaleRun text).length)
      (.when (!(scaleRun text).isEmpty) TokenFlag.scientific) :=
  if_neg fun h => hold (isOldOctal_iff.mp h)

theorem decimal_stands (text : List Char) : mantissaRun text ++ scaleRun text <+: text := by
  obtain ⟨rest, hrest⟩ := exponentRun_stands (text.drop (mantissaRun text).length)
  refine ⟨rest, ?_⟩
  rw [List.append_assoc, scaleRun, hrest]
  exact List.prefix_iff_eq_append.mp (mantissaRun_stands _)

theorem decimal_parts (hstarts : StartsNumber text)
    (hc : c ∈ mantissaRun text ++ scaleRun text) : Text.isDecimalPart c = true := by
  rcases List.mem_append.mp hc with hc | hc
  · exact (mantissaRun_mantissa hstarts).parts hc
  · rcases exponentRun_cases (text.drop (mantissaRun text).length) with hnil | hexponent
    · rw [scaleRun, hnil] at hc
      cases hc
    · exact hexponent.parts hc

/-- What stands at the front of a text is a numeral, with a mark behind it if it is an integer. -/
theorem decimal_numeral (hstarts : StartsNumber text) {mark : List Char}
    (hmark : IntegerMark (isWhole text) mark) :
    Numeral (mantissaRun text ++ scaleRun text ++ mark) := by
  have hmantissa := mantissaRun_mantissa hstarts
  rcases hmark with rfl | ⟨hwhole, rfl⟩
  · rw [List.append_nil]
    rcases exponentRun_cases (text.drop (mantissaRun text).length) with hnil | hexponent
    · rw [scaleRun, hnil, List.append_nil]
      exact .decimal hmantissa
    · exact .scientific ⟨hmantissa, hexponent⟩
  · obtain ⟨hmantissa', hscale⟩ := isWhole_iff.mp hwhole
    rw [hscale, List.append_nil, hmantissa']
    exact .integer (hmantissa' ▸ mantissa_ne_nil hstarts) (digitRun_digits _ _)

/-- No other numeral is longer, unless it is the integer with its mark. -/
theorem decimal_longest (hmarks : ∀ b : Base, ¬ b.Marks text) {other : List Char}
    (hother : Numeral other) (hfront : other <+: text) :
    other.length ≤ (mantissaRun text ++ scaleRun text).length ∨
      isWhole text = true ∧ other = mantissaRun text ++ scaleRun text ++ ['n'] := by
  rw [List.length_append]
  cases hother with
  | based hletter _ _ =>
    exact absurd ⟨_, hletter, List.IsPrefix.trans ⟨_, rfl⟩ hfront⟩ (hmarks _)
  | decimal h => exact .inl (Nat.le_add_right_of_le (mantissaRun_longest h hfront))
  | scientific h =>
    obtain ⟨hm, he⟩ := h
    obtain ⟨hmantissa, hscale⟩ := scientific_run hm he hfront
    rw [List.length_append, hmantissa]
    exact .inl (Nat.add_le_add_left hscale _)
  | @integer digits hne h =>
    obtain ⟨rest, rfl⟩ := hfront
    right
    rw [List.append_assoc, List.singleton_append, isWhole_iff]
    have hmantissa : mantissaRun (digits ++ 'n' :: rest) = digits :=
      mantissaRun_exact (.whole hne h) (by decide) (by decide)
    have hscale : scaleRun (digits ++ 'n' :: rest) = [] := by
      rw [scaleRun, hmantissa, List.drop_left]
      exact exponentRun_eq_nil (by decide)
    rw [hmantissa, hscale, digitRun_exact h (by decide), List.append_nil]
    exact ⟨⟨rfl, rfl⟩, rfl⟩

theorem decimal_scientific_iff (hstarts : StartsNumber text) {mark : List Char}
    (hmark : IntegerMark (isWhole text) mark) :
    Scientific (mantissaRun text ++ scaleRun text ++ mark) ↔ scaleRun text ≠ [] := by
  constructor
  · intro h
    rcases hmark with rfl | ⟨-, rfl⟩
    · rw [List.append_nil] at h
      generalize hbody : mantissaRun text ++ scaleRun text = body at h
      obtain ⟨hm, he⟩ := h
      have hle := (scientific_run hm he (hbody ▸ decimal_stands _)).2
      obtain ⟨e, tail, rfl, -⟩ := he.head
      intro hnil
      rw [hnil] at hle
      exact Nat.not_succ_le_zero _ hle
    · exact absurd (h.parts (List.mem_append_right _ (List.mem_singleton_self 'n'))) (by decide)
  · intro hne
    rcases hmark with rfl | ⟨hwhole, rfl⟩
    · rw [List.append_nil]
      exact ⟨mantissaRun_mantissa hstarts, (exponentRun_cases _).resolve_left hne⟩
    · exact absurd (isWhole_iff.mp hwhole).2 hne

theorem decimal_not_oldOctal (hold : ¬ OldOctal (digitRun Text.isDecimalDigit text))
    {mark : List Char} (hmark : IntegerMark (isWhole text) mark) :
    ¬ OldOctal (mantissaRun text ++ scaleRun text ++ mark) := by
  intro h
  rcases hmark with rfl | ⟨-, rfl⟩
  · rw [List.append_nil] at h
    have hrun : digitRun Text.isDecimalDigit text <+: mantissaRun text ++ scaleRun text :=
      (List.prefix_append _ _).trans (List.prefix_append _ _)
    have hle := digitRun_longest.length_le _ h.digits (decimal_stands _)
    exact hold (hrun.eq_of_length_le hle ▸ h)
  · exact absurd (h.octal (List.mem_append_right _ (List.mem_singleton_self 'n'))) (by decide)

theorem decimal_not_marked (hstarts : StartsNumber text) {mark : List Char}
    (hmark : IntegerMark (isWhole text) mark) (b : Base) :
    ¬ b.Marks (mantissaRun text ++ scaleRun text ++ mark) := by
  refine b.not_marks_of_parts fun c hc => ?_
  rcases List.mem_append.mp hc with hc | hc
  · exact .inl (decimal_parts hstarts hc)
  · rcases hmark with rfl | ⟨-, rfl⟩
    · cases hc
    · exact .inr (List.mem_singleton.mp hc)

theorem decimal_numbered (hstarts : StartsNumber text)
    (hold : ¬ OldOctal (digitRun Text.isDecimalDigit text)) (hmarks : ∀ b : Base, ¬ b.Marks text) :
    Numbered (decimal text).kind (decimal text).flags.has (text.take (decimal text).size) text := by
  have htext : mantissaRun text ++ scaleRun text ++
      text.drop (mantissaRun text ++ scaleRun text).length = text :=
    List.prefix_iff_eq_append.mp (decimal_stands _)
  have hrun : LongestFront (Digits Text.isDecimalDigit) (digitRun Text.isDecimalDigit text)
      (mantissaRun text ++ scaleRun text ++
        text.drop (mantissaRun text ++ scaleRun text).length) := by
    rw [htext]
    exact digitRun_longest
  have hflags (mark : List Char) (hmark : IntegerMark (isWhole text) mark) (f : TokenFlag)
      (hseparator : f ≠ .containsSeparator) :
      (FlagSet.when (!(scaleRun text).isEmpty) (TokenFlag.scientific : TokenFlags)).has f = true ↔
        CallsFor (mantissaRun text ++ scaleRun text ++ mark) f := by
    have hone : (TokenFlag.scientific : TokenFlags).has f = true ↔ f = .scientific := by
      cases f <;> decide
    simp only [FlagSet.has_when, Bool.and_eq_true, hone, callsFor_iff,
      decimal_scientific_iff hstarts hmark, decimal_not_oldOctal hold hmark,
      decimal_not_marked hstarts hmark, hseparator, false_and, and_false, exists_false, or_false,
      false_or, Bool.not_eq_true', List.isEmpty_eq_false_iff, ne_eq]
    exact and_comm
  have hnumbered := numberOf_numbered hrun hold
    (fun hn => absurd (decimal_parts hstarts hn) (by decide))
    (fun mark => decimal_numeral hstarts)
    (fun other hother hfront => decimal_longest hmarks hother (htext ▸ hfront))
    (by rw [FlagSet.has_when]; exact Bool.and_false _) hflags
  rw [htext] at hnumbered
  rwa [decimal_eq hold]

/-- The number at the front of a text is exact. -/
theorem number_numbered (h : StartsNumber text) :
    Numbered (number text).kind (number text).flags.has (text.take (number text).size) text := by
  rcases number_cases text with ⟨b, letter, rest, rfl, hletter, hnumber⟩ | ⟨hmarks, hnumber⟩
  · rw [hnumber]
    exact based_numbered hletter
  · rw [hnumber]
    by_cases hold : OldOctal (digitRun Text.isDecimalDigit text)
    · exact oldOctal_numbered hold
    · exact decimal_numbered h hold hmarks

/-- A number is read only where one starts. -/
theorem read_number_iff :
    (read text).kind = .numericLiteral ∨ (read text).kind = .bigIntLiteral ↔
      StartsNumber text := by
  refine ⟨fun h => ?_, fun h => read_of_startsNumber h ▸ number_kind text⟩
  generalize hread : read text = l at h
  cases reads_of_read hread with
  | number hstarts => exact hstarts
  | ended | string | invalid => rcases h with h | h <;> cases h
  | @template rest =>
    rcases template_kind rest with hk | hk <;> rw [hk] at h <;> rcases h with h | h <;> cases h
  | privateName hp =>
    rw [privateName?_kind hp] at h
    rcases h with h | h <;> cases h
  | punctuator hp =>
    rcases h with h | h <;> dsimp only at h <;> subst h <;> cases punctuator?_text hp
  | name _ =>
    have hname := name_isName text
    rcases h with h | h <;> rw [h] at hname <;> cases hname

end Lexeme

/-! ## Tokens -/

theorem Reading.Shows.numbered {r : Reading} (h : r.Shows (.read r.start.rest))
    (hstarts : Lexeme.StartsNumber r.start.rest) :
    Numbered r.token r.flags.has r.spelling r.start.rest := by
  have hread := Lexeme.read_of_startsNumber hstarts
  obtain ⟨hlongest, htoken, hhas⟩ := Lexeme.number_numbered hstarts
  rw [h.token_eq, h.spelling_eq, hread]
  exact ⟨hlongest, htoken, fun f hf => by rw [h.has_eq f hf, hread, hhas f hf]⟩

namespace Scanner.Session

/-- Whatever a client has asked of a scanner, scanning takes the longest numeral where a number
starts, or an older octal number, and tells by its kind and its flags how it is written. -/
theorem serve_numbered (source : String) (shebang : Bool) (requests : List Request) :
    let t := ((start source shebang).serve requests).scanner.scan
    (t.token = .numericLiteral ∨ t.token = .bigIntLiteral ↔
        Lexeme.StartsNumber t.start.rest) ∧
      (Lexeme.StartsNumber t.start.rest →
        Numbered t.token t.flags.has t.spelling t.start.rest) := by
  have hserved := (served_placed source shebang requests).present
  have hshows := scan_shows hserved.stop_sound
  refine ⟨?_, hshows.numbered⟩
  rw [hshows.token_eq]
  exact Lexeme.read_number_iff

/-- An exponent without a digit is left behind. -/
theorem digitless_exponent_left :
    let t := ((start "0_8.5e+" false).serve []).scanner.scan
    Lexeme.StartsNumber t.start.rest ∧ t.text = "0_8.5" ∧
      Numbered t.token t.flags.has t.spelling t.start.rest := by
  intro t
  have ht : Lexeme.StartsNumber t.start.rest := ⟨'0', "_8.5e+".toList, by decide +kernel, rfl⟩
  exact ⟨ht, by decide +kernel, (serve_numbered _ _ _).2 ht⟩

end Scanner.Session
end EcmaSyntax
