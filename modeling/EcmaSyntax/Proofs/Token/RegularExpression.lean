import EcmaSyntax.Proofs.Token.NameParts
import EcmaSyntax.Proofs.Token.Quoted
import EcmaSyntax.Proofs.Token.Spaced

/-! # Where regular expressions end

A regular expression goes on up to the first slash outside brackets that no backslash takes along,
and takes up the flags behind that slash. Without such a slash it ends with its line, and a fault is
reported over it. A backslash takes along any character but a line feed and a carriage return: the
other two line terminators end a regular expression only where no backslash stands before them. -/
namespace EcmaSyntax

/-- The characters of a pattern, from a place outside or within brackets to another such place. -/
inductive Pattern : Bool → List Char → Bool → Prop
  | nil {inClass : Bool} : Pattern inClass [] inClass
  | char {inClass stop : Bool} {c : Char} {body : List Char} (hc : c ≠ '\\')
    (hline : Text.isLineTerminator c = false) (hslash : c = '/' → inClass = true)
    (h : Pattern (c == '[' || (inClass && c != ']')) body stop) : Pattern inClass (c :: body) stop
  | escape {inClass stop : Bool} {c : Char} {body : List Char} (hc : Text.isNewline c = false)
    (h : Pattern inClass body stop) : Pattern inClass ('\\' :: c :: body) stop

namespace Pattern
variable {inClass stop : Bool} {text body flags rest : List Char} {n : Nat}

/-- A slash behind a pattern closes it. -/
theorem closed (h : Pattern inClass body stop) (hstop : stop = false) (rest : List Char) :
    (Lexeme.regularExpressionBody inClass (body ++ '/' :: rest)).2 = true := by
  induction h with
  | nil =>
    subst hstop
    rfl
  | @char inClass stop c body hc hline hslash _ ih =>
    have hopen : (c == '/' && !inClass) = false := by
      by_cases h : c = '/'
      · simp [h, hslash h]
      · simp [h]
    rw [List.cons_append, Lexeme.regularExpressionBody]
    · simp only [hline, hopen, Bool.false_eq_true, if_false]
      exact ih hstop
    · intro _ _ h
      exact absurd h hc
  | escape hc _ ih =>
    simp only [List.cons_append, Lexeme.regularExpressionBody, hc, Bool.false_eq_true, if_false]
    exact ih hstop

theorem not_newline (h : Pattern inClass body stop) : ∀ c ∈ body, Text.isNewline c = false := by
  induction h with
  | nil => exact fun _ hc => nomatch hc
  | char _ hline _ _ ih =>
    refine List.forall_mem_cons.mpr ⟨?_, ih⟩
    simp only [Text.isLineTerminator, Bool.or_eq_false_iff] at hline
    simp only [Text.isNewline, Bool.or_eq_false_iff]
    exact hline.1.1
  | escape hc _ ih =>
    exact List.forall_mem_cons.mpr ⟨by decide +kernel, List.forall_mem_cons.mpr ⟨hc, ih⟩⟩

/-- A line terminator within a pattern stands behind a backslash. -/
theorem escaped (h : Pattern inClass body stop) {before behind : List Char} {c : Char}
    (hbody : body = before ++ c :: behind) (hc : Text.isLineTerminator c = true) :
    ∃ earlier place, before = earlier ++ ['\\'] ∧ Pattern inClass earlier place := by
  have hslash : Text.isLineTerminator '\\' = false := by decide +kernel
  induction h generalizing before with
  | nil => simp at hbody
  | char hne hline hclass _ ih =>
    cases before with
    | nil =>
      cases hbody
      rw [hc] at hline
      cases hline
    | cons d before =>
      cases hbody
      obtain ⟨earlier, place, rfl, hearlier⟩ := ih rfl
      exact ⟨_ :: earlier, place, rfl, .char hne hline hclass hearlier⟩
  | @escape inClass stop e body he _ ih =>
    match before with
    | [] =>
      cases hbody
      rw [hc] at hslash
      cases hslash
    | [d] =>
      cases hbody
      exact ⟨[], inClass, rfl, .nil⟩
    | d :: d' :: before =>
      cases hbody
      obtain ⟨earlier, place, rfl, hearlier⟩ := ih rfl
      exact ⟨_ :: _ :: earlier, place, rfl, .escape he hearlier⟩

/-- Behind an opening slash, a pattern and characters that end no line. -/
theorem lines (tail : List Char) (h : Pattern false body stop)
    (htail : ∀ c ∈ tail, Text.isLineTerminator c = false) :
    (∀ c ∈ '/' :: (body ++ tail), Text.isNewline c = false) ∧
      ∀ before c behind, '/' :: (body ++ tail) = before ++ c :: behind →
        Text.isLineTerminator c = true →
        ∃ earlier place, before = '/' :: (earlier ++ ['\\']) ∧ Pattern false earlier place := by
  have hslash : Text.isLineTerminator '/' = false := by decide +kernel
  have hnewline {c : Char} (hc : Text.isLineTerminator c = false) : Text.isNewline c = false := by
    simp only [Text.isLineTerminator, Bool.or_eq_false_iff] at hc
    simp only [Text.isNewline, Bool.or_eq_false_iff]
    exact hc.1.1
  have hnot {c : Char} (hc : Text.isLineTerminator c = true) (hmem : c ∈ tail) : False := by
    rw [htail c hmem] at hc
    cases hc
  constructor
  · refine List.forall_mem_cons.mpr ⟨hnewline hslash, List.forall_mem_append.mpr ⟨h.not_newline, ?_⟩⟩
    exact fun c hc => hnewline (htail c hc)
  · intro before c behind hsplit hc
    cases before with
    | nil =>
      cases hsplit
      rw [hslash] at hc
      cases hc
    | cons d before =>
      rw [List.cons_append] at hsplit
      obtain ⟨rfl, hinner⟩ := List.cons.inj hsplit
      rcases List.append_eq_append_iff.mp hinner with ⟨_, -, rfl⟩ | ⟨inner, hbody, htail'⟩
      · exact (hnot hc (List.mem_append_right _ List.mem_cons_self)).elim
      · cases inner with
        | nil =>
          rw [List.nil_append] at htail'
          exact (hnot hc (htail' ▸ List.mem_cons_self)).elim
        | cons e inner =>
          obtain ⟨rfl, -⟩ := List.cons.inj htail'
          obtain ⟨earlier, place, rfl, hearlier⟩ := h.escaped hbody hc
          exact ⟨earlier, place, rfl, hearlier⟩

/-! ## Bodies -/

/-- A text begins with a pattern, its closing slash and its flags, `n` characters in all. -/
structure Closes (inClass : Bool) (n : Nat) (text body flags rest : List Char) : Prop where
  text_eq : text = body ++ '/' :: (flags ++ rest)
  size_eq : n = (body ++ '/' :: flags).length
  pattern : Pattern inClass body false
  longest : NameParts.Longest flags rest

/-- A text begins with a pattern and perhaps a backslash, `n` characters in all, and there its line
ends. -/
structure Breaks (inClass stop : Bool) (n : Nat) (text body last rest : List Char) : Prop where
  text_eq : text = body ++ (last ++ rest)
  size_eq : n = (body ++ last).length
  pattern : Pattern inClass body stop
  last_eq : last = [] ∨ last = ['\\']
  ends : ∀ c ∈ rest.head?, Text.isLineTerminator c = true

theorem Closes.char {c : Char} (hc : c ≠ '\\') (hline : Text.isLineTerminator c = false)
    (hslash : c = '/' → inClass = true)
    (h : Closes (c == '[' || (inClass && c != ']')) n text body flags rest) :
    Closes inClass (n + 1) (c :: text) (c :: body) flags rest := by
  obtain ⟨rfl, rfl, hpattern, hlongest⟩ := h
  exact ⟨rfl, rfl, .char hc hline hslash hpattern, hlongest⟩

theorem Closes.escape {c : Char} (hc : Text.isNewline c = false)
    (h : Closes inClass n text body flags rest) :
    Closes inClass (n + 2) ('\\' :: c :: text) ('\\' :: c :: body) flags rest := by
  obtain ⟨rfl, rfl, hpattern, hlongest⟩ := h
  exact ⟨rfl, rfl, .escape hc hpattern, hlongest⟩

theorem Breaks.char {last : List Char} {c : Char} (hc : c ≠ '\\')
    (hline : Text.isLineTerminator c = false) (hslash : c = '/' → inClass = true)
    (h : Breaks (c == '[' || (inClass && c != ']')) stop n text body last rest) :
    Breaks inClass stop (n + 1) (c :: text) (c :: body) last rest := by
  obtain ⟨rfl, rfl, hpattern, hlast, hends⟩ := h
  exact ⟨rfl, rfl, .char hc hline hslash hpattern, hlast, hends⟩

theorem Breaks.escape {last : List Char} {c : Char} (hc : Text.isNewline c = false)
    (h : Breaks inClass stop n text body last rest) :
    Breaks inClass stop (n + 2) ('\\' :: c :: text) ('\\' :: c :: body) last rest := by
  obtain ⟨rfl, rfl, hpattern, hlast, hends⟩ := h
  exact ⟨rfl, rfl, .escape hc hpattern, hlast, hends⟩

theorem regularExpressionBody_splits (inClass : Bool) (text : List Char) :
    let (run, closed) := Lexeme.regularExpressionBody inClass text
    if closed then ∃ body flags rest, Closes inClass run.size text body flags rest
    else ∃ stop body last rest, Breaks inClass stop run.size text body last rest := by
  fun_induction Lexeme.regularExpressionBody inClass text with
  | case1 inClass => exact ⟨inClass, [], [], [], rfl, rfl, .nil, .inl rfl, by simp⟩
  | case2 inClass c rest hnewline =>
    refine ⟨inClass, [], ['\\'], c :: rest, rfl, rfl, .nil, .inr rfl, fun d hd => ?_⟩
    obtain rfl := Option.some.inj hd
    rw [Text.isLineTerminator, Bool.or_assoc, Bool.or_eq_true]
    exact .inl hnewline
  | case3 inClass c rest hnewline run closed heq ih =>
    rw [heq] at ih
    have hc := Bool.not_eq_true _ ▸ hnewline
    cases closed with
    | true =>
      obtain ⟨_, _, _, h⟩ := ih
      exact ⟨_, _, _, h.escape hc⟩
    | false =>
      obtain ⟨_, _, _, _, h⟩ := ih
      exact ⟨_, _, _, _, h.escape hc⟩
  | case4 inClass c rest _ hline =>
    refine ⟨inClass, [], [], c :: rest, rfl, rfl, .nil, .inl rfl, fun d hd => ?_⟩
    rwa [← Option.some.inj hd]
  | case5 inClass c rest _ _ hslash =>
    obtain ⟨flags, tail, rfl, hsize, hlongest⟩ := NameParts.exists_longest rest
    simp only [Bool.and_eq_true, beq_iff_eq, Bool.not_eq_true'] at hslash
    obtain ⟨rfl, rfl⟩ := hslash
    refine ⟨[], flags, tail, rfl, ?_, .nil, hlongest⟩
    rw [Run.after, hsize]
    rfl
  | case6 inClass c rest hescape hline hslash run closed heq ih =>
    rw [heq] at ih
    by_cases hc : c = '\\'
    · -- a backslash that takes no character along is the last one
      subst hc
      obtain rfl := Quotation.eq_nil_of_backslash fun d tail => hescape d tail rfl
      cases heq
      exact ⟨inClass, [], ['\\'], [], rfl, rfl, .nil, .inr rfl, by simp⟩
    · have hline := Bool.not_eq_true _ ▸ hline
      have hopen : c = '/' → inClass = true := by simpa using hslash
      cases closed with
      | true =>
        obtain ⟨_, _, _, h⟩ := ih
        exact ⟨_, _, _, h.char hc hline hopen⟩
      | false =>
        obtain ⟨_, _, _, _, h⟩ := ih
        exact ⟨_, _, _, _, h.char hc hline hopen⟩

end Pattern

/-! ## Lexemes -/

namespace Lexeme

/-- No escape tells that a token lacks its end. -/
theorem nameRun_unterminated (isPart : Char → Bool) (n : Nat) (text : List Char) :
    (nameRun isPart n text).flags.has .unterminated = false := by
  have hescape {text : List Char} {e : Run} (h : escape? text = some e) :
      e.flags.has .unterminated = false := by
    unfold escape? at h
    split at h
    case h_1 =>
      dsimp only at h
      split at h <;> cases h
      simp only
      decide
    case h_2 =>
      split at h <;> cases h
      rfl
    case h_3 => cases h
  fun_induction nameRun isPart n text with
  | case1 | case4 => exact FlagSet.has_empty _
  | case2 _ _ _ ih | case3 _ _ _ ih => simpa [Run.after] using ih
  | case5 _ _ _ e he ih => simp [Run.after, ih, hescape he]

theorem regularExpressionBody_unterminated (inClass : Bool) (text : List Char) :
    (regularExpressionBody inClass text).1.flags.has .unterminated = false := by
  fun_induction regularExpressionBody inClass text with
  | case1 | case2 | case4 => exact FlagSet.has_empty _
  | case3 _ _ _ _ _ _ heq ih | case6 _ _ _ _ _ _ _ _ heq ih =>
    rw [heq] at ih
    simpa [Run.after] using ih
  | case5 => simp [Run.after, nameRun_unterminated]

theorem regularExpression_eq {text : List Char} {run : Run} {closed : Bool}
    (h : regularExpressionBody false text = (run, closed)) :
    regularExpression text =
      { kind := .regularExpressionLiteral
        size := run.size + 1
        flags := run.flags ∪ .when (!closed) TokenFlag.unterminated
        fault := if closed then none else some .unterminatedRegularExpression } := by
  rw [regularExpression, h]

end Lexeme

/-! ## Tokens -/

namespace Scanner
variable {s t : Scanner}

/-- A scanner has read a slash as the start of a regular expression. -/
structure ReadsPattern (s t : Scanner) : Prop where
  token_eq : t.token = .regularExpressionLiteral
  start_eq : t.start = s.start
  terminated_iff : t.flags.has .unterminated = false ↔
    ∃ body flags, t.spelling = '/' :: (body ++ '/' :: flags) ∧ Pattern false body false ∧
      NameParts.Longest flags t.stop.rest
  not_newline : ∀ c ∈ t.spelling, Text.isNewline c = false
  escaped : ∀ before c behind, t.spelling = before ++ c :: behind →
    Text.isLineTerminator c = true →
    ∃ body inClass, before = '/' :: (body ++ ['\\']) ∧ Pattern false body inClass
  ends : t.flags.has .unterminated = true → ∀ c ∈ t.stop.rest.head?, Text.isLineTerminator c = true
  pending_eq : t.pending =
    if t.flags.has .unterminated then
      s.pending.add (Fault.unterminatedRegularExpression.report t.start.offset t.stop.offset)
    else s.pending

/-- A regular expression is read behind a slash that has not been reported. -/
theorem take_readsPattern {text : List Char} (hrest : s.start.rest = '/' :: text)
    (hsound : s.start.Sound) (hflags : s.flags.has .unterminated = false) :
    s.ReadsPattern (s.take (.regularExpression text)) := by
  have hsplits := Pattern.regularExpressionBody_splits false text
  have hown := Lexeme.regularExpressionBody_unterminated false text
  cases hbody : Lexeme.regularExpressionBody false text with | mk run closed =>
  have hlexeme := Lexeme.regularExpression_eq hbody
  rw [hbody] at hsplits hown
  dsimp only at hsplits hown
  have htoken : (s.take (.regularExpression text)).token = .regularExpressionLiteral := by
    rw [take_reading, hlexeme]
  have hstart : (s.take (.regularExpression text)).start = s.start := by
    rw [take_reading]
  have hunterminated :
      (s.take (.regularExpression text)).flags.has .unterminated = !closed := by
    rw [take_reading, hlexeme]
    dsimp only
    rw [FlagSet.has_union, hflags, FlagSet.has_union, hown, FlagSet.has_when]
    cases closed <;> rfl
  cases closed with
  | true =>
    obtain ⟨body, flags, rest, htext, hsize, hpattern, hlongest⟩ := hsplits
    have hfront : s.start.rest = '/' :: (body ++ '/' :: flags) ++ rest := by simp [hrest, htext]
    obtain ⟨hspelling, hstop⟩ := take_splits (l := .regularExpression text) hsound hfront
      (by simp [hlexeme, hsize])
    have hlines := hpattern.lines ('/' :: flags)
      (List.forall_mem_cons.mpr ⟨by decide +kernel, hlongest.parts.not_isLineTerminator⟩)
    refine ⟨htoken, hstart, ?_, ?_, ?_, ?_, ?_⟩
    · exact iff_of_true hunterminated ⟨body, flags, hspelling, hpattern, hstop ▸ hlongest⟩
    · rw [hspelling]
      exact hlines.1
    · rw [hspelling]
      exact hlines.2
    · rw [hunterminated]
      exact (Bool.noConfusion ·)
    · rw [hunterminated, take, hlexeme]
      rfl
  | false =>
    obtain ⟨stop, body, last, rest, htext, hsize, hpattern, hlast, hends⟩ := hsplits
    have hfront : s.start.rest = '/' :: (body ++ last) ++ rest := by simp [hrest, htext]
    obtain ⟨hspelling, hstop⟩ := take_splits (l := .regularExpression text) hsound hfront
      (by simp [hlexeme, hsize])
    have hbackslash : Text.isLineTerminator '\\' = false := by decide +kernel
    have hlines := hpattern.lines last (by
      rcases hlast with rfl | rfl
      · exact List.forall_mem_nil _
      · exact List.forall_mem_singleton.mpr hbackslash)
    refine ⟨htoken, hstart, ?_, ?_, ?_, ?_, ?_⟩
    · refine iff_of_false (by rw [hunterminated]; decide) ?_
      rintro ⟨body', flags, hspelling', hpattern', -⟩
      have htext' : text = body' ++ '/' :: (flags ++ rest) := by
        have heq := hspelling.symm.trans hspelling'
        rw [htext, ← List.append_assoc, (List.cons.inj heq).2, List.append_assoc]
        rfl
      have hclosed := hpattern'.closed rfl (flags ++ rest)
      rw [← htext', hbody] at hclosed
      cases hclosed
    · rw [hspelling]
      exact hlines.1
    · rw [hspelling]
      exact hlines.2
    · rw [hstop]
      exact fun _ => hends
    · rw [hunterminated, take, hlexeme]
      rfl

namespace Session

/-- Whatever a client has asked of a scanner, a slash that is read anew begins a regular expression
that ends at the first closing slash or else with its line. -/
theorem serve_readsPattern (source : String) (shebang : Bool) (requests : List Request)
    (hslash : ((start source shebang).serve requests).scanner.atSlash = true) :
    ((start source shebang).serve requests).scanner.ReadsPattern
      (((start source shebang).serve requests).scanner.reread .slash) := by
  have hs := (served_placed source shebang requests).present
  have hkeeps := (served_keepsPunctuator source shebang requests).present
  generalize ((start source shebang).serve requests).scanner = s at *
  have htoken : s.token = .slashToken ∨ s.token = .slashEqualsToken := by
    simpa only [atSlash, Bool.or_eq_true, beq_iff_eq] using hslash
  have hflags : s.flags.has .unterminated = false := by
    apply hkeeps
    rcases htoken with ht | ht <;> rw [ht] <;> rfl
  have hrest : s.start.rest = '/' :: s.start.next.rest := by
    rcases htoken with ht | ht
    · have := (hs.spelled.rest_eq hs.start_sound hs.start_stop ['/'] (by rw [ht]; rfl)).1
      rw [Cursor.next, this]
      rfl
    · have := (hs.spelled.rest_eq hs.start_sound hs.start_stop ['/', '='] (by rw [ht]; rfl)).1
      rw [Cursor.next, this]
      rfl
  rw [reread, rescanSlash, if_pos hslash]
  exact take_readsPattern hrest hs.start_sound hflags

/-- A slash within brackets or behind a backslash does not close. -/
theorem classed_slash_readsPattern :
    let s := ((start "a = /[/]\\//g" false).serve [.advance .plain, .advance .plain, .advance .plain])
    s.scanner.atSlash = true ∧ s.scanner.ReadsPattern (s.scanner.reread .slash) := by
  intro s
  have hslash : s.scanner.atSlash = true := by decide +kernel
  exact ⟨hslash, serve_readsPattern _ _ _ hslash⟩

/-- A regular expression may hold a line separator behind a backslash, and then nothing is
reported. -/
theorem escaped_separator_terminated :
    let s := (start "/\\\u2028/" false).serve [.advance .plain]
    let t := s.scanner.reread .slash
    s.scanner.atSlash = true ∧ Text.isLineTerminator '\u2028' = true ∧ '\u2028' ∈ t.spelling ∧
      t.spelling = ['/', '\\', '\u2028', '/'] ∧ t.flags.has .unterminated = false ∧
      t.pending.toList = [] := by
  decide +kernel

end Session
end Scanner
end EcmaSyntax
