import EcmaSyntax.Proofs.Token.Session

/-! # Where quoted texts end

A string or a piece of template text goes on up to the first stop that no backslash takes along: a
closing delimiter or, for a string, the end of its line. Its kind tells at which delimiter it ends.
Only where the delimiter is missing a fault is reported, and what stands between the delimiters that
are there is the value of the token. -/
namespace EcmaSyntax

/-- The characters of a quoted text, with the text behind them. A backslash takes along the
character after it, and a carriage return together with a line feed; nothing else is a stop. -/
inductive QuotedBody (stops : List Char → Prop) : List Char → List Char → Prop
  | nil {rest : List Char} : QuotedBody stops [] rest
  | char {c : Char} {body rest : List Char} (hc : c ≠ '\\') (hstop : ¬ stops (c :: (body ++ rest)))
    (h : QuotedBody stops body rest) : QuotedBody stops (c :: body) rest
  | escape {c : Char} {body rest : List Char} (hc : ¬ ['\r', '\n'] <+: c :: (body ++ rest))
    (h : QuotedBody stops body rest) : QuotedBody stops ('\\' :: c :: body) rest
  | lineContinuation {body rest : List Char} (h : QuotedBody stops body rest) :
    QuotedBody stops ('\\' :: '\r' :: '\n' :: body) rest
  /-- A backslash at the end of the source. -/
  | backslash : QuotedBody stops ['\\'] []

/-- A lexeme takes up the characters that it counts. -/
theorem Scanner.take_splits {s : Scanner} {l : Lexeme} {front rest : List Char}
    (hsound : s.start.Sound) (hrest : s.start.rest = front ++ rest) (hsize : l.size = front.length) :
    (s.take l).spelling = front ∧ (s.take l).stop.rest = rest := by
  rw [Reading.spelling, take_reading]
  dsimp only
  constructor
  · rw [Cursor.textTo_skip _ hsound, hrest, hsize, List.take_left]
  · rw [Cursor.skip_rest, hrest, hsize, List.drop_left]

/-- How texts of one sort are quoted. -/
structure Quotation where
  opening : Char
  /-- The closing delimiters, and the kinds of the tokens that they end. -/
  closings : List (List Char × Kind)
  /-- The characters before which a text ends without a closing delimiter. -/
  breaks : Char → Bool
  /-- The kind of a token without a closing delimiter, and its fault. -/
  unclosed : Kind
  fault : Fault

namespace Quotation

def string (quote : Char) : Quotation where
  opening := quote
  closings := [([quote], .stringLiteral)]
  breaks := Text.isNewline
  unclosed := .stringLiteral
  fault := .unterminatedString

/-- The first piece of a template, and the pieces behind its substitutions. -/
def template (first : Bool) : Quotation :=
  let last : Kind := if first then .noSubstitutionTemplateLiteral else .templateTail
  { opening := if first then '\x60' else '\x7d'
    closings :=
      [(['\x60'], last), (['$', '\x7b'], if first then .templateHead else .templateMiddle)]
    breaks := fun _ => false
    unclosed := last
    fault := .unterminatedTemplate }

variable (q : Quotation)

/-- The places where a quoted text ends. -/
def Stops (rest : List Char) : Prop :=
  (∃ e ∈ q.closings, e.1 <+: rest) ∨ ∃ c ∈ rest.head?, q.breaks c = true

/-- The places where a quoted text ends without a closing delimiter. -/
def Breaks (rest : List Char) : Prop := ∀ c ∈ rest.head?, q.breaks c = true

/-- How a token of a given kind is closed in front of a text. -/
inductive Ends : List Char → List Char → Kind → Prop
  | closed {closing rest : List Char} {kind : Kind} (h : (closing, kind) ∈ q.closings) :
    Ends closing rest kind
  | unclosed {rest : List Char} (h : q.Breaks rest) : Ends [] rest q.unclosed

/-- The token of a scanner, taken from an earlier state, in its parts. -/
structure Parts (s t : Scanner) (body closing rest : List Char) : Prop where
  start_rest : t.start.rest = q.opening :: (body ++ closing ++ rest)
  stop_rest : t.stop.rest = rest
  spelling_eq : t.spelling = q.opening :: (body ++ closing)
  quoted : QuotedBody q.Stops body (closing ++ rest)
  ends : q.Ends closing rest t.token
  value_eq : t.value = String.ofList body
  unterminated_iff : t.flags.has .unterminated = true ↔ closing = []
  pending_eq : t.pending =
    if closing = [] then s.pending.add (q.fault.report t.start.offset t.stop.offset)
    else s.pending

/-- A scanner has read a quoted text. -/
def Reads (s t : Scanner) : Prop := ∃ body closing rest, q.Parts s t body closing rest

/-! ## Bodies -/

/-- A text begins with `n` characters of a body and its closing delimiter. -/
structure Splits (closing : List Char) (n : Nat) (text body rest : List Char) : Prop where
  text_eq : text = body ++ (closing ++ rest)
  quoted : QuotedBody q.Stops body (closing ++ rest)
  size_eq : n = body.length + closing.length
  breaks : closing = [] → q.Breaks rest

variable {q} {closing text body rest : List Char} {n : Nat}

namespace Splits

theorem char {c : Char} (h : q.Splits closing n text body rest) (hc : c ≠ '\\')
    (hstop : ¬ q.Stops (c :: text)) : q.Splits closing (n + 1) (c :: text) (c :: body) rest := by
  obtain ⟨rfl, hbody, rfl, hbreaks⟩ := h
  exact ⟨rfl, .char hc hstop hbody, Nat.add_right_comm _ _ _, hbreaks⟩

theorem escape {c : Char} (h : q.Splits closing n text body rest)
    (hc : ¬ ['\r', '\n'] <+: c :: text) :
    q.Splits closing (n + 2) ('\\' :: c :: text) ('\\' :: c :: body) rest := by
  obtain ⟨rfl, hbody, rfl, hbreaks⟩ := h
  exact ⟨rfl, .escape hc hbody, Nat.add_right_comm _ _ _, hbreaks⟩

theorem lineContinuation (h : q.Splits closing n text body rest) :
    q.Splits closing (n + 3) ('\\' :: '\r' :: '\n' :: text) ('\\' :: '\r' :: '\n' :: body)
      rest := by
  obtain ⟨rfl, hbody, rfl, hbreaks⟩ := h
  exact ⟨rfl, .lineContinuation hbody, Nat.add_right_comm _ _ _, hbreaks⟩

end Splits

/-- A text that ends at once, in front of a break or of the end of the source. -/
theorem Splits.unclosed (h : q.Breaks text) : q.Splits [] 0 text [] text :=
  ⟨rfl, .nil, rfl, fun _ => h⟩

theorem Splits.closed (h : closing ≠ []) :
    q.Splits closing closing.length (closing ++ rest) [] rest :=
  ⟨rfl, .nil, (Nat.zero_add _).symm, fun h' => absurd h' h⟩

theorem Splits.backslash : q.Splits [] 1 ['\\'] ['\\'] [] :=
  ⟨rfl, .backslash, rfl, fun _ => nofun⟩

/-- A backslash that takes no character along is the last one. -/
theorem eq_nil_of_backslash (h : ∀ c rest, text = c :: rest → False) : text = [] := by
  cases text with
  | nil => rfl
  | cons c rest => exact (h c rest rfl).elim

theorem string_splits (quote : Char) (text : List Char) :
    ∃ body rest, (string quote).Splits (if (Lexeme.stringBody quote text).2 then [quote] else [])
      (Lexeme.stringBody quote text).1 text body rest := by
  fun_induction Lexeme.stringBody quote text with
  | case1 => exact ⟨[], [], .unclosed fun _ hd => by cases hd⟩
  | case2 rest n closed heq ih =>
    rw [heq] at ih
    obtain ⟨_, _, h⟩ := ih
    exact ⟨_, _, h.lineContinuation⟩
  | case3 c rest hc n closed heq ih =>
    rw [heq] at ih
    obtain ⟨_, _, h⟩ := ih
    refine ⟨_, _, h.escape ?_⟩
    rintro ⟨tail, htail⟩
    cases htail
    exact hc tail rfl rfl
  | case4 c rest _ _ hquote =>
    rw [eq_of_beq hquote]
    exact ⟨[], rest, .closed (List.cons_ne_nil _ _)⟩
  | case5 c rest _ _ _ hnewline =>
    refine ⟨[], c :: rest, .unclosed fun d hd => ?_⟩
    rwa [← Option.some.inj hd]
  | case6 c rest _ hnil hquote hnewline n closed heq ih =>
    rw [heq] at ih
    obtain ⟨_, _, h⟩ := ih
    by_cases hc : c = '\\'
    · subst hc
      obtain rfl := eq_nil_of_backslash fun d tail => hnil d tail rfl
      cases heq
      exact ⟨_, _, .backslash⟩
    · refine ⟨_, _, h.char hc ?_⟩
      rintro (⟨e, he, hprefix⟩ | ⟨d, hd, hbreaks⟩)
      · obtain rfl := List.mem_singleton.mp he
        exact hquote (beq_iff_eq.mpr (List.cons_prefix_cons.mp hprefix).1.symm)
      · exact hnewline (Option.some.inj hd ▸ hbreaks)

theorem template_splits (first : Bool) (text : List Char) :
    ∃ body rest, (template first).Splits (Lexeme.templateBody text).2.delimiter
      (Lexeme.templateBody text).1 text body rest := by
  fun_induction Lexeme.templateBody text with
  | case1 => exact ⟨[], [], .unclosed fun _ hd => by cases hd⟩
  | case2 rest n e heq ih =>
    rw [heq] at ih
    obtain ⟨_, _, h⟩ := ih
    exact ⟨_, _, h.lineContinuation⟩
  | case3 c rest hc n e heq ih =>
    rw [heq] at ih
    obtain ⟨_, _, h⟩ := ih
    refine ⟨_, _, h.escape ?_⟩
    rintro ⟨tail, htail⟩
    cases htail
    exact hc tail rfl rfl
  | case4 rest => exact ⟨[], rest, .closed (List.cons_ne_nil _ _)⟩
  | case5 c rest _ _ _ hquote =>
    rw [eq_of_beq hquote]
    exact ⟨[], rest, .closed (List.cons_ne_nil _ _)⟩
  | case6 c rest _ hnil hdollar hquote n e heq ih =>
    rw [heq] at ih
    obtain ⟨_, _, h⟩ := ih
    by_cases hc : c = '\\'
    · subst hc
      obtain rfl := eq_nil_of_backslash fun d tail => hnil d tail rfl
      cases heq
      exact ⟨_, _, .backslash⟩
    · refine ⟨_, _, h.char hc ?_⟩
      rintro (⟨e, he, hprefix⟩ | ⟨d, hd, hbreaks⟩)
      · simp only [template, List.mem_cons, List.not_mem_nil, or_false] at he
        rcases he with rfl | rfl
        · exact hquote (beq_iff_eq.mpr (List.cons_prefix_cons.mp hprefix).1.symm)
        · obtain ⟨hc, tail, htail⟩ := List.cons_prefix_cons.mp hprefix
          exact hdollar tail hc.symm htail.symm
      · cases hbreaks

/-! ## Lexemes -/

/-- A lexeme is the quoted text behind an opening delimiter. -/
structure Describes (q : Quotation) (text : List Char) (l : Lexeme)
    (body closing rest : List Char) : Prop where
  splits : q.Splits closing (l.size - 1) text body rest
  size_pos : 0 < l.size
  ends : q.Ends closing rest l.kind
  delimiters_eq : ∃ n, Reading.delimiters l.kind = (1, n) ∧ (closing ≠ [] → n = closing.length)
  unterminated_iff : l.flags.has .unterminated = true ↔ closing = []
  fault_eq : l.fault = if closing = [] then some q.fault else none

theorem string_describes (quote : Char) (text : List Char) :
    ∃ body closing rest,
      (string quote).Describes text (Lexeme.string quote text) body closing rest := by
  obtain ⟨body, rest, h⟩ := string_splits quote text
  unfold Lexeme.string
  generalize Lexeme.stringBody quote text = split at h
  obtain ⟨n, closed⟩ := split
  refine ⟨body, _, rest, h, Nat.succ_pos _, ?_, ⟨1, rfl, fun hne => ?_⟩, ?_, ?_⟩
  · cases closed with
    | false => exact .unclosed (h.breaks rfl)
    | true => exact .closed List.mem_cons_self
  · cases closed with
    | false => exact absurd rfl hne
    | true => rfl
  · dsimp only
    rw [Lexeme.has_unterminated _ _ _ (by decide)]
    cases closed <;> simp
  · cases closed <;> rfl

theorem template_describes (first : Bool) (text : List Char) :
    ∃ body closing rest,
      (template first).Describes text (Lexeme.template first text) body closing rest := by
  obtain ⟨body, rest, h⟩ := template_splits first text
  unfold Lexeme.template
  generalize Lexeme.templateBody text = split at h
  obtain ⟨n, ending⟩ := split
  refine ⟨body, _, rest, h, Nat.succ_pos _, ?_, ?_, ?_, ?_⟩
  · cases ending with
    | closed => exact .closed (by cases first <;> exact List.mem_cons_self)
    | substitution =>
      exact .closed (by cases first <;> exact List.mem_cons_of_mem _ List.mem_cons_self)
    | missing => cases first <;> exact .unclosed (h.breaks rfl)
  · cases ending with
    | closed => exact ⟨1, by cases first <;> rfl, fun _ => rfl⟩
    | substitution => exact ⟨2, by cases first <;> rfl, fun _ => rfl⟩
    | missing => exact ⟨1, by cases first <;> rfl, fun hne => absurd rfl hne⟩
  · have hflag : (FlagSet.one TokenFlag.unterminated).has .unterminated = true := rfl
    dsimp only
    rw [FlagSet.has_when, hflag, Bool.and_true, beq_iff_eq]
    cases ending <;> simp [Lexeme.TemplateEnd.delimiter]
  · cases ending <;> rfl

/-! ## Tokens -/

variable {s t : Scanner} {l : Lexeme}

/-- Taking such a lexeme reads the quoted text. -/
theorem Describes.parts (h : q.Describes text l body closing rest)
    (hrest : t.start.rest = q.opening :: text) (hsound : t.start.Sound)
    (hflags : t.flags.has .unterminated = false) (hpending : t.pending = s.pending) :
    q.Parts s (t.take l) body closing rest := by
  have hsize : l.size = (q.opening :: (body ++ closing)).length := by
    have := h.splits.size_eq
    have := h.size_pos
    rw [List.length_cons, List.length_append]
    omega
  have htext : t.start.rest = q.opening :: (body ++ closing) ++ rest := by
    rw [hrest, h.splits.text_eq, List.cons_append, List.append_assoc]
  obtain ⟨hspelling, hstop⟩ := Scanner.take_splits hsound htext hsize
  have hunterminated : (t.take l).flags.has .unterminated = true ↔ closing = [] := by
    rw [Scanner.take_reading]
    dsimp only
    rw [FlagSet.has_union, hflags, Bool.false_or]
    exact h.unterminated_iff
  refine ⟨?_, hstop, hspelling, h.splits.quoted, ?_, ?_, hunterminated, ?_⟩
  · rw [Scanner.take_reading]
    exact htext
  · rw [Scanner.take_reading]
    exact h.ends
  · have hmargins : (t.take l).margins = (1, closing.length) := by
      have hkind : (t.take l).token = l.kind := by rw [Scanner.take_reading]
      obtain ⟨n, hdelimiters, hn⟩ := h.delimiters_eq
      rw [Reading.margins, hkind, hdelimiters]
      dsimp only
      by_cases hc : closing = []
      · rw [if_pos (hunterminated.mpr hc), hc]
        rfl
      · rw [if_neg (mt hunterminated.mp hc), hn hc]
    have hlength : (q.opening :: (body ++ closing)).length - closing.length =
        (q.opening :: body).length := by
      simp
      omega
    calc
      (t.take l).value = String.ofList (((t.take l).spelling.take
          ((t.take l).spelling.length - (t.take l).margins.2)).drop (t.take l).margins.1) := rfl
      _ = String.ofList body := by
        rw [hmargins, hspelling, hlength, ← List.cons_append, List.take_left]
        rfl
  · have hstop := congrArg (·.stop) (Scanner.take_reading t l)
    have hstart := congrArg (·.start) (Scanner.take_reading t l)
    rw [← hpending]
    by_cases hc : closing = []
    · rw [if_pos hc, hstart, hstop, Scanner.take, h.fault_eq, if_pos hc]
      rfl
    · rw [if_neg hc, Scanner.take, h.fault_eq, if_neg hc]
      rfl

end Quotation

/-! ## Scanning -/

namespace Scanner
variable {s : Scanner}

/-- A comment without its end leaves nothing behind. -/
theorem drop_of_unclosed {place : Trivia.Place} {text : List Char}
    (h : (Trivia.extent place text).unclosed = true) :
    text.drop (Trivia.extent place text).size = [] := by
  fun_induction Trivia.extent place text <;>
    simp_all [Trivia.Extent.after, Trivia.Extent.broken]

theorem skipTrivia_pending (h : s.skipTrivia.start.rest ≠ []) :
    s.skipTrivia.pending = s.pending := by
  cases hunclosed : s.trivia.unclosed with
  | true =>
    rw [skipTrivia_reading, Cursor.skip_rest] at h
    exact absurd (drop_of_unclosed hunclosed) h
  | false =>
    unfold skipTrivia
    dsimp only
    rw [hunclosed]
    rfl

theorem skipTrivia_flags : s.skipTrivia.flags.has .unterminated = false := by
  have hflag : (FlagSet.one TokenFlag.precedingLineBreak).has .unterminated = false := rfl
  rw [skipTrivia_reading]
  dsimp only
  rw [FlagSet.has_when, hflag, Bool.and_false]

/-- A quoted text is read behind the trivia. -/
theorem scan_reads {q : Quotation} {text : List Char} (hs : s.stop.Sound)
    (hrest : s.scan.start.rest = q.opening :: text)
    (hread : ∃ body closing rest,
      q.Describes text (Lexeme.read (q.opening :: text)) body closing rest) : q.Reads s s.scan := by
  obtain ⟨body, closing, rest, h⟩ := hread
  rw [scan, take_reading] at hrest
  refine ⟨body, closing, rest, ?_⟩
  rw [scan, hrest]
  exact h.parts hrest (skipTrivia_sound hs) skipTrivia_flags
    (skipTrivia_pending (hrest ▸ List.cons_ne_nil _ _))

end Scanner

/-! ## Punctuators -/

/-- A punctuator does not lack its end. -/
def Reading.KeepsPunctuator (r : Reading) : Prop :=
  r.token.punctuatorText.isSome = true → r.flags.has .unterminated = false

namespace Scanner
variable {s : Scanner}

/-- A lexeme that is a punctuator only without flags. -/
theorem take_keepsPunctuator {l : Lexeme} (hs : s.flags.has .unterminated = false)
    (hl : l.kind.punctuatorText = none ∨ l.flags = ∅) : (s.take l).KeepsPunctuator := by
  intro hk
  rw [take_reading] at hk ⊢
  rcases hl with hl | hl
  · dsimp only at hk
    rw [hl] at hk
    cases hk
  · dsimp only
    rw [FlagSet.has_union, hs, hl]
    exact FlagSet.has_empty _

/-- Another lexeme than a punctuator. -/
theorem take_other_keepsPunctuator {l : Lexeme} (hl : l.kind.punctuatorText = none) :
    (s.take l).KeepsPunctuator := by
  rw [Reading.KeepsPunctuator, take_reading]
  intro hk
  dsimp only at hk
  rw [hl] at hk
  cases hk

theorem scan_keepsPunctuator (s : Scanner) : s.scan.KeepsPunctuator :=
  take_keepsPunctuator skipTrivia_flags
    ((Lexeme.read_punctuator _).imp_right fun ⟨_, _, _, heq⟩ => congrArg Lexeme.flags heq)

theorem reread_keepsPunctuator (way : Rereading) (h : s.KeepsPunctuator) :
    (s.reread way).KeepsPunctuator := by
  cases way with
  | slash =>
    unfold reread rescanSlash
    dsimp only
    split
    · exact take_other_keepsPunctuator rfl
    · exact h
  | greaterThan =>
    unfold reread rescanGreaterThan
    dsimp only
    split
    case isTrue hk => exact fun _ => h (by rw [eq_of_beq hk]; rfl)
    case isFalse => exact h
  | template =>
    unfold reread rescanTemplate
    dsimp only
    split
    · exact take_other_keepsPunctuator (Lexeme.template_punctuatorText _ _)
    · exact h
  | hyphenatedName =>
    unfold reread rescanHyphenatedName
    dsimp only
    split
    · nofun
    · exact h

theorem advance_keepsPunctuator (s : Scanner) (way : Advance) : (s.advance way).KeepsPunctuator := by
  cases way with
  | plain => exact s.scan_keepsPunctuator
  | expression => exact reread_keepsPunctuator .slash s.scan_keepsPunctuator
  | child =>
    refine take_keepsPunctuator (FlagSet.has_empty _) ?_
    unfold childLexeme
    split <;> first | exact .inr rfl | exact .inl rfl
  | attributeValue =>
    unfold advance scanAttributeValue
    dsimp only
    split
    case h_3 => exact scan_keepsPunctuator _
    all_goals exact take_other_keepsPunctuator rfl

theorem skipShebang_keepsPunctuator (source : String) :
    (ofText source.toList).skipShebang.KeepsPunctuator := by
  rw [Reading.KeepsPunctuator, skipShebang_token]
  nofun

namespace Session

/-- No punctuator of a session lacks its end. -/
theorem served_keepsPunctuator (source : String) (shebang : Bool) (requests : List Request) :
    ((start source shebang).serve requests).All Reading.KeepsPunctuator :=
  (All.start shebang nofun (skipShebang_keepsPunctuator source)).serve
    (fun t way _ => advance_keepsPunctuator t way) (fun _ way => reread_keepsPunctuator way) requests

end Session

/-! ## Sessions -/

namespace Session

/-- Whatever a client has asked of a scanner, a quote or backquote that it meets begins a text that
ends at the first stop, and so does a closing brace that is read anew. -/
theorem serve_quoted (source : String) (shebang : Bool) (requests : List Request) :
    let s := ((start source shebang).serve requests).scanner
    (∀ quote, quote = '\x22' ∨ quote = '\'' → s.scan.start.rest.head? = some quote →
      (Quotation.string quote).Reads s s.scan) ∧
    (s.scan.start.rest.head? = some '\x60' → (Quotation.template true).Reads s s.scan) ∧
    (s.token = .closeBraceToken → (Quotation.template false).Reads s (s.reread .template)) := by
  intro s
  have hs : s.Placed source := (served_placed source shebang requests).present
  have hbrace : s.KeepsPunctuator := (served_keepsPunctuator source shebang requests).present
  refine ⟨fun quote hquote hrest => ?_, fun hrest => ?_, fun hk => ?_⟩
  · obtain ⟨text, htext⟩ := List.head?_eq_some_iff.mp hrest
    have hread : Lexeme.read (quote :: text) = .string quote text := by
      rcases hquote with rfl | rfl <;> rfl
    exact scan_reads hs.stop_sound htext (hread ▸ Quotation.string_describes quote text)
  · obtain ⟨text, htext⟩ := List.head?_eq_some_iff.mp hrest
    exact scan_reads hs.stop_sound htext (Quotation.template_describes true text)
  · obtain ⟨hrest, -⟩ := hs.spelled.rest_eq hs.start_sound hs.start_stop ['\x7d'] (by rw [hk]; rfl)
    obtain ⟨body, closing, rest, h⟩ := Quotation.template_describes false s.stop.rest
    have hnext : s.start.next.rest = s.stop.rest := by rw [Cursor.next, hrest]; rfl
    refine ⟨body, closing, rest, ?_⟩
    rw [reread, rescanTemplate, if_pos (beq_iff_eq.mpr hk), hnext]
    exact h.parts hrest hs.start_sound (hbrace (by rw [hk]; rfl)) rfl

/-- An escaped quote does not end a string, and a template may go on behind a substitution. -/
theorem sample_quoted :
    let s := start "'a\\'b' c" false
    let t := (start "`a$\x7bb\x7dc" false).serve [.advance .plain, .advance .plain, .advance .plain]
    (Quotation.string '\'').Reads s.scanner s.scanner.scan ∧
      (Quotation.template true).Reads (start "`a" false).scanner (start "`a" false).scanner.scan ∧
      t.scanner.token = .closeBraceToken ∧
      (Quotation.template false).Reads t.scanner (t.scanner.reread .template) := by
  intro s t
  have hk : t.scanner.token = .closeBraceToken := by decide +kernel
  exact ⟨(serve_quoted "'a\\'b' c" false []).1 '\'' (.inr rfl) (by decide +kernel),
    (serve_quoted "`a" false []).2.1 (by decide +kernel), hk, (serve_quoted _ false _).2.2 hk⟩

end Session
end Scanner
end EcmaSyntax
