import EcmaSyntax.Proofs.Token.Faults

/-! # The order of faults

A token has one fault at most, and the fault ends where the token does. A token that is read anew is
a punctuator, which has none. So the faults of tokens end at later and later places, also where a
token is read in more than one way. A comment that lacks its end is no fault of a token. -/
namespace EcmaSyntax

/-- Whether it is found in the characters of a token. -/
def Message.isLexical : Message → Bool
  | unterminatedString | unterminatedTemplate | unterminatedRegularExpression
  | invalidCharacter => true
  | _ => false

theorem Fault.message_isLexical (f : Fault) : f.message.isLexical = true := by cases f <;> rfl

theorem Fault.span_stop {first last : Nat} (h : first ≤ last) (f : Fault) :
    (f.span first last).stop = last := by
  cases f with
  | unterminatedString | unterminatedTemplate => rfl
  | unterminatedRegularExpression | invalidCharacter => exact Span.stop_between h

/-! ## Faults in a list of diagnostics -/

/-- The faults of tokens among diagnostics. -/
def lexicalFaults (found : List Diagnostic) : List Diagnostic := found.filter (·.isAny Message.isLexical)

/-- The faults of tokens end at later and later places, up to an offset. -/
structure FaultsUpTo (found : List Diagnostic) (n : Nat) : Prop where
  ascending : (lexicalFaults found).Pairwise fun d e => d.span.stop < e.span.stop
  stop_le : ∀ d ∈ lexicalFaults found, d.span.stop ≤ n

namespace FaultsUpTo
variable {found later : List Diagnostic} {d : Diagnostic} {m n : Nat}

theorem nil (n : Nat) : FaultsUpTo [] n := ⟨.nil, nofun⟩

theorem mono (h : FaultsUpTo found m) (hmn : m ≤ n) : FaultsUpTo found n :=
  ⟨h.ascending, fun d hd => Nat.le_trans (h.stop_le d hd) hmn⟩

/-- A fault of a token that ends behind all others. -/
theorem push (h : FaultsUpTo found m) (hm : m < d.span.stop) (hn : d.span.stop ≤ n) :
    FaultsUpTo (found ++ [d]) n := by
  have hsub : ∀ e ∈ lexicalFaults [d], e = d := by
    intro e he
    exact List.mem_singleton.mp (List.mem_filter.mp he).1
  have hsplit : lexicalFaults (found ++ [d]) = lexicalFaults found ++ lexicalFaults [d] :=
    List.filter_append ..
  constructor
  · rw [hsplit, List.pairwise_append]
    refine ⟨h.ascending, (List.pairwise_singleton _ d).filter _, fun e he e' he' => ?_⟩
    rw [hsub e' he']
    exact Nat.lt_of_le_of_lt (h.stop_le e he) hm
  · intro e he
    rw [hsplit, List.mem_append] at he
    rcases he with he | he
    · exact Nat.le_trans (h.stop_le e he) (Nat.le_trans (Nat.le_of_lt hm) hn)
    · rw [hsub e he]
      exact hn

/-- What is no fault of a token may stand anywhere. -/
theorem insert (h : FaultsUpTo (found ++ later) n) (hd : d.isAny Message.isLexical = false) :
    FaultsUpTo (found ++ [d] ++ later) n := by
  have hsame : lexicalFaults (found ++ [d] ++ later) = lexicalFaults (found ++ later) := by
    simp [lexicalFaults, List.filter_append, hd]
  exact ⟨hsame ▸ h.ascending, hsame ▸ h.stop_le⟩

end FaultsUpTo

/-! ## The scanner -/

namespace Scanner
variable {past : List Diagnostic} {s : Scanner} {l : Lexeme}

/-- Behind what has been handed on, the faults that are held go on in order up to the end of the
present token. A punctuator has no fault of its own. -/
structure Orderly (past : List Diagnostic) (s : Scanner) : Prop where
  stop : FaultsUpTo (past ++ s.pending.toList) s.stop.offset
  start : s.token.punctuatorText ≠ none → FaultsUpTo (past ++ s.pending.toList) s.start.offset
  held : ∀ d ∈ s.pending.toList, d.isAny Message.isLexical = true ∨ d.isOf .commentEndExpected = true

/-- A lexeme is taken where all faults so far end before its start. -/
theorem take_orderly (h : FaultsUpTo (past ++ s.pending.toList) s.start.offset)
    (hheld : ∀ d ∈ s.pending.toList, d.isAny Message.isLexical = true ∨ d.isOf .commentEndExpected = true)
    (hs : s.start.Sound) (hl : l.fault = none ∨ l.kind.punctuatorText = none)
    (hproper : l.fault ≠ none → l.Proper s.start.rest ∧ s.start.rest ≠ []) :
    (s.take l).Orderly past := by
  have hle := (Cursor.Reaches.skip l.size s.start).offset_le hs
  cases hfault : l.fault with
  | none =>
    have hpending : (s.take l).pending = s.pending := by
      rw [take, hfault]
      rfl
    constructor
    · rw [hpending, take_reading]
      exact h.mono hle
    · rw [hpending, take_reading]
      exact fun _ => h
    · rwa [hpending]
  | some f =>
    obtain ⟨hproper, hrest⟩ := hproper (by simp [hfault])
    have hlt : s.start.offset < (s.start.skip l.size).offset := by
      rw [(Cursor.Reaches.skip l.size s.start).offset_lt_iff hs]
      exact Cursor.skip_left_lt hs hrest hproper.size_pos
    have hpending : (s.take l).pending =
        s.pending.add (f.report s.start.offset (s.start.skip l.size).offset) := by
      rw [take, hfault]
      rfl
    have hstop : (f.report s.start.offset (s.start.skip l.size).offset).span.stop =
        (s.start.skip l.size).offset := f.span_stop hle
    constructor
    · rw [hpending, take_reading, Sink.toList_add, ← List.append_assoc]
      exact h.push (Nat.lt_of_lt_of_eq hlt hstop.symm) (Nat.le_of_eq hstop)
    · intro hkind
      rw [take_reading] at hkind
      exact absurd (hl.resolve_left (by simp [hfault])) hkind
    · rw [hpending, Sink.toList_add]
      refine List.forall_mem_append.mpr ⟨hheld, List.forall_mem_singleton.mpr (.inl ?_)⟩
      exact Diagnostic.isAny_report.trans f.message_isLexical

/-- A lexeme that is taken for the sake of a present punctuator has no faults before it but those of
other tokens. -/
theorem Orderly.retake (h : s.Orderly past) (hs : s.Ready) (hkind : s.token.punctuatorText ≠ none)
    (hl : l.Proper s.start.rest) (hplain : l.kind.punctuatorText = none) :
    (s.take l).Orderly past := by
  have ht : s.token ≠ .endOfFileToken := fun ht => hkind (ht ▸ rfl)
  exact take_orderly (h.start hkind) h.held hs.start_sound (.inr hplain) fun _ =>
    ⟨hl, rest_ne_nil hs ht⟩

theorem Orderly.reread (way : Rereading) (h : s.Orderly past) (hs : s.Ready) :
    (s.reread way).Orderly past := by
  have hlonger (k : Kind) (n : Nat) (flags : TokenFlags) (hk : k.punctuatorText ≠ none →
      s.token.punctuatorText ≠ none) :
      Orderly past { s with token := k, stop := s.stop.skip n, flags := flags } :=
    ⟨h.stop.mono ((Cursor.Reaches.skip n s.stop).offset_le hs.stop_sound), fun hkind =>
      h.start (hk hkind), h.held⟩
  cases way with
  | slash =>
    unfold Scanner.reread rescanSlash
    dsimp only
    split
    case isTrue hslash =>
      refine h.retake hs ?_ (Lexeme.regularExpression_proper _ _) rfl
      simp only [atSlash, Bool.or_eq_true, beq_iff_eq] at hslash
      rcases hslash with hk | hk <;> simp [hk, Kind.punctuatorText]
    case isFalse => exact h
  | greaterThan =>
    unfold Scanner.reread rescanGreaterThan
    dsimp only
    split
    case isTrue hk => exact hlonger _ _ _ fun _ => by simp [eq_of_beq hk, Kind.punctuatorText]
    case isFalse => exact h
  | template =>
    unfold Scanner.reread rescanTemplate
    dsimp only
    split
    case isTrue hk =>
      refine h.retake hs ?_ (Lexeme.template_proper _ _ _) ?_
      · simp [eq_of_beq hk, Kind.punctuatorText]
      · dsimp only [Lexeme.template]
        split <;> rfl
    case isFalse => exact h
  | hyphenatedName =>
    unfold Scanner.reread rescanHyphenatedName
    dsimp only
    split
    case isTrue => exact hlonger _ _ _ fun hk => absurd rfl hk
    case isFalse => exact h

/-! ## Moving on -/

/-- What the trivia behind the present token brings. -/
theorem skipTrivia_comments (s : Scanner) : ∃ comments : List Diagnostic,
    s.skipTrivia.pending.toList = s.pending.toList ++ comments ∧
      ∀ d ∈ comments, d.isAny Message.isLexical = false ∧ d.isOf .commentEndExpected = true := by
  unfold skipTrivia
  dsimp only
  split
  · refine ⟨_, Sink.toList_add _ _, List.forall_mem_singleton.mpr ⟨Diagnostic.isAny_report, ?_⟩⟩
    exact Diagnostic.isOf_report.mpr rfl
  · exact ⟨[], (List.append_nil _).symm, nofun⟩

/-- Between two tokens all faults of tokens end before the second one. -/
structure Between (past : List Diagnostic) (s : Scanner) : Prop where
  faults : FaultsUpTo (past ++ s.pending.toList) s.stop.offset
  held : ∀ d ∈ s.pending.toList, d.isAny Message.isLexical = true ∨ d.isOf .commentEndExpected = true

theorem Orderly.between (h : s.Orderly past) : s.Between past := ⟨h.stop, h.held⟩

theorem Between.comments {comments : List Diagnostic} {t : Scanner} (h : s.Between past)
    (hpending : t.pending.toList = s.pending.toList ++ comments)
    (hcomments : ∀ d ∈ comments, d.isAny Message.isLexical = false ∧
      d.isOf .commentEndExpected = true) (hstop : s.stop.offset ≤ t.stop.offset) :
    t.Between past := by
  have hnone : lexicalFaults comments = [] := by
    rw [lexicalFaults, List.filter_eq_nil_iff]
    intro d hd
    rw [(hcomments d hd).1]
    exact Bool.false_ne_true
  have hsame : lexicalFaults (past ++ t.pending.toList) =
      lexicalFaults (past ++ s.pending.toList) := by
    rw [hpending, ← List.append_assoc, lexicalFaults, List.filter_append]
    rw [show comments.filter _ = [] from hnone, List.append_nil]
    rfl
  constructor
  · exact FaultsUpTo.mono ⟨hsame ▸ h.faults.ascending, hsame ▸ h.faults.stop_le⟩ hstop
  · rw [hpending]
    exact List.forall_mem_append.mpr ⟨h.held, fun d hd => .inr (hcomments d hd).2⟩

theorem Between.skipTrivia (h : s.Between past) (hs : s.stop.Sound) :
    s.skipTrivia.Between past := by
  obtain ⟨comments, hpending, hcomments⟩ := s.skipTrivia_comments
  refine h.comments hpending hcomments ?_
  rw [skipTrivia_reading]
  exact (Cursor.Reaches.skip _ _).offset_le hs

theorem Between.take (h : s.Between past) (hs : s.start.Sound) (hstart : s.start = s.stop)
    (hl : l.fault = none ∨ l.kind.punctuatorText = none)
    (hproper : l.fault ≠ none → l.Proper s.start.rest ∧ s.start.rest ≠ []) :
    (s.take l).Orderly past :=
  take_orderly (hstart ▸ h.faults) h.held hs hl hproper

theorem Between.scan (h : s.Between past) (hs : s.stop.Sound) : s.scan.Orderly past := by
  have hstart : s.skipTrivia.start = s.skipTrivia.stop := by
    rw [skipTrivia_reading]
  refine (h.skipTrivia hs).take (skipTrivia_sound hs) hstart
    ((Lexeme.read_punctuator _).symm.imp_left fun ⟨_, _, _, heq⟩ => congrArg Lexeme.fault heq)
    fun hfault => ?_
  have hrest : s.skipTrivia.start.rest ≠ [] := by
    intro hnil
    rw [hnil] at hfault
    exact hfault rfl
  exact ⟨Lexeme.read_proper hrest, hrest⟩

theorem Between.advance (way : Advance) (h : s.Between past) (hs : s.stop.Sound) :
    (s.advance way).Orderly past := by
  cases way with
  | plain => exact h.scan hs
  | expression => exact (h.scan hs).reread .slash (scan_movedOn hs).ready
  | child =>
    let t : Scanner := { s with full := s.stop, start := s.stop, flags := ∅ }
    have ht : t.Between past := ⟨h.faults, h.held⟩
    have hfault := Lexeme.childLexeme_fault s.stop.rest
    exact ht.take hs rfl (.inl hfault) fun hne => absurd hfault hne
  | attributeValue =>
    have hstart : s.skipTrivia.start = s.skipTrivia.stop := by
      rw [skipTrivia_reading]
    have htrivia := h.skipTrivia hs
    have hsound := skipTrivia_sound hs
    unfold Scanner.advance scanAttributeValue
    dsimp only
    split
    case h_3 =>
      obtain ⟨comments, hpending, hcomments⟩ := s.skipTrivia_comments
      have hagain : Between past { s with pending := s.skipTrivia.pending } :=
        h.comments hpending hcomments (Nat.le_refl _)
      exact hagain.scan hs
    all_goals
      case _ hrest =>
        refine htrivia.take hsound hstart (.inr rfl) fun _ => ⟨Lexeme.plainString_proper _ _ _, ?_⟩
        rw [hrest]
        exact List.cons_ne_nil _ _

end Scanner
end EcmaSyntax
