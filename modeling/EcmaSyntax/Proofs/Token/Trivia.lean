import EcmaSyntax.Proofs.Token.Session
import EcmaSyntax.Proofs.Token.Spaced

/-! # Trivia before a token

Trivia are a sequence of pieces: blanks, line terminators, comments and, at the start of a line,
lines that mark a conflict. A comment or marker that runs to the end of its line takes all of the
line, and a block comment ends with its first closing mark. Moving on skips the longest such
sequence, and the flag of the token tells whether there is a line terminator in it or a marker right
at its front; a marker further behind follows a line terminator. -/
namespace EcmaSyntax.Trivia

/-! ## Pieces of trivia -/

/-- Whether what follows a text from the start of the source is at the start of a line. -/
def atLineStart (before : List Char) : Bool := before.getLast?.all Text.isNewline

/-- Whether a line ends in front of a text. -/
def EndsLine (rest : List Char) : Prop := ∀ c ∈ rest.head?, Text.isLineTerminator c = true

/-- The characters of a line. -/
def InLine (body : List Char) : Prop := ∀ c ∈ body, Text.isLineTerminator c = false

/-- A text without the mark that closes a comment. -/
def Unclosed (body : List Char) : Prop := ¬ ['*', '/'] <:+: body

/-- The characters that mark a conflict. -/
def markers : List Char := ['<', '>', '=', '|']

/-- A piece of trivia with the text before it and the text behind it. -/
inductive Piece (before : List Char) : List Char → List Char → Prop
  | blank {c : Char} {rest : List Char} (h : Text.isBlank c = true) : Piece before [c] rest
  | lineTerminator {c : Char} {rest : List Char} (h : Text.isLineTerminator c = true) :
    Piece before [c] rest
  | lineComment {body rest : List Char} (h : InLine body) (hrest : EndsLine rest) :
    Piece before ('/' :: '/' :: body) rest
  | blockComment {body rest : List Char} (h : Unclosed body) :
    Piece before ('/' :: '*' :: (body ++ ['*', '/'])) rest
  /-- A comment without its end takes all of the source. -/
  | unclosedComment {body : List Char} (h : Unclosed body) : Piece before ('/' :: '*' :: body) []
  | conflictMarker {c : Char} {body rest : List Char} (hc : c ∈ markers)
    (hline : atLineStart before = true) (h : InLine body) (hrest : EndsLine rest) :
    Piece before (List.replicate 7 c ++ body) rest

/-- Pieces of trivia one behind the other, with the text before them and the text behind them. -/
inductive Pieces : List Char → List Char → List Char → Prop
  | none {before rest : List Char} : Pieces before [] rest
  | cons {before piece trivia rest : List Char} (h : Piece before piece (trivia ++ rest))
    (htail : Pieces (before ++ piece) trivia rest) : Pieces before (piece ++ trivia) rest

/-- Trivia that no longer trivia at the same place exceed. -/
structure Longest (before trivia rest : List Char) : Prop where
  pieces : Pieces before trivia rest
  length_le : ∀ p q, p ++ q = trivia ++ rest → Pieces before p q → p.length ≤ trivia.length

/-- Whether trivia hold a line terminator, or a conflict marker right behind the text before. -/
def Breaks (before trivia : List Char) : Prop :=
  (∃ c ∈ trivia, Text.isLineTerminator c = true) ∨
    (atLineStart before = true ∧ ∃ c ∈ markers, List.replicate 7 c <+: trivia)

/-! ## The extent of a piece -/

namespace Extent
variable (t : Extent)

theorem after_after (m n : Nat) : (t.after m).after n = t.after (m + n) := by
  simp [after, Nat.add_assoc]

theorem broken_broken (c d : Bool) : (t.broken c).broken d = t.broken (c || d) := by
  simp [broken, Bool.or_assoc]

theorem broken_after (c : Bool) (n : Nat) : (t.broken c).after n = (t.after n).broken c := rfl

@[simp] theorem broken_false : t.broken false = t := by
  simp [broken]

/-- The size and the line break of trivia behind `n` characters. -/
structure Behind (n : Nat) (c : Bool) (t whole : Extent) : Prop where
  size_eq : whole.size = n + t.size
  lineBreak_eq : whole.lineBreak = (t.lineBreak || c)

variable {t} in
theorem Behind.after (n : Nat) : t.Behind n false (t.after n) :=
  ⟨Nat.add_comm _ _, (Bool.or_false _).symm⟩

variable {t} in
theorem Behind.broken {n : Nat} {whole : Extent} (h : t.Behind n false whole) (c : Bool) :
    t.Behind n c (whole.broken c) :=
  ⟨h.size_eq, by rw [Extent.broken, h.lineBreak_eq, Bool.or_false]⟩

end Extent

section
variable {before piece body rest : List Char}

theorem EndsLine.extent (h : EndsLine rest) (b : Bool) :
    extent .lineComment rest = extent (.betweenTokens b) rest := by
  cases rest with
  | nil => rfl
  | cons c rest =>
    have hc : Text.isLineTerminator c = true := h c rfl
    have hslash : c ≠ '/' := by
      rintro rfl
      cases hc
    rw [Trivia.extent, Trivia.extent, if_pos hc, if_pos hc]
    all_goals simp_all

theorem extent_line (h : InLine body) (hrest : EndsLine rest) :
    extent .lineComment (body ++ rest) =
      (extent (.betweenTokens false) rest).after body.length := by
  induction body with
  | nil => exact hrest.extent false
  | cons c body ih =>
    have hc : Text.isLineTerminator c = false := h c List.mem_cons_self
    have htail := ih fun d hd => h d (List.mem_cons_of_mem c hd)
    rw [List.cons_append, extent, htail, hc, Extent.after_after]
    rfl

theorem Unclosed.tail {c : Char} (h : Unclosed (c :: body)) : Unclosed body :=
  fun hbody => h (List.infix_cons hbody)

theorem Unclosed.extent_cons {c : Char} (h : Unclosed (c :: body))
    (hrest : rest = [] ∨ rest.head? = some '*') :
    extent .blockComment (c :: (body ++ rest)) =
      ((extent .blockComment (body ++ rest)).after 1).broken (Text.isLineTerminator c) := by
  rw [extent]
  rintro tail rfl htail
  -- the slash of a closing mark would be in the body, or else the star behind it
  cases body with
  | nil => rcases hrest with rfl | hrest <;> simp_all
  | cons d body =>
    obtain rfl : d = '/' := by simpa using congrArg List.head? htail
    exact h ⟨[], body, rfl⟩

theorem extent_block (h : Unclosed body) :
    extent .blockComment (body ++ '*' :: '/' :: rest) =
      ((extent (.betweenTokens false) rest).after (body.length + 2)).broken
        (body.any Text.isLineTerminator) := by
  induction body with
  | nil => simp [extent, Extent.after, Extent.broken]
  | cons c body ih =>
    rw [List.cons_append, h.extent_cons (.inr rfl), ih h.tail, Extent.broken_after,
      Extent.after_after, Extent.broken_broken, List.any_cons, Bool.or_comm]
    rfl

theorem extent_unclosed (h : Unclosed body) :
    extent .blockComment body = ⟨body.length, body.any Text.isLineTerminator, true⟩ := by
  induction body with
  | nil => rfl
  | cons c body ih =>
    have hcons := h.extent_cons (.inl rfl)
    rw [List.append_nil] at hcons
    rw [hcons, ih h.tail]
    simp [Extent.after, Extent.broken, Bool.or_comm]

theorem atLineStart_append (hpiece : piece ≠ []) :
    atLineStart (before ++ piece) = Text.isNewline (piece.getLast hpiece) := by
  rw [atLineStart, List.getLast?_append, List.getLast?_eq_some_getLast hpiece]
  rfl

theorem InLine.any_eq (h : InLine body) : body.any Text.isLineTerminator = false :=
  List.any_eq_false.mpr fun c hc => Bool.not_eq_true _ ▸ h c hc

theorem extent_nil (b : Bool) : extent (.betweenTokens b) [] = {} := rfl

theorem extent_of_ne {c : Char} (hc : c ≠ '/') (b : Bool) :
    extent (.betweenTokens b) (c :: rest) =
      if Text.isLineTerminator c then
        ((extent (.betweenTokens (Text.isNewline c)) rest).after 1).broken true
      else if Text.isBlank c then (extent (.betweenTokens false) rest).after 1
      else if b && isConflictMarker (c :: rest) then
        ((extent .lineComment rest).after 1).broken true
      else {} := by
  rw [extent]
  all_goals exact fun _ h _ => hc h

theorem InLine.of_blank {c : Char} (h : Text.isBlank c = true) : InLine [c] := by
  intro d hd
  obtain rfl := List.mem_singleton.mp hd
  cases hline : Text.isLineTerminator d with
  | false => rfl
  | true =>
    simp only [Text.isLineTerminator, Bool.or_eq_true, beq_iff_eq] at hline
    rcases hline with ((rfl | rfl) | rfl) | rfl <;> cases h

theorem InLine.append {tail : List Char} (h : InLine body) (htail : InLine tail) :
    InLine (body ++ tail) := by
  intro c hc
  rcases List.mem_append.mp hc with hc | hc
  · exact h c hc
  · exact htail c hc

theorem marker_cases {c : Char} (hc : c ∈ markers) :
    Text.isLineTerminator c = false ∧ Text.isBlank c = false ∧ c ≠ '/' := by
  simp only [markers, List.mem_cons, List.not_mem_nil, or_false] at hc
  rcases hc with rfl | rfl | rfl | rfl <;> exact ⟨rfl, rfl, by decide⟩

theorem isConflictMarker_cons {c : Char} :
    isConflictMarker (c :: rest) = true ↔ c ∈ markers ∧ List.replicate 6 c <+: rest := by
  simp [isConflictMarker, markers, or_assoc]

/-- Behind a piece of trivia within a line there is no start of a line. -/
theorem InLine.atLineStart (h : InLine piece) (hpiece : piece ≠ []) :
    atLineStart (before ++ piece) = false := by
  have hlast := h _ (List.getLast_mem hpiece)
  rw [atLineStart_append hpiece]
  simp_all [Text.isLineTerminator, Text.isNewline]

theorem isConflictMarker_iff {text : List Char} :
    isConflictMarker text = true ↔ ∃ c ∈ markers, List.replicate 7 c <+: text := by
  cases text with
  | nil => simp [isConflictMarker]
  | cons c rest =>
    simp only [isConflictMarker_cons, List.replicate_succ, List.cons_prefix_cons]
    grind

/-- A piece of trivia in front adds its size, and a line break if it holds one or is a marker. -/
theorem Piece.behind (h : Piece before piece rest) :
    (extent (.betweenTokens (Trivia.atLineStart (before ++ piece))) rest).Behind piece.length
      (piece.any Text.isLineTerminator || isConflictMarker piece)
      (extent (.betweenTokens (Trivia.atLineStart before)) (piece ++ rest)) := by
  cases h with
  | @blank c _ h =>
    have hslash : c ≠ '/' := by
      rintro rfl
      cases h
    have hline := InLine.of_blank h
    have hc := hline c List.mem_cons_self
    have hmarker : isConflictMarker [c] = false := by simp [isConflictMarker]
    rw [hline.atLineStart (List.cons_ne_nil _ _), List.singleton_append, extent_of_ne hslash, hc,
      if_neg Bool.false_ne_true, if_pos h, hline.any_eq, hmarker]
    exact .after 1
  | @lineTerminator c _ h =>
    have hslash : c ≠ '/' := by
      rintro rfl
      cases h
    have hany : [c].any Text.isLineTerminator = true := by simpa using h
    rw [atLineStart_append (List.cons_ne_nil _ _), List.singleton_append, extent_of_ne hslash,
      if_pos h, hany]
    exact .broken (.after 1) true
  | @lineComment body _ h hrest =>
    have hline : InLine (['/', '/'] ++ body) := .append (by simp [InLine, Text.isLineTerminator]) h
    change Extent.Behind _ _ _ (extent _ ('/' :: '/' :: (body ++ rest)))
    rw [List.cons_append, List.singleton_append] at hline
    rw [hline.atLineStart (List.cons_ne_nil _ _), hline.any_eq, extent, extent_line h hrest,
      Extent.after_after]
    exact .after _
  | @blockComment body _ h =>
    have hline : Trivia.atLineStart (before ++ '/' :: '*' :: (body ++ ['*', '/'])) = false := by
      simp [Trivia.atLineStart, Text.isNewline, List.getLast?_cons]
    have hany : ('/' :: '*' :: (body ++ ['*', '/'])).any Text.isLineTerminator =
        body.any Text.isLineTerminator := by
      simp [Text.isLineTerminator]
    have hmarker : isConflictMarker ('/' :: '*' :: (body ++ ['*', '/'])) = false := rfl
    have hsize : ('/' :: '*' :: (body ++ ['*', '/'])).length = body.length + 2 + 2 := by simp
    rw [hline, hany, hmarker, Bool.or_false, hsize, List.cons_append, List.cons_append,
      List.append_assoc, extent, List.cons_append, List.singleton_append, extent_block h,
      Extent.broken_after, Extent.after_after]
    exact .broken (.after _) _
  | @unclosedComment body h =>
    have hany :
        ('/' :: '*' :: body).any Text.isLineTerminator = body.any Text.isLineTerminator := by
      simp [Text.isLineTerminator]
    have hmarker : isConflictMarker ('/' :: '*' :: body) = false := rfl
    rw [List.append_nil, extent_nil, extent, extent_unclosed h, hany, hmarker, Bool.or_false]
    exact ⟨rfl, (Bool.false_or _).symm⟩
  | @conflictMarker c body _ hc hline h hrest =>
    obtain ⟨hterminator, hblank, hslash⟩ := marker_cases hc
    have hmarks (n : Nat) : InLine (List.replicate n c ++ body) :=
      .append (fun d hd => List.eq_of_mem_replicate hd ▸ hterminator) h
    have hmarker (tail : List Char) :
        isConflictMarker (c :: (List.replicate 6 c ++ tail)) = true :=
      isConflictMarker_cons.mpr ⟨hc, List.prefix_append _ _⟩
    have hpiece := hmarks 7
    rw [List.replicate_succ, List.cons_append] at hpiece ⊢
    rw [hpiece.atLineStart (List.cons_ne_nil _ _), hpiece.any_eq, List.cons_append,
      extent_of_ne hslash, hterminator, hblank, hline, List.append_assoc, hmarker,
      hmarker, ← List.append_assoc, extent_line (hmarks 6) hrest, Extent.after_after]
    exact .broken (.after _) true

end

/-! ## The extent of trivia -/

section
variable {before piece trivia rest : List Char}

theorem Pieces.size_eq (h : Pieces before trivia rest) :
    (extent (.betweenTokens (Trivia.atLineStart before)) (trivia ++ rest)).size =
      trivia.length +
        (extent (.betweenTokens (Trivia.atLineStart (before ++ trivia))) rest).size := by
  induction h with
  | none => simp
  | cons h _ ih =>
    rw [List.append_assoc, h.behind.size_eq, ih, List.length_append, Nat.add_assoc,
      List.append_assoc]

theorem Piece.ne_nil (h : Piece before piece rest) : piece ≠ [] := by
  cases h <;> exact List.cons_ne_nil _ _

/-- A piece that begins with marks of a conflict is a marker. -/
theorem Piece.isConflictMarker_append (h : Piece before piece rest) :
    isConflictMarker (piece ++ trivia) = isConflictMarker piece := by
  have hother {c : Char} {rest : List Char} (hc : c ∉ markers) :
      isConflictMarker (c :: rest) = false :=
    Bool.eq_false_iff.mpr fun h => hc (isConflictMarker_cons.mp h).1
  cases h with
  | blank h =>
    have hc := fun hc => Bool.false_ne_true ((marker_cases hc).2.1.symm.trans h)
    exact (hother hc).trans (hother hc).symm
  | lineTerminator h =>
    have hc := fun hc => Bool.false_ne_true ((marker_cases hc).1.symm.trans h)
    exact (hother hc).trans (hother hc).symm
  | lineComment | blockComment | unclosedComment => rfl
  | @conflictMarker c body _ hc =>
    have hmarker (tail : List Char) : isConflictMarker (List.replicate 7 c ++ tail) = true :=
      isConflictMarker_cons.mpr ⟨hc, List.prefix_append _ _⟩
    rw [List.append_assoc, hmarker, hmarker]

/-- A marker is at the start of a line. -/
theorem Piece.atLineStart (h : Piece before piece rest) (hmarker : isConflictMarker piece = true) :
    atLineStart before = true := by
  have hc (c : Char) (tail : List Char) (heq : piece = c :: tail) : c ∈ markers := by
    subst heq
    exact (isConflictMarker_cons.mp hmarker).1
  cases h with
  | blank h => cases (marker_cases (hc _ _ rfl)).2.1.symm.trans h
  | lineTerminator h => cases (marker_cases (hc _ _ rfl)).1.symm.trans h
  | lineComment | blockComment | unclosedComment => exact absurd (hc _ _ rfl) (by decide)
  | conflictMarker _ hline => exact hline

/-- The start of a line follows a line terminator. -/
theorem any_of_atLineStart (hpiece : piece ≠ []) (h : atLineStart (before ++ piece) = true) :
    piece.any Text.isLineTerminator = true := by
  rw [atLineStart_append hpiece, Text.isNewline] at h
  refine List.any_eq_true.mpr ⟨_, List.getLast_mem hpiece, ?_⟩
  simp_all [Text.isLineTerminator]

theorem Pieces.lineBreak_eq (h : Pieces before trivia rest) :
    (extent (.betweenTokens (Trivia.atLineStart before)) (trivia ++ rest)).lineBreak =
      ((extent (.betweenTokens (Trivia.atLineStart (before ++ trivia))) rest).lineBreak ||
        (trivia.any Text.isLineTerminator ||
          Trivia.atLineStart before && isConflictMarker trivia)) := by
  induction h with
  | none => simp [isConflictMarker]
  | @cons before piece trivia rest h _ ih =>
    have hmarker := h.atLineStart
    have hline : atLineStart (before ++ piece) = true → _ := any_of_atLineStart h.ne_nil
    rw [List.append_assoc, h.behind.lineBreak_eq, ih, h.isConflictMarker_append, List.any_append,
      List.append_assoc]
    -- what stands behind the piece starts a line only if the piece breaks one
    cases hpiece : isConflictMarker piece with
    | true => simp [hmarker hpiece]
    | false =>
      cases hbefore : Trivia.atLineStart (before ++ piece) with
      | true => simp [hline hbefore]
      | false => simp [Bool.or_comm, Bool.or_assoc]

/-- A comment is closed by the first of its closing marks, or its end is missing. -/
theorem exists_closed (text : List Char) :
    (∃ body rest, text = body ++ ['*', '/'] ++ rest ∧ Unclosed body) ∨ Unclosed text := by
  induction text with
  | nil => exact .inr fun h => nomatch List.eq_nil_of_infix_nil h
  | cons c text ih =>
    by_cases hc : ['*', '/'] <+: c :: text
    · obtain ⟨rest, hrest⟩ := hc
      exact .inl ⟨[], rest, hrest.symm, fun h => nomatch List.eq_nil_of_infix_nil h⟩
    · have hcons {body : List Char} (hbody : Unclosed body) (hpre : body <+: text) :
          Unclosed (c :: body) := fun h => by
        rcases List.infix_cons_iff.mp h with h | h
        · exact hc (h.trans (List.cons_prefix_cons.mpr ⟨rfl, hpre⟩))
        · exact hbody h
      rcases ih with ⟨body, rest, rfl, hbody⟩ | htext
      · refine .inl ⟨c :: body, rest, rfl, hcons hbody ?_⟩
        rw [List.append_assoc]
        exact List.prefix_append _ _
      · exact .inr (hcons htext (List.prefix_refl _))

/-- The rest of a line ends where a line terminator stands, or the source ends. -/
theorem exists_line (text : List Char) :
    ∃ body rest, text = body ++ rest ∧ InLine body ∧ EndsLine rest := by
  induction text with
  | nil => exact ⟨[], [], rfl, nofun, nofun⟩
  | cons c text ih =>
    cases hc : Text.isLineTerminator c with
    | true =>
      refine ⟨[], c :: text, rfl, nofun, fun d hd => ?_⟩
      rwa [← Option.some.inj hd]
    | false =>
      obtain ⟨body, rest, rfl, hbody, hrest⟩ := ih
      exact ⟨c :: body, rest, rfl, List.forall_mem_cons.mpr ⟨hc, hbody⟩, hrest⟩

/-- Trivia that are not empty begin with a piece. -/
theorem exists_piece (before text : List Char) :
    extent (.betweenTokens (Trivia.atLineStart before)) text = {} ∨
      ∃ piece rest, text = piece ++ rest ∧ Piece before piece rest := by
  rcases text with _ | ⟨c, text⟩
  · exact .inl rfl
  by_cases hslash : c = '/'
  · subst hslash
    rcases text with _ | ⟨d, text⟩
    · exact .inl (by simp [extent, Text.isLineTerminator, Text.isBlank, isConflictMarker])
    by_cases hline : d = '/'
    · obtain ⟨body, rest, rfl, hbody, hrest⟩ := exists_line text
      exact .inr ⟨'/' :: '/' :: body, rest, by rw [hline]; rfl, .lineComment hbody hrest⟩
    by_cases hblock : d = '*'
    · rcases exists_closed text with ⟨body, rest, rfl, hbody⟩ | htext
      · exact .inr ⟨'/' :: '*' :: (body ++ ['*', '/']), rest, by rw [hblock]; rfl,
          .blockComment hbody⟩
      · exact .inr ⟨'/' :: '*' :: text, [], by rw [hblock, List.append_nil], .unclosedComment htext⟩
    · left
      rw [extent]
      · simp [Text.isLineTerminator, Text.isBlank, isConflictMarker]
      all_goals simp_all
  rw [extent_of_ne hslash]
  cases hterminator : Text.isLineTerminator c with
  | true => exact .inr ⟨[c], text, rfl, .lineTerminator hterminator⟩
  | false =>
    cases hblank : Text.isBlank c with
    | true => exact .inr ⟨[c], text, rfl, .blank hblank⟩
    | false =>
      cases hmarker : Trivia.atLineStart before && isConflictMarker (c :: text) with
      | false => exact .inl rfl
      | true =>
        obtain ⟨hline, hmarker⟩ := Bool.and_eq_true_iff.mp hmarker
        obtain ⟨hc, tail, rfl⟩ := isConflictMarker_cons.mp hmarker
        obtain ⟨body, rest, rfl, hbody, hrest⟩ := exists_line tail
        refine .inr ⟨List.replicate 7 c ++ body, rest, ?_, .conflictMarker hc hline hbody hrest⟩
        rw [List.append_assoc]
        rfl

theorem extent_pieces (before text : List Char) :
    let n := (extent (.betweenTokens (Trivia.atLineStart before)) text).size
    Pieces before (text.take n) (text.drop n) := by
  induction hn : text.length using Nat.strongRecOn generalizing before text with
  | ind n ih =>
    rcases exists_piece before text with hnil | ⟨piece, rest, rfl, hpiece⟩
    · rw [hnil]
      exact .none
    · have hlt : rest.length < n := by
        have := List.length_pos_iff.mpr hpiece.ne_nil
        rw [List.length_append] at hn
        omega
      have htail := ih _ hlt (before ++ piece) rest rfl
      rw [hpiece.behind.size_eq]
      dsimp only at htail ⊢
      rw [List.take_length_add_append, List.drop_length_add_append]
      refine .cons ?_ htail
      rwa [List.take_append_drop]

/-- The trivia at the front of a text are the longest sequence of pieces. -/
theorem extent_longest (before text : List Char) :
    let n := (extent (.betweenTokens (Trivia.atLineStart before)) text).size
    Longest before (text.take n) (text.drop n) := by
  refine ⟨extent_pieces before text, fun p q heq hp => ?_⟩
  rw [List.take_append_drop] at heq
  rw [← heq, List.length_take, hp.size_eq, List.length_append]
  have hle := size_le_length (.betweenTokens (Trivia.atLineStart (before ++ p))) q
  omega

/-- Behind the trivia at the front of a text there are none. -/
theorem extent_drop (before text : List Char) :
    let n := (extent (.betweenTokens (Trivia.atLineStart before)) text).size
    extent (.betweenTokens (Trivia.atLineStart (before ++ text.take n))) (text.drop n) = {} := by
  intro n
  have hn : n ≤ text.length := size_le_length _ _
  have hsize := (extent_pieces before text).size_eq
  rw [List.take_append_drop, List.length_take, Nat.min_eq_left hn] at hsize
  rcases exists_piece (before ++ text.take n) (text.drop n) with hnil | ⟨piece, rest, heq, hpiece⟩
  · exact hnil
  · have hpos := List.length_pos_iff.mpr hpiece.ne_nil
    rw [heq, hpiece.behind.size_eq] at hsize
    omega

theorem extent_lineBreak (before text : List Char) :
    let gap := extent (.betweenTokens (Trivia.atLineStart before)) text
    gap.lineBreak = true ↔ Breaks before (text.take gap.size) := by
  intro gap
  have hlineBreak := (extent_pieces before text).lineBreak_eq
  rw [List.take_append_drop, extent_drop] at hlineBreak
  rw [hlineBreak, Bool.false_or, Bool.or_eq_true, Bool.and_eq_true, List.any_eq_true,
    isConflictMarker_iff]
  rfl

end

end EcmaSyntax.Trivia

namespace EcmaSyntax

/-! ## The text before a place -/

namespace Cursor
variable {c d : Cursor}

theorem previous_skip (n : Nat) (c : Cursor) :
    (c.skip n).previous = (c.rest.take n).getLast?.or c.previous := by
  induction n generalizing c with
  | zero => simp [skip]
  | succ n ih =>
    rw [skip, ih, next]
    split
    case h_1 hrest => simp [hrest]
    case h_2 ch rest hrest =>
      rw [hrest, List.take_succ_cons, List.getLast?_cons]
      cases (rest.take n).getLast? <;> rfl

theorem Reaches.atLineStart_eq {text : List Char} (h : (start text).Reaches c) :
    c.atLineStart = Trivia.atLineStart ((start text).textTo c) := by
  obtain ⟨n, rfl⟩ := h
  have hstart : (start text).rest = text := rfl
  rw [textTo_skip n (start_sound text), atLineStart, previous_skip, hstart, Trivia.atLineStart]
  cases (text.take n).getLast? <;> rfl

end Cursor

/-! ## Tokens -/

/-- A token is read behind trivia, and its flag tells whether they break a line. -/
def Reading.BehindTrivia (source : String) (r : Reading) : Prop :=
  ∃ before trivia rest, source.toList = before ++ trivia ++ rest ∧
    r.full.offset = (String.ofList before).utf8ByteSize ∧
    r.start.offset = (String.ofList (before ++ trivia)).utf8ByteSize ∧
    Trivia.Longest before trivia rest ∧
    (r.hasPrecedingLineBreak = true ↔ Trivia.Breaks before trivia)

theorem Reading.FollowsGap.behindTrivia {source : String} {r : Reading} (h : r.FollowsGap)
    (hr : r.Placed source) : r.BehindTrivia source := by
  have hsound := Cursor.start_sound source.toList
  have hfull := hr.start_full.sound hsound
  obtain ⟨htext, hoffset⟩ := hr.start_full.passes hsound
  obtain ⟨hrest, hoffset'⟩ := hr.full_start.passes hfull
  have htrivia : r.full.textTo r.start = r.full.rest.take r.full.gap.size := by
    rw [h.start_eq, Cursor.textTo_skip _ hfull]
  have hbehind : r.start.rest = r.full.rest.drop r.full.gap.size := by
    rw [h.start_eq, Cursor.skip_rest]
  have hgap : r.full.gap = Trivia.extent _ r.full.rest := rfl
  rw [hr.start_full.atLineStart_eq] at hgap
  refine ⟨(Cursor.start source.toList).textTo r.full, r.full.textTo r.start, r.start.rest, ?_, ?_,
    ?_, ?_, ?_⟩
  · rw [List.append_assoc, ← hrest]
    exact htext
  · rw [hoffset]
    exact Nat.zero_add _
  · rw [hoffset', hoffset, String.ofList_append, String.utf8ByteSize_append]
    congr 1
    exact Nat.zero_add _
  · rw [htrivia, hbehind, hgap]
    exact Trivia.extent_longest _ _
  · rw [h.flag_eq, htrivia, hgap]
    exact Trivia.extent_lineBreak _ _

/-- Nothing but trivia stands between two offsets of a source. -/
def Trivia.Between (source : String) (pos stop : Nat) : Prop :=
  ∃ before trivia rest, source.toList = before ++ trivia ++ rest ∧
    pos = (String.ofList before).utf8ByteSize ∧
    stop = (String.ofList (before ++ trivia)).utf8ByteSize ∧ Trivia.Pieces before trivia rest

/-- Nothing but trivia stands in front of a token. -/
theorem Reading.Spaced.between {source : String} {r : Reading} (h : r.Spaced)
    (hr : r.Placed source) : Trivia.Between source r.full.offset r.start.offset := by
  rcases h with hgap | ⟨hstart, -, -⟩
  · obtain ⟨before, trivia, rest, htext, hfull, hstart, hlongest, -⟩ := hgap.behindTrivia hr
    exact ⟨before, trivia, rest, htext, hfull, hstart, hlongest.pieces⟩
  · obtain ⟨htext, hoffset⟩ := hr.start_full.passes (Cursor.start_sound source.toList)
    have hoffset : r.full.offset =
        (String.ofList ((Cursor.start source.toList).textTo r.full)).utf8ByteSize :=
      hoffset.trans (Nat.zero_add _)
    refine ⟨(Cursor.start source.toList).textTo r.full, [], r.full.rest, ?_, hoffset, ?_, .none⟩
    · rw [List.append_nil]
      exact htext
    · rw [List.append_nil, hstart, hoffset]

namespace Scanner.Session

/-- Whatever a client has asked of a scanner, scanning skips the longest trivia, and the flag of the
token tells whether they break a line. -/
theorem scan_behindTrivia (source : String) (shebang : Bool) (requests : List Request) :
    ((start source shebang).serve requests).scanner.scan.BehindTrivia source :=
  (scan_followsGap _).behindTrivia
    (advance_placed .plain (served_placed source shebang requests).present)

end Scanner.Session
end EcmaSyntax
