import EcmaSyntax.Proofs.Token.Munch

/-! # Punctuators

The longest punctuator of the table is taken, and it is the one that the table has for the kind of
the token. In three places only its first character is taken: a greater-than sign stands alone until
it is read anew, and is then the longest operator that begins so; a less-than sign joins with a
slash only among the children of an element; and a question mark stands alone before a point and a
digit. -/
namespace EcmaSyntax

/-- The punctuators of the table. -/
def Punctuator (text : List Char) : Prop :=
  ∃ k : Kind, k.punctuatorText = some (String.ofList text)

theorem Punctuator.exists_word {text : List Char} (h : Punctuator text) :
    ∃ (k : Kind) (word : String), k.punctuatorText = some word ∧ word.toList = text := by
  obtain ⟨k, hk⟩ := h
  exact ⟨k, _, hk, String.toList_ofList⟩

/-- Where scanning takes only the first character of a punctuator. -/
inductive Shortened : List Char → Prop
  | greaterThan {rest : List Char} : Shortened ('>' :: rest)
  | lessThanSlash {rest : List Char} : Shortened ('<' :: '/' :: rest)
  | questionDot {digit : Char} {rest : List Char} (h : Text.isDecimalDigit digit = true) :
    Shortened ('?' :: '.' :: digit :: rest)

theorem Kind.isPunctuation_iff {k : Kind} :
    k.isPunctuation = true ↔ k.punctuatorText ≠ none := by
  cases k <;> decide

namespace Lexeme
variable {k kind : Kind} {size : Nat} {word : String} {text rest : List Char}

/-! ## The longest punctuator -/

theorem punctuator?_questionDot (h : ¬ Shortened ('?' :: '.' :: rest)) :
    punctuator? ('?' :: '.' :: rest) = some (.questionDotToken, 2) := by
  refine if_neg fun hdigit => h ?_
  rw [Option.any_eq_true] at hdigit
  obtain ⟨digit, hhead, hdigit⟩ := hdigit
  obtain ⟨rest, rfl⟩ := List.head?_eq_some_iff.mp hhead
  exact .questionDot hdigit

/-- Where a punctuator of the table stands, none that is shorter is taken. -/
theorem punctuator?_longest (hword : k.punctuatorText = some word)
    (h : punctuator? (word.toList ++ rest) = some (kind, size))
    (hshort : ¬ Shortened (word.toList ++ rest)) : word.toList.length ≤ size := by
  unfold Kind.punctuatorText at hword
  split at hword <;> cases hword
  -- nothing is shorter than a single character
  all_goals try exact (punctuator?_proper h).1
  -- most others are taken whatever follows them
  all_goals try (cases h; exact Nat.le_refl _)
  all_goals try exact (hshort .greaterThan).elim
  all_goals try exact (hshort .lessThanSlash).elim
  all_goals try
    cases (punctuator?_questionDot hshort).symm.trans h
    exact Nat.le_refl _
  -- the rest are pairs, and only an equals sign can follow these in a punctuator
  all_goals
    cases rest with
    | nil =>
      cases h
      exact Nat.le_refl _
    | cons c rest =>
      by_cases hc : c = '='
      · subst hc
        cases h
        exact Nat.le_succ _
      · simp [punctuator?, hc] at h
        exact Nat.le_of_eq h.2

/-- A punctuator is taken that is the longest of the table where it stands. -/
theorem punctuator?_munch (h : punctuator? text = some (kind, size)) (hshort : ¬ Shortened text) :
    LongestFront Punctuator (text.take size) text := by
  refine ⟨⟨kind, punctuator?_text h⟩, List.take_prefix _ _, ?_⟩
  rintro other hother ⟨rest, rfl⟩
  obtain ⟨k, word, hk, rfl⟩ := hother.exists_word
  rw [List.length_take, List.length_append]
  exact Nat.le_min.mpr ⟨punctuator?_longest hk h hshort, Nat.le_add_right _ _⟩

theorem punctuator?_shortened (h : punctuator? text = some (kind, size)) (hshort : Shortened text) :
    size = 1 := by
  cases hshort with
  | greaterThan | lessThanSlash =>
    cases h
    rfl
  | questionDot hdigit =>
    cases (if_pos (by simpa using hdigit)).symm.trans h
    rfl

/-! ## Where punctuators are read -/

/-- The characters that begin punctuators. A number sign begins a private name instead, and a grave
accent a template. -/
def signs : List Char := "()\x7b\x7d[];,~@.?:<>=!+-*/%&|^".toList

theorem head_mem_signs (hword : k.punctuatorText = some word)
    (hne : word.toList ∉ [['#'], ['\x60']]) : ∃ c ∈ word.toList.head?, c ∈ signs := by
  unfold Kind.punctuatorText at hword
  split at hword <;> cases hword
  all_goals first | exact ⟨_, rfl, by decide⟩ | exact absurd (by decide) hne

theorem punctuator?_ne_none {c : Char} (h : c ∈ signs) : punctuator? (c :: rest) ≠ none := by
  intro hnone
  unfold punctuator? at hnone
  split at hnone
  all_goals try cases hnone
  · split at hnone <;> cases hnone
  · dsimp [signs] at h
    simp only [List.mem_cons, List.not_mem_nil, or_false] at h
    rcases h with rfl | rfl | rfl | rfl | rfl | rfl | rfl | rfl | rfl | rfl | rfl | rfl | rfl | rfl |
      rfl | rfl | rfl | rfl | rfl | rfl | rfl | rfl | rfl | rfl | rfl
    -- each of them is taken alone if nothing longer is
    all_goals grind

/-- A punctuator is read where one of the table stands, unless it begins a number, a private name
or a template. -/
theorem read_isPunctuation_iff : (read text).kind.isPunctuation = true ↔
    ¬ StartsNumber text ∧
      ∃ front, Punctuator front ∧ front ∉ [['#'], ['\x60']] ∧ front <+: text := by
  rw [Kind.isPunctuation_iff]
  constructor
  · intro hk
    refine ⟨fun hnumber => hk ?_, ?_⟩
    · rw [read_of_startsNumber hnumber]
      exact Kind.punctuatorText_of_isPlain (number_isPlain _)
    · obtain ⟨kind, size, hp, -⟩ := (read_punctuator _).resolve_left hk
      refine ⟨text.take size, ⟨kind, punctuator?_text hp⟩, fun hmem => ?_, List.take_prefix _ _⟩
      have htext := List.take_append_drop size text
      simp only [List.mem_cons, List.not_mem_nil, or_false] at hmem
      rcases hmem with hmem | hmem <;> rw [hmem] at htext <;> rw [← htext] at hp <;> cases hp
  · rintro ⟨hnumber, front, hpunctuator, hne, tail, rfl⟩
    obtain ⟨k, word, hword, rfl⟩ := hpunctuator.exists_word
    obtain ⟨c, hhead, hc⟩ := head_mem_signs hword hne
    obtain ⟨rest, hrest⟩ := List.head?_eq_some_iff.mp hhead
    rw [hrest, List.cons_append] at hnumber ⊢
    have hother (d : Char) (hd : d ∉ signs) : c ≠ d := fun h => hd (h ▸ hc)
    generalize hread : read (c :: (rest ++ tail)) = l
    cases reads_of_read hread with
    | number h => exact absurd h hnumber
    | string h => exact (h.elim (hother _ (by decide)) (hother _ (by decide))).elim
    | template => exact absurd rfl (hother '\x60' (by decide))
    | privateName => exact absurd rfl (hother '#' (by decide))
    | punctuator hp => rw [punctuator?_text hp]; exact Option.some_ne_none _
    | name h =>
      have hsigns : signs ⊆ Text.punctuation := by decide
      exact absurd (hsigns hc) (startsName_other h).2
    | invalid _ _ hp => exact absurd hp (punctuator?_ne_none hc)

/-! ## Operators that begin with a greater-than sign -/

theorem greaterThan_pair (rest : List Char) :
    1 ≤ (greaterThan ('>' :: rest)).2 ∧ 2 ≤ (greaterThan ('>' :: '>' :: rest)).2 := by
  constructor <;> unfold greaterThan <;> split <;> grind

/-- Behind a greater-than sign, no operator is taken that is shorter than one that stands there. -/
theorem greaterThan_longest (hword : k.punctuatorText = some word)
    (heq : word.toList ++ rest = '>' :: text) : word.toList.length ≤ (greaterThan text).2 + 1 := by
  unfold Kind.punctuatorText at hword
  split at hword <;> cases hword
  -- other punctuators begin otherwise
  all_goals try exact absurd (List.cons.inj heq).1 (by decide)
  all_goals
    dsimp at heq
    obtain ⟨-, rfl⟩ := List.cons.inj heq
  · exact Nat.le_add_left _ _
  · exact Nat.le_refl _
  · exact Nat.succ_le_succ (greaterThan_pair rest).1
  · exact Nat.succ_le_succ (greaterThan_pair rest).2
  · exact Nat.le_refl _
  · exact Nat.le_refl _

theorem greaterThan_munch (text : List Char) :
    LongestFront Punctuator ('>' :: text.take (greaterThan text).2) ('>' :: text) := by
  refine ⟨⟨_, greaterThan_text text⟩, List.cons_prefix_cons.mpr ⟨rfl, List.take_prefix _ _⟩, ?_⟩
  rintro other hother ⟨rest, heq⟩
  obtain ⟨k, word, hk, rfl⟩ := hother.exists_word
  have hle := greaterThan_longest hk heq
  have hlen := congrArg List.length heq
  rw [List.length_append, List.length_cons] at hlen
  rw [List.length_cons, List.length_take]
  omega

theorem childLexeme_lessThanSlash
    (h : (Scanner.childLexeme text).kind = .lessThanSlashToken) : ['<', '/'] <+: text := by
  unfold Scanner.childLexeme at h
  split at h
  case h_2 rest => exact ⟨rest, rfl⟩
  all_goals cases h

end Lexeme

/-! ## Tokens -/

/-- A token has the characters of its kind. It is the longest punctuator where it stands, or one
character where scanning takes no more. -/
structure Reading.Punctuated (r : Reading) : Prop where
  text_eq : r.token.punctuatorText = some r.text
  longest : ¬ Shortened r.start.rest → LongestFront Punctuator r.spelling r.start.rest
  shortened : Shortened r.start.rest → r.spelling = r.start.rest.take 1

namespace Reading
variable {r : Reading}

theorem Shows.punctuated (h : r.Shows (.read r.start.rest)) (hk : r.token.isPunctuation = true) :
    r.Punctuated := by
  rw [Kind.isPunctuation_iff, h.token_eq] at hk
  obtain ⟨kind, size, hp, hread⟩ := (Lexeme.read_punctuator _).resolve_left hk
  have hspelling : r.spelling = r.start.rest.take size := by rw [h.spelling_eq, hread]
  refine ⟨?_, fun hshort => ?_, fun hshort => ?_⟩
  · rw [h.token_eq, hread, Reading.text, hspelling]
    exact Lexeme.punctuator?_text hp
  · rw [hspelling]
    exact Lexeme.punctuator?_munch hp hshort
  · rw [hspelling, Lexeme.punctuator?_shortened hp hshort]

/-- A less-than sign does not join with a slash. -/
theorem Punctuated.ne_lessThanSlash (h : r.Punctuated) (hstands : r.spelling <+: r.start.rest) :
    r.token ≠ .lessThanSlashToken := by
  intro hk
  have htext : String.ofList ['<', '/'] = r.text := by
    have hkind := h.text_eq
    rw [hk] at hkind
    exact Option.some.inj hkind
  have hspelling : r.spelling = ['<', '/'] := by
    rw [← String.toList_ofList (l := r.spelling), ← String.toList_ofList (l := ['<', '/']), htext]
    rfl
  obtain ⟨rest, hrest⟩ := hstands
  rw [hspelling] at hrest
  have hshort := h.shortened (hrest ▸ .lessThanSlash)
  rw [hspelling, ← hrest] at hshort
  cases hshort

end Reading

namespace Scanner
variable {source : String} {s : Scanner}

/-- A greater-than sign is read anew as the longest punctuator that begins with it. -/
theorem reread_greaterThan (h : s.Placed source) (hk : s.token = .greaterThanToken) :
    let u := s.reread .greaterThan
    u.token.punctuatorText = some u.text ∧ LongestFront Punctuator u.spelling u.start.rest := by
  obtain ⟨hrest, hspelling⟩ := h.spelled.greaterThan_spelling h.start_sound h.start_stop hk
  have hreread : s.reread .greaterThan = { s with
      token := (Lexeme.greaterThan s.stop.rest).1
      stop := s.stop.skip (Lexeme.greaterThan s.stop.rest).2 } := if_pos (by rw [hk]; rfl)
  intro u
  have hu : u.spelling = '>' :: s.stop.rest.take (Lexeme.greaterThan s.stop.rest).2 := by
    change (s.reread .greaterThan).spelling = _
    rw [hreread]
    exact hspelling _
  have htext : u.token.punctuatorText = some u.text := by
    rw [Reading.text, hu]
    change (s.reread .greaterThan).token.punctuatorText = _
    rw [hreread]
    exact Lexeme.greaterThan_text _
  have hstart : u.start.rest = '>' :: s.stop.rest := by
    rw [← hrest, ← (reread_places (s := s) .greaterThan).2]
  rw [hu, hstart]
  exact ⟨htext, Lexeme.greaterThan_munch _⟩

/-- Only among the children of an element a less-than sign joins with a slash. -/
theorem advance_lessThanSlash (hs : s.stop.Sound) (way : Advance) :
    (s.advance way).token = .lessThanSlashToken ↔ way = .child ∧ ['<', '/'] <+: s.stop.rest := by
  constructor
  · intro h
    rcases advance_cases s way with heq | hother | hother | ⟨hway, hchild⟩
    · rw [heq] at h
      have hshows := scan_shows hs
      exact absurd h ((hshows.punctuated (by rw [h]; rfl)).ne_lessThanSlash
        ⟨_, hshows.rest_eq.symm⟩)
    · cases h.symm.trans hother
    · cases h.symm.trans hother
    · exact ⟨hway, Lexeme.childLexeme_lessThanSlash (hchild.symm.trans h)⟩
  · rintro ⟨rfl, rest, hrest⟩
    rw [advance, scanChild, take_reading, ← hrest]
    rfl

namespace Session

/-- Whatever a client has asked of a scanner, scanning takes a punctuator where one of the table
stands that begins no number, private name or template. It is the longest one, or its first
character in three places. -/
theorem serve_punctuated (source : String) (shebang : Bool) (requests : List Request) :
    let s := ((start source shebang).serve requests).scanner
    (s.scan.token.isPunctuation = true ↔ ¬ Lexeme.StartsNumber s.scan.start.rest ∧
        ∃ front, Punctuator front ∧ front ∉ [['#'], ['\x60']] ∧ front <+: s.scan.start.rest) ∧
      (s.scan.token.isPunctuation = true → s.scan.Punctuated) ∧
      (s.token = .greaterThanToken →
        let u := s.reread .greaterThan
        u.token.punctuatorText = some u.text ∧
          LongestFront Punctuator u.spelling u.start.rest) ∧
      (∀ way, (s.advance way).token = .lessThanSlashToken ↔
        way = .child ∧ ['<', '/'] <+: s.stop.rest) ∧
      ∀ way, (s.reread way).token = .lessThanSlashToken → s.reread way = s := by
  intro s
  have hserved := (served_placed source shebang requests).present
  have hshows := scan_shows hserved.stop_sound
  refine ⟨?_, hshows.punctuated, reread_greaterThan hserved,
    advance_lessThanSlash hserved.stop_sound,
    fun way h => reread_eq_of_token h (by cases way <;> decide)⟩
  rw [hshows.token_eq]
  exact Lexeme.read_isPunctuation_iff

/-- A question mark before a point and a digit, the longest operator that a greater-than sign
begins, and the end of an element. -/
theorem shift_assignment_reread :
    let s := ((start "?.5>>>=" false).serve []).scanner
    let t := ((start "?.5>>>=" false).serve
      [.advance .plain, .advance .plain, .advance .plain]).scanner
    let u := ((start "</" false).serve [.advance .child]).scanner
    s.scan.token = .questionToken ∧ s.scan.Punctuated ∧ t.text = ">" ∧
      (t.reread .greaterThan).text = ">>>=" ∧
      LongestFront Punctuator (t.reread .greaterThan).spelling (t.reread .greaterThan).start.rest ∧
      (u.reread .greaterThan).token = .lessThanSlashToken ∧ u.reread .greaterThan = u := by
  intro s t u
  have hs : s.scan.token = .questionToken := by decide +kernel
  have ht : t.token = .greaterThanToken := by decide +kernel
  have hu : (u.reread .greaterThan).token = .lessThanSlashToken := by decide +kernel
  exact ⟨hs, (serve_punctuated _ _ _).2.1 (hs ▸ rfl), by decide +kernel, by decide +kernel,
    ((serve_punctuated _ _ _).2.2.1 ht).2, hu, (serve_punctuated _ _ _).2.2.2.2 _ hu⟩

end Session
end Scanner
end EcmaSyntax
