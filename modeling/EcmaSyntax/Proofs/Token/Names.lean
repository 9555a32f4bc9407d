import EcmaSyntax.Proofs.Token.Munch
import EcmaSyntax.Proofs.Token.NameParts

/-! # Names

A name is taken up to its end, escapes included, and its kind is that of a keyword if and only if
its characters are those of the keyword, so that none is written with an escape. A private name is a
number sign with the longest name behind it. Only before a backslash and the letter `u` that begin
no escape the name behind the sign is missing. -/
namespace EcmaSyntax

/-- The characters of a name: parts of names, of which the first may start one. An escape may stand
anywhere in a name. -/
structure NameText (name : List Char) : Prop where
  parts : NameParts name
  starts : ∃ c ∈ name.head?, Text.isNameStart c = true ∨ c = '\\'

namespace NameText
variable {name text parts : List Char}

theorem ne_nil (h : NameText name) : name ≠ [] := by
  rintro rfl
  obtain ⟨c, hc, -⟩ := h.starts
  cases hc

/-- Where a name stands, one may start. -/
theorem startsName (h : NameText name) (hfront : name <+: text) :
    Lexeme.startsName text = true := by
  obtain ⟨rest, rfl⟩ := hfront
  obtain ⟨hparts, c, hc, hstart⟩ := h
  cases hparts with
  | nil => cases hc
  | @cons part parts hpart _ =>
    obtain ⟨d, part, rfl⟩ := List.exists_cons_of_ne_nil hpart.ne_nil
    obtain rfl : d = c := Option.some.inj hc
    rw [List.append_assoc, List.cons_append, Lexeme.startsName, Bool.or_eq_true]
    refine hstart.imp_right fun hslash => ?_
    subst hslash
    rcases hpart.escape?_size (parts ++ rest) with ⟨e, he, hpart⟩ | ⟨e, he, -⟩
    · obtain ⟨rfl, -⟩ := List.cons.inj he
      exact absurd hpart (by decide +kernel)
    · rw [← List.cons_append, he]
      rfl

/-- Parts of names where a name may start are a name. -/
theorem of_parts (h : Lexeme.startsName text = true) (hparts : NameParts parts)
    (hfront : parts <+: text) (hne : parts ≠ []) : NameText parts := by
  obtain ⟨rest, rfl⟩ := hfront
  obtain ⟨c, parts, rfl⟩ := List.exists_cons_of_ne_nil hne
  refine ⟨hparts, c, rfl, ?_⟩
  rw [List.cons_append, Lexeme.startsName, Bool.or_eq_true, Option.isSome_iff_exists] at h
  refine h.imp_right ?_
  rintro ⟨e, he⟩
  exact Lexeme.escape?_head he

/-- The run at the front of a text where a name may start is the longest name there. -/
theorem exists_longest (h : Lexeme.startsName text = true) :
    ∃ name rest, text = name ++ rest ∧
      (Lexeme.nameRun Text.isNamePart 0 text).size = name.length ∧
      LongestFront NameText name text := by
  obtain ⟨parts, rest, rfl, hsize, hparts, hlongest⟩ := NameParts.exists_longest text
  have hne : parts ≠ [] := by
    rintro rfl
    obtain ⟨c, rest, rfl⟩ : ∃ c tail, rest = c :: tail := by
      cases rest with
      | nil => cases h
      | cons c tail => exact ⟨c, tail, rfl⟩
    rw [List.nil_append, Lexeme.startsName, Bool.or_eq_true] at h
    have hpos := Lexeme.nameRun_size_pos
      (h.imp_left fun hc => show Text.isNamePart c = true by simp [Text.isNamePart, hc])
    exact absurd hsize (Nat.ne_of_gt hpos)
  have hfront : parts <+: parts ++ rest := List.prefix_append _ _
  refine ⟨parts, rest, rfl, hsize, of_parts h hparts hfront hne, hfront, ?_⟩
  rintro other hother ⟨tail, htail⟩
  exact hlongest other tail htail hother.parts

end NameText

namespace Lexeme
variable {text rest : List Char} {l : Lexeme} {k : Kind}

theorem startsName_iff : startsName text = true ↔ ∃ name, NameText name ∧ name <+: text := by
  refine ⟨fun h => ?_, fun ⟨_, hname, hfront⟩ => hname.startsName hfront⟩
  obtain ⟨name, _, -, -, hlongest⟩ := NameText.exists_longest h
  exact ⟨name, hlongest.holds, hlongest.stands⟩

/-! ## Keywords -/

/-- The kind of a name is that of a keyword if its characters are. -/
theorem name_kind_iff (hk : k.isAnyKeyword = true) :
    (name text).kind = k ↔ k.keywordText = some (String.ofList (text.take (name text).size)) := by
  rw [← Kind.ofKeyword?_iff]
  exact ⟨fun h => h ▸ (name_spelled text).keyword (h ▸ hk), name_kind⟩

/-- A name is no keyword if its characters are those of none. -/
theorem name_identifier_iff : (name text).kind = .identifier ↔
    ∀ k : Kind, k.keywordText ≠ some (String.ofList (text.take (name text).size)) := by
  simp only [ne_eq, ← Kind.ofKeyword?_iff]
  constructor
  · intro h k hk
    have heq := (name_kind hk).symm.trans h
    rw [heq] at hk
    cases (Kind.ofKeyword?_kind hk).1
  · intro h
    have hnone := Option.eq_none_iff_forall_not_mem.mpr h
    unfold name at hnone ⊢
    dsimp only at hnone ⊢
    rw [hnone]
    split <;> rfl

/-! ## Private names -/

/-- What stands behind a number sign is the longest name, or none before what looks like an
escape. -/
theorem privateName?_splits (h : privateName? rest = some l) :
    ∃ name behind, rest = name ++ behind ∧ l.size = name.length + 1 ∧
      (LongestFront NameText name rest ∨
        name = [] ∧ ['\\', 'u'] <+: behind ∧ startsName behind = false) := by
  unfold privateName? at h
  split at h
  · cases h
  case h_2 c rest =>
    split at h
    case isFalse => cases h
    case isTrue hstart =>
      obtain rfl := Option.some.inj h
      dsimp only
      cases hname : startsName (c :: rest) with
      | true =>
        obtain ⟨name, behind, htext, hsize, hlongest⟩ := NameText.exists_longest hname
        exact ⟨name, behind, htext, congrArg (· + 1) hsize, .inl hlongest⟩
      | false =>
        rw [startsName, Bool.or_eq_false_iff] at hname
        simp only [hname.1, Bool.false_or, Bool.and_eq_true, beq_iff_eq,
          List.head?_eq_some_iff] at hstart
        obtain ⟨rfl, tail, rfl⟩ := hstart
        have hslash : Text.isNamePart '\\' = false := by decide +kernel
        have hescape := Option.isNone_iff_eq_none.mp (Option.isSome_eq_false_iff.mp hname.2)
        have hrun : (nameRun Text.isNamePart 0 ('\\' :: 'u' :: tail)).size = 0 := by
          rw [nameRun, hslash, hescape]
          rfl
        refine ⟨[], _, rfl, by rw [hrun]; rfl, .inr ⟨rfl, ⟨tail, rfl⟩, ?_⟩⟩
        rw [startsName, hname.1, hname.2]
        rfl

theorem read_private (h : (read text).kind = .privateIdentifier) :
    ∃ rest, text = '#' :: rest ∧ privateName? rest = some (read text) := by
  have hname : ¬ (read text).kind.isName = true := by
    rw [h]
    exact Bool.false_ne_true
  generalize hread : read text = l at h hname ⊢
  cases reads_of_read hread with
  | privateName hp => exact ⟨_, rfl, hp⟩
  | ended | string | invalid => cases h
  | number => rcases number_kind text with hk | hk <;> rw [hk] at h <;> cases h
  | @template rest =>
    rcases template_kind rest with hk | hk <;> rw [hk] at h <;> cases h
  | punctuator hp =>
    subst h
    cases punctuator?_text hp
  | name => exact absurd (name_isName text) hname

end Lexeme

/-! ## Tokens -/

/-- A token has the characters of the longest name where it starts, and the kind that these tell. -/
structure Reading.Named (r : Reading) : Prop where
  longest : LongestFront NameText r.spelling r.start.rest
  keyword_iff : ∀ k : Kind, k.isAnyKeyword = true → (r.token = k ↔ k.keywordText = some r.text)
  identifier_iff : r.token = .identifier ↔ ∀ k : Kind, k.keywordText ≠ some r.text
  escaped : '\\' ∈ r.spelling → r.token = .identifier

/-- A token is a number sign with the longest name behind it, or it stands alone before what looks
like an escape, and no name is there. -/
def Reading.PrivatelyNamed (r : Reading) : Prop :=
  ∃ name, r.start.rest = '#' :: (name ++ r.stop.rest) ∧ r.spelling = '#' :: name ∧
    (LongestFront NameText name (name ++ r.stop.rest) ∨
      name = [] ∧ ['\\', 'u'] <+: r.stop.rest ∧
        ¬ ∃ other, NameText other ∧ other <+: r.stop.rest)

namespace Reading.Shows
variable {r : Reading}

theorem named (h : r.Shows (.read r.start.rest)) (hk : r.token.isName = true) : r.Named := by
  have hname : Lexeme.startsName r.start.rest = true := by
    rwa [h.token_eq, Lexeme.read_isName_iff] at hk
  have hread := Lexeme.read_of_startsName hname
  obtain ⟨name, rest, htext, hsize, hlongest⟩ := NameText.exists_longest hname
  have hspelling : r.spelling = r.start.rest.take (Lexeme.name r.start.rest).size := by
    rw [h.spelling_eq, hread]
  have hfront : r.start.rest.take (Lexeme.name r.start.rest).size = name := by
    change r.start.rest.take (Lexeme.nameRun Text.isNamePart 0 r.start.rest).size = name
    rw [hsize, htext, List.take_left]
  refine ⟨by rwa [hspelling, hfront], fun k hk => ?_, ?_, fun hslash => ?_⟩
  · rw [h.token_eq, hread, Reading.text, hspelling]
    exact Lexeme.name_kind_iff hk
  · rw [h.token_eq, hread, Reading.text, hspelling]
    exact Lexeme.name_identifier_iff
  · rw [h.token_eq, hread, Lexeme.name_identifier_iff, ← hspelling]
    intro k hk
    have hnone := Lexeme.ofKeyword?_eq_none hslash rfl
    cases hnone.symm.trans (Kind.ofKeyword?_iff.mpr hk)

theorem privatelyNamed (h : r.Shows (.read r.start.rest)) (hk : r.token = .privateIdentifier) :
    r.PrivatelyNamed := by
  obtain ⟨text, htext, hprivate⟩ := Lexeme.read_private (h.token_eq.symm.trans hk)
  obtain ⟨name, behind, rfl, hsize, hname⟩ := Lexeme.privateName?_splits hprivate
  have hspelling : r.spelling = '#' :: name := by
    rw [h.spelling_eq, hsize, htext, List.take_succ_cons, List.take_left]
  have hbehind : r.stop.rest = behind := by
    have hrest := h.rest_eq
    rw [htext, hspelling, List.cons_append] at hrest
    exact (List.append_cancel_left (List.cons.inj hrest).2).symm
  refine ⟨name, by rw [htext, hbehind], hspelling, ?_⟩
  rw [hbehind]
  exact hname.imp_right fun ⟨hnil, hescape, hstart⟩ =>
    ⟨hnil, hescape, fun hother => Bool.false_ne_true (hstart ▸ Lexeme.startsName_iff.mpr hother)⟩

end Reading.Shows

namespace Scanner

/-- Every private name is read by scanning. -/
theorem advance_privatelyNamed {s : Scanner} (way : Advance) (hs : s.stop.Sound)
    (hk : (s.advance way).token = .privateIdentifier) : (s.advance way).PrivatelyNamed := by
  rcases advance_cases s way with heq | hother | hother | ⟨-, hother⟩
  · rw [heq] at hk ⊢
    exact (scan_shows hs).privatelyNamed hk
  · cases hk.symm.trans hother
  · cases hk.symm.trans hother
  · have hchild := hother.symm.trans hk
    unfold childLexeme at hchild
    split at hchild <;> cases hchild

namespace Session

/-- Whatever a client has asked of a scanner, scanning takes the longest name where one stands, and
private names are number signs with the longest names behind them. -/
theorem serve_named (source : String) (shebang : Bool) (requests : List Request) :
    let s := ((start source shebang).serve requests).scanner
    (s.scan.token.isName = true ↔ ∃ name, NameText name ∧ name <+: s.scan.start.rest) ∧
      (s.scan.token.isName = true → s.scan.Named) ∧
      (s.token = .privateIdentifier → s.PrivatelyNamed) := by
  intro s
  have hserved : ((start source shebang).serve requests).All fun r =>
      r.Placed source ∧ (r.token = .privateIdentifier → r.PrivatelyNamed) :=
    (All.start shebang ⟨ofText_placed source, nofun⟩
      ⟨skipShebang_placed source, fun hk => nomatch (skipShebang_token _).symm.trans hk⟩).serve
      (fun t way h => ⟨advance_placed way h.1, advance_privatelyNamed way h.1.stop_sound⟩)
      (fun t way h => ⟨reread_placed way h.1, fun hk => by
        have heq := reread_eq_of_token hk (by cases way <;> decide)
        rw [heq] at hk ⊢
        exact h.2 hk⟩) requests
  have hshows := scan_shows hserved.present.1.stop_sound
  refine ⟨?_, hshows.named, hserved.present.2⟩
  rw [hshows.token_eq, Lexeme.read_isName_iff]
  exact Lexeme.startsName_iff

/-- A name that an escape begins is no keyword. -/
theorem escaped_word_named :
    let s := (start "\\u0069f" false).serve []
    let t := (start "#\\u\x7b62\x7dc.d" false).serve [.advance .plain]
    s.scanner.scan.token.isName = true ∧ s.scanner.scan.Named ∧
      t.scanner.token = .privateIdentifier ∧ t.scanner.PrivatelyNamed := by
  intro s t
  have hs : s.scanner.scan.token.isName = true := by decide +kernel
  have ht : t.scanner.token = .privateIdentifier := by decide +kernel
  exact ⟨hs, (serve_named _ _ _).2.1 hs, ht, (serve_named _ _ _).2.2 ht⟩

/-- A number sign is a private name without any character of a name, and nothing is reported. -/
theorem lone_sign_private :
    let s := (start "#\\u" false).serve [.advance .plain]
    s.scanner.token = .privateIdentifier ∧ s.scanner.pending.toList = [] ∧
      ¬ ∃ name, s.scanner.spelling = '#' :: name ∧ NameText name := by
  intro s
  have hspelling : s.scanner.spelling = ['#'] := by decide +kernel
  refine ⟨by decide +kernel, by decide +kernel, fun ⟨name, hname, h⟩ => h.ne_nil ?_⟩
  rw [hspelling] at hname
  exact (List.cons.inj hname).2.symm

end Session
end Scanner
end EcmaSyntax
