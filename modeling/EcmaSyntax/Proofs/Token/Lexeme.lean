import EcmaSyntax.Token.Scanner

/-! # Lexemes are not empty

Wherever a text begins, a lexeme that is read there takes at least one character, and is not taken
for the end of the source. Only the name at the front of a text is taken for a name, and it spells
no keyword but its own. -/
namespace EcmaSyntax

/-- A lexeme that takes something and is not the end of the source. -/
structure Lexeme.Proper (l : Lexeme) (text : List Char) : Prop where
  size_pos : 0 < l.size
  kind_ne : l.kind ≠ .endOfFileToken
  name_eq : l.kind.isName = true → l = name text

namespace Lexeme

/-- A lexeme that is not spelled like a name. -/
theorem Proper.of_kind {l : Lexeme} {text : List Char} (h : 0 < l.size)
    (hk : l.kind ≠ .endOfFileToken ∧ l.kind.isName = false) : l.Proper text :=
  ⟨h, hk.1, fun hname => absurd (hk.2.symm.trans hname) Bool.false_ne_true⟩

/-! ## Numbers -/

theorem numberOf_proper {isInteger : Bool} {body rest text : List Char} {flags : TokenFlags}
    (h : body ≠ []) : (numberOf isInteger body rest flags).Proper text := by
  have hlen := List.length_pos_iff.mpr h
  unfold numberOf
  split
  · exact .of_kind (Nat.succ_pos _) (by simp +decide)
  · exact .of_kind hlen (by simp +decide)

theorem digitRun_ne_nil {isDigit : Char → Bool} {c : Char} {rest : List Char}
    (h : isDigit c = true) : digitRun isDigit (c :: rest) ≠ [] := by
  simp [digitRun, h]

/-- What begins a number: a digit, or a point before a digit. -/
def StartsNumber (text : List Char) : Prop :=
  ∃ c rest, text = c :: rest ∧
    (Text.isDecimalDigit c || (c == '.' && rest.head?.any Text.isDecimalDigit)) = true

theorem mantissa_ne_nil {text : List Char} (h : StartsNumber text) :
    digitRun Text.isDecimalDigit text
      ++ fractionRun (text.drop (digitRun Text.isDecimalDigit text).length) ≠ [] := by
  obtain ⟨c, rest, rfl, hc⟩ := h
  by_cases hd : Text.isDecimalDigit c = true
  · simp [digitRun_ne_nil hd]
  · have hdot : c = '.' := by simp_all
    subst hdot
    simp [digitRun, hd, fractionRun]

theorem decimal_proper {text : List Char} (h : StartsNumber text) : (decimal text).Proper text := by
  dsimp only [decimal]
  split
  case isTrue hold =>
    have hlen : 1 < (digitRun Text.isDecimalDigit text).length := by
      simp only [isOldOctal, Bool.and_eq_true, decide_eq_true_eq] at hold
      exact hold.1.1
    exact .of_kind (Nat.lt_trans Nat.one_pos hlen) (by dsimp only; decide)
  · exact numberOf_proper (List.append_ne_nil_of_left_ne_nil (mantissa_ne_nil h) _)

theorem number_proper {text : List Char} (h : StartsNumber text) : (number text).Proper text := by
  unfold number
  split
  · split
    · exact numberOf_proper (by simp)
    · exact decimal_proper h
  · exact decimal_proper h

/-! ## Names -/

theorem nameRun_size_pos {isPart : Char → Bool} {c : Char} {rest : List Char}
    (h : isPart c = true ∨ (escape? (c :: rest)).isSome) :
    0 < (nameRun isPart 0 (c :: rest)).size := by
  unfold nameRun
  split
  · exact Nat.succ_pos _
  · split
    case h_1 hnone => simp_all
    · exact Nat.succ_pos _

/-- Keywords are spelled in small letters. -/
theorem ofKeyword?_lower {text : String} {k : Kind} (h : Kind.ofKeyword? text = some k) :
    k ≠ .endOfFileToken ∧ text.toList.all Char.isLower = true := by
  unfold Kind.ofKeyword? at h
  split at h <;> cases h <;> decide

theorem ofKeyword?_eq_none {text : List Char} {c : Char} (hc : c ∈ text)
    (h : c.isLower = false) : Kind.ofKeyword? (String.ofList text) = none := by
  cases hk : Kind.ofKeyword? (String.ofList text) with
  | none => rfl
  | some k =>
    have hall := (ofKeyword?_lower hk).2
    rw [String.toList_ofList, List.all_eq_true] at hall
    exact absurd ((hall c hc).symm.trans h) Bool.noConfusion

theorem escape?_head {c : Char} {rest : List Char} {e : Run} (h : escape? (c :: rest) = some e) :
    c = '\\' := by
  unfold escape? at h
  split at h
  case h_3 => cases h
  all_goals
    case _ heq =>
      cases heq
      rfl

/-- A run with an escape holds a backslash. -/
theorem nameRun_escape {isPart : Char → Bool} {n : Nat} {text : List Char}
    (h : (nameRun isPart n text).flags.has .unicodeEscape = true) :
    '\\' ∈ text.take (nameRun isPart n text).size := by
  induction text generalizing n with
  | nil => cases n <;> simp [nameRun] at h
  | cons c rest ih =>
    have hmore {n : Nat} (h : ((nameRun isPart n rest).after 1 ∅).flags.has .unicodeEscape = true) :
        '\\' ∈ (c :: rest).take ((nameRun isPart n rest).after 1 ∅).size := by
      rw [Run.after, FlagSet.has_union, FlagSet.has_empty, Bool.or_false] at h
      exact List.mem_cons_of_mem c (ih h)
    cases n with
    | succ n => exact hmore h
    | zero =>
      rw [nameRun] at h ⊢
      by_cases hc : isPart c = true
      · rw [if_pos hc] at h ⊢
        exact hmore h
      · rw [if_neg hc] at h ⊢
        cases he : escape? (c :: rest) with
        | none => simp [he] at h
        | some e =>
          rw [escape?_head he]
          exact List.mem_cons_self

theorem name_kind {text : List Char} {k : Kind}
    (h : Kind.ofKeyword? (String.ofList (text.take (name text).size)) = some k) :
    (name text).kind = k := by
  dsimp only [name] at h ⊢
  split
  case isTrue hescape =>
    rw [ofKeyword?_eq_none (nameRun_escape hescape) rfl] at h
    cases h
  · rw [h]
    rfl

theorem name_proper {c : Char} {rest : List Char} (h : startsName (c :: rest) = true) :
    (name (c :: rest)).Proper (c :: rest) := by
  refine ⟨?_, ?_, fun _ => rfl⟩
  · refine nameRun_size_pos ?_
    rw [startsName, Bool.or_eq_true] at h
    exact h.imp_left fun hc => by simp [Text.isNamePart, hc]
  · dsimp only [name]
    split
    · simp
    · cases hk : Kind.ofKeyword? _ with
      | none => simp
      | some k =>
        rintro rfl
        exact (ofKeyword?_lower hk).1 rfl

theorem privateName?_proper {rest text : List Char} {l : Lexeme}
    (h : privateName? rest = some l) : l.Proper text := by
  unfold privateName? at h
  split at h
  · cases h
  · split at h
    · cases h
      exact .of_kind (Nat.succ_pos _) (by simp +decide)
    · cases h

/-! ## Other lexemes -/

theorem punctuator?_proper {text : List Char} {kind : Kind} {size : Nat}
    (h : punctuator? text = some (kind, size)) :
    0 < size ∧ kind ≠ .endOfFileToken ∧ kind.isName = false := by
  unfold punctuator? at h
  -- only the question mark before a point asks about what follows
  split at h <;> (try split at h) <;> cases h <;> decide

theorem string_proper (quote : Char) (rest text : List Char) : (string quote rest).Proper text :=
  .of_kind (Nat.succ_pos _) (by dsimp only [string]; decide)

theorem template_proper (first : Bool) (rest text : List Char) :
    (template first rest).Proper text := by
  refine .of_kind (Nat.succ_pos _) ?_
  cases first <;> simp only [template] <;> split <;> decide

theorem regularExpression_proper (rest text : List Char) :
    (regularExpression rest).Proper text :=
  .of_kind (Nat.succ_pos _) (by dsimp only [regularExpression]; decide)

/-- What is read at the front of a text, by the sort of the lexeme. -/
inductive Reads : List Char → Lexeme → Prop
  | ended : Reads [] ⟨.endOfFileToken, 0, ∅, none⟩
  | number {text : List Char} (h : StartsNumber text) : Reads text (number text)
  | string {quote : Char} {rest : List Char} (h : quote = '\x22' ∨ quote = '\'') :
    Reads (quote :: rest) (string quote rest)
  | template {rest : List Char} : Reads ('\x60' :: rest) (template true rest)
  | privateName {rest : List Char} {l : Lexeme} (h : privateName? rest = some l) :
    Reads ('#' :: rest) l
  | punctuator {text : List Char} {kind : Kind} {size : Nat}
    (h : punctuator? text = some (kind, size)) : Reads text ⟨kind, size, ∅, none⟩
  | name {text : List Char} (h : startsName text = true) : Reads text (name text)
  | invalid {text : List Char} (hne : text ≠ []) (h : startsName text = false)
    (hp : punctuator? text = none) : Reads text read.invalid

theorem reads_of_read {text : List Char} {l : Lexeme} (h : read text = l) : Reads text l := by
  subst h
  unfold read
  split
  · exact .ended
  case h_2 c rest =>
    split
    case isTrue hc => exact .number ⟨c, rest, rfl, hc⟩
    split
    case isTrue hc => exact .string (by simpa using hc)
    split
    case isTrue hc =>
      rw [eq_of_beq hc]
      exact .template
    split
    case isTrue hc =>
      rw [eq_of_beq hc]
      cases hp : privateName? rest with
      | none =>
        have hsign : Text.isNameStart '#' = false := by decide +kernel
        exact .invalid (List.cons_ne_nil _ _) (by simp [startsName, hsign, escape?]) rfl
      | some l => exact .privateName hp
    split
    case h_1 hp => exact .punctuator hp
    case h_2 hp =>
      split
      case isTrue hname => exact .name hname
      case isFalse hname =>
        exact .invalid (List.cons_ne_nil _ _) (Bool.not_eq_true _ ▸ hname) hp

theorem read_proper {text : List Char} (h : text ≠ []) : (read text).Proper text := by
  generalize hread : read text = l
  cases reads_of_read hread with
  | ended => contradiction
  | number hc => exact number_proper hc
  | string _ => exact string_proper _ _ _
  | template => exact template_proper true _ _
  | privateName hp => exact privateName?_proper hp
  | punctuator hp =>
    obtain ⟨hsize, hkind⟩ := punctuator?_proper hp
    exact .of_kind hsize hkind
  | name hname =>
    obtain ⟨c, rest, rfl⟩ := List.exists_cons_of_ne_nil h
    exact name_proper hname
  | invalid => exact .of_kind Nat.one_pos (by decide)

@[simp] theorem read_nil : (read []).kind = .endOfFileToken := rfl

theorem childLexeme_proper {text : List Char} (h : text ≠ []) :
    (Scanner.childLexeme text).Proper text := by
  unfold Scanner.childLexeme
  split
  · contradiction
  · exact .of_kind Nat.two_pos (by decide)
  · exact .of_kind Nat.one_pos (by decide)
  · exact .of_kind Nat.one_pos (by decide)
  case h_5 hslash hless hbrace =>
    cases text with
    | nil => contradiction
    | cons c rest =>
      have hbody : c != '\x7b' ∧ c != '<' := by
        constructor
        · simpa using fun hc => hbrace rest (by rw [hc])
        · simpa using fun hc => hless rest (by rw [hc])
      exact .of_kind (by simp [hbody.1, hbody.2]) (by dsimp only; decide)

theorem plainString_proper (quote : Char) (rest text : List Char) :
    (Scanner.plainString quote rest).Proper text := by
  refine .of_kind ?_ (by dsimp only [Scanner.plainString]; decide)
  simp only [Scanner.plainString]
  split <;> omega

theorem greaterThan_kind (text : List Char) :
    (greaterThan text).1 ≠ .endOfFileToken ∧ (greaterThan text).1.isName = false := by
  unfold greaterThan
  split <;> decide

end Lexeme
end EcmaSyntax
