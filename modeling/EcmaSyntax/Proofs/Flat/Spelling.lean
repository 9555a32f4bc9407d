import EcmaSyntax.Proofs.Flat.Tree
import EcmaSyntax.Proofs.Token.Munch
import Mathlib.Tactic.FinCases

/-! # Spelling of flat expressions

Names and operators with single blanks between them. A name is read up to the blank behind it, and
an operator too, except that of the operators that begin with a greater-than sign only the sign is
read at first. -/
namespace EcmaSyntax

/-! ## Words -/

/-- Characters of names, of which the first may begin one. -/
structure IsWord (word : List Char) : Prop where
  begins : ∃ c ∈ word.head?, Text.isNameStart c = true
  parts : ∀ c ∈ word, Text.isNamePart c = true

/-- A text that does not continue a word in front of it. -/
def EndsWord (text : List Char) : Prop :=
  ∃ c ∈ text.head?, Text.isNamePart c = false ∧ c ≠ '\\'

namespace Lexeme
variable {word text : List Char}

theorem nameRun_word (hword : ∀ c ∈ word, Text.isNamePart c = true) (htext : EndsWord text) :
    nameRun Text.isNamePart 0 (word ++ text) = ⟨word.length, ∅⟩ := by
  induction word with
  | nil =>
    obtain ⟨c, hc, hpart, hslash⟩ := htext
    obtain ⟨rest, rfl⟩ := List.head?_eq_some_iff.mp hc
    have hescape : escape? (c :: rest) = none :=
      Option.eq_none_iff_forall_not_mem.mpr fun e he => hslash (escape?_head he)
    rw [List.nil_append, nameRun, if_neg (by simp [hpart]), hescape]
    rfl
  | cons c word ih =>
    rw [List.cons_append, nameRun, if_pos (hword c List.mem_cons_self),
      ih fun c hc => hword c (List.mem_cons_of_mem _ hc)]
    exact congrArg (fun bits => Run.mk (word.length + 1) ⟨bits⟩) (Nat.or_self 0)

/-- A word is read up to its end. -/
theorem read_word (hword : IsWord word) (htext : EndsWord text) :
    read (word ++ text) =
      ⟨(Kind.ofKeyword? (String.ofList word)).getD .identifier, word.length, ∅, none⟩ := by
  have hrun := nameRun_word hword.parts htext
  have hstarts : startsName (word ++ text) = true := by
    obtain ⟨c, hc, hstart⟩ := hword.begins
    obtain ⟨rest, rfl⟩ := List.head?_eq_some_iff.mp hc
    simp [startsName, hstart]
  rw [read_of_startsName hstarts, name, hrun]
  simp

end Lexeme

/-! ## Operators -/

namespace Kind

/-- The characters of an operator. -/
def chars (k : Kind) : List Char := (k.text.getD "").toList

/-- The token that is read at an operator: of those that begin with a greater-than sign only the
sign. -/
def scanned : Kind → Kind
  | .greaterThanEqualsToken | .greaterThanGreaterThanToken
  | .greaterThanGreaterThanGreaterThanToken => .greaterThanToken
  | k => k

/-- The characters of an operator behind those of the token that is read at first. -/
def extension (k : Kind) : List Char := k.chars.drop k.scanned.chars.length

def valueOperators : List Kind :=
  [.questionQuestionToken, .barBarToken, .ampersandAmpersandToken, .barToken, .caretToken,
    .ampersandToken, .equalsEqualsToken, .exclamationEqualsToken, .equalsEqualsEqualsToken,
    .exclamationEqualsEqualsToken, .lessThanToken, .greaterThanToken, .lessThanEqualsToken,
    .greaterThanEqualsToken, .instanceOfKeyword, .inKeyword, .lessThanLessThanToken,
    .greaterThanGreaterThanToken, .greaterThanGreaterThanGreaterThanToken, .plusToken,
    .minusToken, .asteriskToken, .slashToken, .percentToken, .asteriskAsteriskToken]

theorem IsValueOperator.mem {k : Kind} (h : k.IsValueOperator) : k ∈ valueOperators := by
  obtain ⟨hbinary, hsort⟩ := h
  revert hbinary hsort
  unfold Precedence.ofOperator
  split
  case h_28 => exact fun h => absurd h (by decide)
  all_goals decide

theorem IsValueOperator.chars_eq {k : Kind} (h : k.IsValueOperator) :
    k.chars = k.scanned.chars ++ k.extension ∧
      (k.scanned = .greaterThanToken ∨ k.scanned = k ∧ k.extension = []) ∧
      '(' ∉ k.chars ∧ '\x60' ∉ k.chars := by
  have hall : ∀ k ∈ valueOperators, k.chars = k.scanned.chars ++ k.extension ∧
      (k.scanned = .greaterThanToken ∨ k.scanned = k ∧ k.extension = []) ∧
      '(' ∉ k.chars ∧ '\x60' ∉ k.chars := by decide +kernel
  exact hall k h.mem

end Kind

theorem endsWord_blank (text : List Char) : EndsWord (' ' :: text) :=
  ⟨' ', rfl, by decide +kernel, by decide⟩

namespace Lexeme

/-- What is read at an operator before a blank. -/
theorem read_operator {k : Kind} (h : k.IsValueOperator) (text : List Char) :
    read (k.chars ++ ' ' :: text) = ⟨k.scanned, k.scanned.chars.length, ∅, none⟩ := by
  have hmem := h.mem
  clear h
  have hword (h : IsWord k.chars) := read_word h (endsWord_blank text)
  fin_cases hmem
  case «14» | «15» =>
    refine (hword ⟨⟨'i', rfl, by decide +kernel⟩, List.all_eq_true.mp (by decide +kernel)⟩).trans ?_
    rfl
  all_goals rfl

/-- A greater-than sign is extended to the operator that begins with it. -/
theorem greaterThan_operator {k : Kind} (h : k.IsValueOperator)
    (hscanned : k.scanned = .greaterThanToken) (text : List Char) :
    greaterThan (k.extension ++ ' ' :: text) = (k, k.extension.length) := by
  have hmem := h.mem
  clear h
  fin_cases hmem
  all_goals first | rfl | cases hscanned

end Lexeme

/-! ## Trivia -/

namespace Trivia
variable {word text : List Char}

theorem extent_word (hword : IsWord word) (atLineStart : Bool) :
    extent (.betweenTokens atLineStart) (word ++ text) = {} := by
  obtain ⟨c, hc, hstart⟩ := hword.begins
  obtain ⟨rest, rfl⟩ := List.head?_eq_some_iff.mp hc
  obtain ⟨-, hblank, hterminator, hother⟩ := Text.isNameStart_other hstart
  have hne (d : Char) (hd : d ∈ Text.punctuation) : c ≠ d := fun h => hother (h ▸ hd)
  have hconflict : isConflictMarker (c :: (rest ++ text)) = false := by
    simp [isConflictMarker, hne '<' (by decide), hne '>' (by decide), hne '=' (by decide),
      hne '|' (by decide)]
  have hslash := hne '/' (by decide)
  rw [List.cons_append, extent]
  · simp [hblank, hterminator, hconflict]
  · simp [hslash]
  · simp [hslash]

/-- Before a blank an operator begins no comment. -/
theorem extent_operator {k : Kind} (h : k.IsValueOperator) (text : List Char) :
    extent (.betweenTokens false) (k.chars ++ ' ' :: text) = {} := by
  have hmem := h.mem
  clear h
  fin_cases hmem
  all_goals rfl

theorem extent_blank (atLineStart : Bool) (text : List Char) :
    extent (.betweenTokens atLineStart) (' ' :: text) =
      (extent (.betweenTokens false) text).after 1 := rfl

end Trivia

/-! ## Flat expressions -/

/-- A word that is no keyword. -/
structure IsPlainName (text : String) : Prop where
  word : IsWord text.toList
  plain : Kind.ofKeyword? text = none

instance (text : String) : Decidable (IsPlainName text) :=
  decidable_of_iff (text.toList.head?.any Text.isNameStart = true ∧
      text.toList.all Text.isNamePart = true ∧ Kind.ofKeyword? text = none)
    ⟨fun h => ⟨⟨(Option.any_eq_true _ _).mp h.1, List.all_eq_true.mp h.2.1⟩, h.2.2⟩, fun h =>
      ⟨(Option.any_eq_true _ _).mpr h.word.begins, List.all_eq_true.mpr h.word.parts, h.plain⟩⟩

/-- Names and operators with single blanks between them, before an ending. -/
def flatText (ending first : String) : List (Kind × String) → String
  | [] => first ++ ending
  | (k, x) :: rest => first ++ " " ++ k.text.getD "" ++ " " ++ flatText ending x rest

/-- What stands behind the first name. -/
def flatTail (ending : String) : List (Kind × String) → List Char
  | [] => ending.toList
  | (k, x) :: rest => ' ' :: (k.chars ++ ' ' :: (x.toList ++ flatTail ending rest))

theorem toList_flatText (ending first : String) (rest : List (Kind × String)) :
    (flatText ending first rest).toList = first.toList ++ flatTail ending rest := by
  induction rest generalizing first with
  | nil => rw [flatText, flatTail, String.toList_append]
  | cons o rest ih =>
    obtain ⟨k, x⟩ := o
    simp [flatText, flatTail, ih, Kind.chars]

/-- Operators between values, each with a name behind it. -/
def AreOperations (rest : List (Kind × String)) : Prop :=
  ∀ o ∈ rest, o.1.IsValueOperator ∧ IsPlainName o.2

instance (rest : List (Kind × String)) : Decidable (AreOperations rest) :=
  inferInstanceAs (Decidable (∀ o ∈ rest, _))

section Flat
variable {ending first : String} {rest : List (Kind × String)}

/-- A semicolon, which a blank may precede. -/
def EndsStatement (ending : String) : Prop := ending = ";" ∨ ending = " ;"

theorem EndsStatement.endsWord (h : EndsStatement ending) : EndsWord ending.toList := by
  rcases h with rfl | rfl
  · exact ⟨';', rfl, by decide +kernel, by decide⟩
  · exact endsWord_blank _

theorem endsWord_flatTail (hending : EndsStatement ending) (rest : List (Kind × String)) :
    EndsWord (flatTail ending rest) := by
  cases rest with
  | nil => exact hending.endsWord
  | cons => exact endsWord_blank _

/-- Neither a call nor a template can be found in a flat expression. -/
theorem not_mem_flatText (hending : EndsStatement ending) (hfirst : IsPlainName first)
    (hrest : AreOperations rest) :
    '(' ∉ (flatText ending first rest).toList ∧ '\x60' ∉ (flatText ending first rest).toList := by
  have hname {x : String} (hx : IsPlainName x) : '(' ∉ x.toList ∧ '\x60' ∉ x.toList := by
    constructor
    all_goals
      intro hmem
      exact absurd (hx.word.parts _ hmem) (by decide +kernel)
  rw [toList_flatText]
  induction rest generalizing first with
  | nil =>
    have hend : '(' ∉ ending.toList ∧ '\x60' ∉ ending.toList := by
      rcases hending with rfl | rfl <;> decide
    simp [flatTail, hname hfirst, hend]
  | cons o rest ih =>
    obtain ⟨⟨hk, hx⟩, hrest⟩ := List.forall_mem_cons.mp hrest
    have := ih hx hrest
    obtain ⟨-, -, hparen, htick⟩ := hk.chars_eq
    simp_all [flatTail]

end Flat
end EcmaSyntax
