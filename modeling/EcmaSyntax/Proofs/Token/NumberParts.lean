import EcmaSyntax.Proofs.Token.Munch

/-! # Parts of numbers

A decimal number is read part by part: the digits, a point and the digits behind it, an exponent.
Each part is the longest that can stand in its place, and a part before a character that cannot
continue it is what is read of it. -/
namespace EcmaSyntax

/-! ## How numbers are written -/

/-- Digits, with underscores among them. -/
def Digits (isDigit : Char → Bool) (text : List Char) : Prop :=
  ∀ c ∈ text, c = '_' ∨ isDigit c = true

/-- A base that a letter behind a leading zero stands for. -/
inductive Base
  | hexadecimal | binary | octal
deriving DecidableEq

namespace Base

def letters : Base → List Char
  | hexadecimal => ['x', 'X']
  | binary => ['b', 'B']
  | octal => ['o', 'O']

def isDigit : Base → Char → Bool
  | hexadecimal => Text.isHexDigit
  | binary => Text.isBinaryDigit
  | octal => Text.isOctalDigit

def flag : Base → TokenFlag
  | hexadecimal => .hexSpecifier
  | binary => .binarySpecifier
  | octal => .octalSpecifier

/-- A zero and a letter of the base stand in front. -/
def Marks (b : Base) (text : List Char) : Prop := ∃ letter ∈ b.letters, ['0', letter] <+: text

end Base

/-- The digits of a decimal number, with a point or without one. -/
inductive Mantissa : List Char → Prop
  | whole {digits : List Char} (hne : digits ≠ []) (h : Digits Text.isDecimalDigit digits) :
    Mantissa digits
  | fraction {whole digits : List Char} (hwhole : Digits Text.isDecimalDigit whole)
    (h : Digits Text.isDecimalDigit digits) : Mantissa (whole ++ '.' :: digits)

/-- An exponent has a digit first, behind a sign if there is one. -/
inductive Exponent : List Char → Prop
  | mk {e first : Char} {sign digits : List Char} (he : e = 'e' ∨ e = 'E')
    (hsign : sign = [] ∨ sign = ['+'] ∨ sign = ['-']) (hfirst : Text.isDecimalDigit first = true)
    (h : Digits Text.isDecimalDigit digits) : Exponent (e :: (sign ++ first :: digits))

/-- A decimal number with an exponent. -/
inductive Scientific : List Char → Prop
  | mk {mantissa exponent : List Char} (hm : Mantissa mantissa) (he : Exponent exponent) :
    Scientific (mantissa ++ exponent)

/-- What an integer may have behind it, and other numbers may not. -/
def IntegerMark (isInteger : Bool) (mark : List Char) : Prop :=
  mark = [] ∨ isInteger = true ∧ mark = ['n']

/-- How a number is written, apart from the older octal numbers. -/
inductive Numeral : List Char → Prop
  | based {b : Base} {letter : Char} {digits mark : List Char} (hletter : letter ∈ b.letters)
    (h : Digits b.isDigit digits) (hmark : IntegerMark true mark) :
    Numeral ('0' :: letter :: (digits ++ mark))
  | decimal {text : List Char} (h : Mantissa text) : Numeral text
  | scientific {text : List Char} (h : Scientific text) : Numeral text
  | integer {digits : List Char} (hne : digits ≠ []) (h : Digits Text.isDecimalDigit digits) :
    Numeral (digits ++ ['n'])

/-- An older octal number: a zero before other octal digits. -/
inductive OldOctal : List Char → Prop
  | mk {digits : List Char} (hne : digits ≠ []) (h : ∀ c ∈ digits, Text.isOctalDigit c = true) :
    OldOctal ('0' :: digits)

/-- What the characters of a number call for. -/
def CallsFor (text : List Char) : TokenFlag → Prop
  | .containsSeparator => '_' ∈ text
  | .scientific => Scientific text
  | .octal => OldOctal text
  | .hexSpecifier => Base.hexadecimal.Marks text
  | .binarySpecifier => Base.binary.Marks text
  | .octalSpecifier => Base.octal.Marks text
  | _ => False

/-! ## Their characters -/

namespace Text

/-- The characters of decimal numbers. -/
def isDecimalPart (c : Char) : Bool :=
  c == '_' || isDecimalDigit c || ['.', 'e', 'E', '+', '-'].contains c

theorem isDecimalPart_of_digit {c : Char} (h : c = '_' ∨ isDecimalDigit c = true) :
    isDecimalPart c = true := by
  rcases h with rfl | h
  · rfl
  · simp [isDecimalPart, h]

theorem isDecimalDigit_of_octal {c : Char} (h : isOctalDigit c = true) :
    isDecimalDigit c = true := by
  simp only [isOctalDigit, isDecimalDigit, Bool.and_eq_true, decide_eq_true_eq] at h ⊢
  exact ⟨h.1, Char.le_trans h.2 (by decide)⟩

end Text

namespace Base
variable {b b' : Base} {letter c : Char} {text tail : List Char}

theorem letters_not_part (h : letter ∈ b.letters) :
    Text.isDecimalPart letter = false ∧ letter ≠ 'n' := by
  have hall : b.letters.all (fun c => !Text.isDecimalPart c && c != 'n') = true := by
    cases b <;> decide +kernel
  simpa using List.all_eq_true.mp hall letter h

theorem eq_of_letter (h : letter ∈ b.letters) (h' : letter ∈ b'.letters) : b' = b := by
  cases b <;> cases b' <;>
    simp only [letters, List.mem_cons, List.not_mem_nil, or_false] at h h' <;>
    rcases h with rfl | rfl <;> first | rfl | exact absurd h' (by decide)

theorem marks_iff (h : letter ∈ b.letters) : b'.Marks ('0' :: letter :: tail) ↔ b' = b := by
  constructor
  · rintro ⟨other, hother, hfront⟩
    have heq := (List.cons_prefix_cons.mp (List.cons_prefix_cons.mp hfront).2).1
    exact eq_of_letter h (heq ▸ hother)
  · rintro rfl
    exact ⟨letter, h, tail, rfl⟩

/-- Decimal numbers have no letter of a base. -/
theorem not_marks_of_parts (b : Base) (h : ∀ c ∈ text, Text.isDecimalPart c = true ∨ c = 'n') :
    ¬ b.Marks text := by
  rintro ⟨letter, hletter, hfront⟩
  obtain ⟨hpart, hn⟩ := letters_not_part hletter
  exact (h letter (hfront.subset (by simp))).elim (fun h => Bool.false_ne_true (hpart ▸ h)) hn

theorem has_flag {f : TokenFlag} : (b.flag : TokenFlags).has f = true ↔ f = b.flag := by
  cases b <;> cases f <;> decide

theorem not_digit_n : b.isDigit 'n' = false := by cases b <;> decide

theorem radix?_of_letter (h : letter ∈ b.letters) :
    Lexeme.radix? letter = some (b.flag, b.isDigit) := by
  cases b <;> simp only [letters, List.mem_cons, List.not_mem_nil, or_false] at h <;>
    rcases h with rfl | rfl <;> rfl

theorem exists_letter {p : TokenFlag × (Char → Bool)} (h : Lexeme.radix? letter = some p) :
    ∃ b : Base, letter ∈ b.letters := by
  unfold Lexeme.radix? at h
  split at h
  · exact ⟨hexadecimal, by decide⟩
  · exact ⟨hexadecimal, by decide⟩
  · exact ⟨binary, by decide⟩
  · exact ⟨binary, by decide⟩
  · exact ⟨octal, by decide⟩
  · exact ⟨octal, by decide⟩
  · cases h

end Base

section Characters
variable {text : List Char} {c : Char}

theorem Mantissa.parts (h : Mantissa text) (hc : c ∈ text) : Text.isDecimalPart c = true := by
  cases h with
  | whole _ h => exact Text.isDecimalPart_of_digit (h c hc)
  | fraction hwhole h =>
    rcases List.mem_append.mp hc with hc | hc
    · exact Text.isDecimalPart_of_digit (hwhole c hc)
    · rcases List.mem_cons.mp hc with rfl | hc
      · decide
      · exact Text.isDecimalPart_of_digit (h c hc)

theorem Exponent.parts (h : Exponent text) (hc : c ∈ text) : Text.isDecimalPart c = true := by
  obtain ⟨he, hsign, hfirst, h⟩ := h
  rcases List.mem_cons.mp hc with rfl | hc
  · rcases he with rfl | rfl <;> decide
  rcases List.mem_append.mp hc with hc | hc
  · rcases hsign with rfl | rfl | rfl
    · cases hc
    · rw [List.mem_singleton.mp hc]
      decide
    · rw [List.mem_singleton.mp hc]
      decide
  · rcases List.mem_cons.mp hc with rfl | hc
    · exact Text.isDecimalPart_of_digit (.inr hfirst)
    · exact Text.isDecimalPart_of_digit (h c hc)

theorem Exponent.head (h : Exponent text) : ∃ e rest, text = e :: rest ∧ (e = 'e' ∨ e = 'E') := by
  obtain ⟨he, _, _, _⟩ := h
  exact ⟨_, _, rfl, he⟩

theorem Scientific.parts (h : Scientific text) (hc : c ∈ text) : Text.isDecimalPart c = true := by
  obtain ⟨hm, he⟩ := h
  exact (List.mem_append.mp hc).elim hm.parts he.parts

/-- A numeral where a base is marked is in this base, or it is the zero alone. -/
theorem Numeral.of_letter {b : Base} {letter : Char} {rest : List Char} (h : Numeral text)
    (hletter : letter ∈ b.letters) (hfront : text <+: '0' :: letter :: rest) :
    text.length ≤ 1 ∨ ∃ digits mark, Digits b.isDigit digits ∧ IntegerMark true mark ∧
      text = '0' :: letter :: (digits ++ mark) := by
  obtain ⟨hpart, hn⟩ := Base.letters_not_part hletter
  have hshort (h : ∀ c ∈ text, Text.isDecimalPart c = true ∨ c = 'n') : text.length ≤ 1 := by
    match text, hfront with
    | [], _ => exact Nat.zero_le _
    | [_], _ => exact Nat.le_refl _
    | _ :: c :: _, hfront =>
      obtain rfl := (List.cons_prefix_cons.mp (List.cons_prefix_cons.mp hfront).2).1
      exact ((h c (by simp)).elim (fun h => Bool.false_ne_true (hpart ▸ h)) hn).elim
  cases h with
  | decimal h => exact .inl (hshort fun c hc => .inl (h.parts hc))
  | scientific h => exact .inl (hshort fun c hc => .inl (h.parts hc))
  | integer _ h =>
    refine .inl (hshort fun c hc => ?_)
    rcases List.mem_append.mp hc with hc | hc
    · exact .inl (Text.isDecimalPart_of_digit (h c hc))
    · exact .inr (List.mem_singleton.mp hc)
  | based hletter' h hmark =>
    obtain rfl := (List.cons_prefix_cons.mp (List.cons_prefix_cons.mp hfront).2).1
    obtain rfl := Base.eq_of_letter hletter hletter'
    exact .inr ⟨_, _, h, hmark, rfl⟩

theorem OldOctal.octal (h : OldOctal text) (hc : c ∈ text) : Text.isOctalDigit c = true := by
  obtain ⟨_, h⟩ := h
  rcases List.mem_cons.mp hc with rfl | hc
  · decide
  · exact h c hc

theorem OldOctal.digits (h : OldOctal text) : Digits Text.isDecimalDigit text :=
  fun _ hc => .inr (Text.isDecimalDigit_of_octal (h.octal hc))

theorem OldOctal.not_scientific (h : OldOctal text) : ¬ Scientific text := by
  rintro ⟨hm, he⟩
  obtain ⟨e, rest, rfl, he⟩ := he.head
  have hoctal := h.octal (List.mem_append_right _ List.mem_cons_self)
  rcases he with rfl | rfl <;> exact absurd hoctal (by decide)

theorem callsFor_iff {f : TokenFlag} : CallsFor text f ↔ f = .containsSeparator ∧ '_' ∈ text ∨
    f = .scientific ∧ Scientific text ∨ f = .octal ∧ OldOctal text ∨
      ∃ b : Base, f = b.flag ∧ b.Marks text := by
  constructor
  · intro h
    cases f with
    | containsSeparator => exact .inl ⟨rfl, h⟩
    | scientific => exact .inr (.inl ⟨rfl, h⟩)
    | octal => exact .inr (.inr (.inl ⟨rfl, h⟩))
    | hexSpecifier => exact .inr (.inr (.inr ⟨.hexadecimal, rfl, h⟩))
    | binarySpecifier => exact .inr (.inr (.inr ⟨.binary, rfl, h⟩))
    | octalSpecifier => exact .inr (.inr (.inr ⟨.octal, rfl, h⟩))
    | _ => exact h.elim
  · rintro (⟨rfl, h⟩ | ⟨rfl, h⟩ | ⟨rfl, h⟩ | ⟨b, rfl, h⟩)
    · exact h
    · exact h
    · exact h
    · cases b <;> exact h

/-- Behind the letter of a base, nothing but the base and separators is told. -/
theorem Base.callsFor_iff_flag {b : Base} {letter : Char} {tail : List Char} {f : TokenFlag}
    (hletter : letter ∈ b.letters) (hf : f ≠ .containsSeparator) :
    CallsFor ('0' :: letter :: tail) f ↔ f = b.flag := by
  have hpart := (letters_not_part hletter).1
  have hmem : letter ∈ '0' :: letter :: tail := by simp
  have hscientific : ¬ Scientific ('0' :: letter :: tail) := fun h =>
    Bool.false_ne_true (hpart ▸ h.parts hmem)
  have hold : ¬ OldOctal ('0' :: letter :: tail) := fun h =>
    Bool.false_ne_true (hpart ▸ Text.isDecimalPart_of_digit (h.digits _ hmem))
  simp only [callsFor_iff, hf, hscientific, hold, marks_iff hletter, false_and, and_false,
    false_or, exists_eq_right]

theorem Lexeme.isOldOctal_iff : isOldOctal text = true ↔ OldOctal text := by
  simp only [isOldOctal, Bool.and_eq_true, decide_eq_true_eq, beq_iff_eq, List.head?_eq_some_iff,
    List.all_eq_true]
  constructor
  · rintro ⟨⟨hlen, digits, rfl⟩, hall⟩
    refine ⟨?_, fun c hc => hall c (List.mem_cons_of_mem _ hc)⟩
    rintro rfl
    exact Nat.lt_irrefl 1 hlen
  · intro h
    refine ⟨?_, fun c hc => h.octal hc⟩
    obtain ⟨hne, _⟩ := h
    exact ⟨Nat.succ_lt_succ (List.length_pos_iff.mpr hne), _, rfl⟩

end Characters

/-! ## Parts -/

namespace Lexeme
variable {isDigit : Char → Bool} {text digits rest : List Char} {c : Char}

theorem digitRun_stands (isDigit : Char → Bool) (text : List Char) :
    digitRun isDigit text <+: text := List.takeWhile_prefix _

theorem digitRun_digits (isDigit : Char → Bool) (text : List Char) :
    Digits isDigit (digitRun isDigit text) := fun c hc => by
  simpa using List.all_eq_true.mp List.all_takeWhile c hc

/-- Digits before another character are the run. -/
theorem digitRun_exact (h : Digits isDigit digits) (hc : ¬ (c = '_' ∨ isDigit c = true)) :
    digitRun isDigit (digits ++ c :: rest) = digits := by
  rw [digitRun, List.takeWhile_append_of_pos fun d hd => by simpa using h d hd,
    List.takeWhile_cons_of_neg (by simpa using hc), List.append_nil]

theorem digitRun_longest : LongestFront (Digits isDigit) (digitRun isDigit text) text := by
  refine ⟨digitRun_digits _ _, digitRun_stands _ _, ?_⟩
  rintro other h ⟨rest, rfl⟩
  rw [digitRun, List.takeWhile_append_of_pos fun d hd => by simpa using h d hd, List.length_append]
  exact Nat.le_add_right _ _

theorem fractionRun_cases (text : List Char) : fractionRun text = [] ∨
    ∃ digits, Digits Text.isDecimalDigit digits ∧ fractionRun text = '.' :: digits := by
  unfold fractionRun
  split
  · exact .inr ⟨_, digitRun_digits _ _, rfl⟩
  · exact .inl rfl

theorem fractionRun_stands (text : List Char) : fractionRun text <+: text := by
  unfold fractionRun
  split
  · exact List.cons_prefix_cons.mpr ⟨rfl, digitRun_stands _ _⟩
  · exact List.nil_prefix

theorem fractionRun_eq_nil (h : c ≠ '.') : fractionRun (c :: rest) = [] := by
  unfold fractionRun
  split
  case h_1 heq => exact absurd (List.cons.inj heq).1 h
  · rfl

/-- The digits, the point and the digits behind it at the front of a text. -/
def mantissaRun (text : List Char) : List Char :=
  let whole := digitRun Text.isDecimalDigit text
  whole ++ fractionRun (text.drop whole.length)

theorem mantissaRun_stands (text : List Char) : mantissaRun text <+: text := by
  obtain ⟨rest, hrest⟩ := fractionRun_stands (text.drop (digitRun Text.isDecimalDigit text).length)
  refine ⟨rest, ?_⟩
  rw [mantissaRun, List.append_assoc, hrest]
  exact List.prefix_iff_eq_append.mp (digitRun_stands _ _)

theorem mantissaRun_mantissa (h : StartsNumber text) : Mantissa (mantissaRun text) := by
  have hne : mantissaRun text ≠ [] := mantissa_ne_nil h
  rw [mantissaRun] at hne ⊢
  rcases fractionRun_cases (text.drop (digitRun Text.isDecimalDigit text).length) with
    hnil | ⟨digits, hdigits, hfraction⟩
  · rw [hnil, List.append_nil] at hne ⊢
    exact .whole hne (digitRun_digits _ _)
  · rw [hfraction]
    exact .fraction (digitRun_digits _ _) hdigits

/-- A mantissa before a character that cannot continue it is what is read of it. -/
theorem mantissaRun_exact {mantissa : List Char} (h : Mantissa mantissa)
    (hc : ¬ (c = '_' ∨ Text.isDecimalDigit c = true)) (hpoint : c ≠ '.') :
    mantissaRun (mantissa ++ c :: rest) = mantissa := by
  cases h with
  | whole _ h =>
    rw [mantissaRun, digitRun_exact h hc, List.drop_left, fractionRun_eq_nil hpoint,
      List.append_nil]
  | fraction hwhole h =>
    rw [mantissaRun, List.append_assoc, List.cons_append, digitRun_exact hwhole (by decide),
      List.drop_left, fractionRun, digitRun_exact h hc]

theorem mantissaRun_longest {mantissa : List Char} (h : Mantissa mantissa)
    (hfront : mantissa <+: text) : mantissa.length ≤ (mantissaRun text).length := by
  cases h with
  | whole _ h =>
    rw [mantissaRun, List.length_append]
    exact Nat.le_add_right_of_le (digitRun_longest.length_le _ h hfront)
  | @fraction whole digits hwhole h =>
    obtain ⟨rest, rfl⟩ := hfront
    have hle := digitRun_longest.length_le digits h (List.prefix_append digits rest)
    rw [mantissaRun, List.append_assoc, List.cons_append, digitRun_exact hwhole (by decide),
      List.drop_left, fractionRun, List.length_append, List.length_append]
    exact Nat.add_le_add_left (Nat.succ_le_succ hle) _

/-- The sign at the front of a text, if there is one. -/
def signRun (text : List Char) : List Char :=
  if text.head? == some '+' || text.head? == some '-' then text.take 1 else []

theorem signRun_cases (text : List Char) :
    signRun text <+: text ∧ (signRun text = [] ∨ signRun text = ['+'] ∨ signRun text = ['-']) := by
  unfold signRun
  split
  case isTrue h =>
    simp only [Bool.or_eq_true, beq_iff_eq, List.head?_eq_some_iff] at h
    rcases h with ⟨rest, rfl⟩ | ⟨rest, rfl⟩
    · exact ⟨List.take_prefix _ _, .inr (.inl rfl)⟩
    · exact ⟨List.take_prefix _ _, .inr (.inr rfl)⟩
  case isFalse => exact ⟨List.nil_prefix, .inl rfl⟩

theorem signRun_exact {sign : List Char} (hsign : sign = [] ∨ sign = ['+'] ∨ sign = ['-'])
    (hc : Text.isDecimalDigit c = true) : signRun (sign ++ c :: rest) = sign := by
  rcases hsign with rfl | rfl | rfl
  · refine if_neg ?_
    simp only [List.nil_append, List.head?_cons, Bool.or_eq_true, beq_iff_eq, Option.some.injEq]
    rintro (rfl | rfl)
    · exact absurd hc (by decide)
    · exact absurd hc (by decide)
  · rfl
  · rfl

theorem exponentRun_cons (e : Char) (rest : List Char) : exponentRun (e :: rest) =
    let digits := digitRun Text.isDecimalDigit (rest.drop (signRun rest).length)
    if (e == 'e' || e == 'E') && digits.head?.any Text.isDecimalDigit then
      e :: (signRun rest ++ digits)
    else [] := rfl

theorem exponentRun_stands (text : List Char) : exponentRun text <+: text := by
  cases text with
  | nil => exact List.prefix_rfl
  | cons e rest =>
    rw [exponentRun_cons]
    dsimp only
    split
    · obtain ⟨behind, hbehind⟩ := digitRun_stands Text.isDecimalDigit
        (rest.drop (signRun rest).length)
      refine ⟨behind, ?_⟩
      rw [List.cons_append, List.append_assoc, hbehind]
      exact congrArg (e :: ·) (List.prefix_iff_eq_append.mp (signRun_cases rest).1)
    · exact List.nil_prefix

theorem exponentRun_cases (text : List Char) :
    exponentRun text = [] ∨ Exponent (exponentRun text) := by
  cases text with
  | nil => exact .inl rfl
  | cons e rest =>
    rw [exponentRun_cons]
    dsimp only
    split
    case isTrue h =>
      right
      simp only [Bool.and_eq_true, Bool.or_eq_true, beq_iff_eq, Option.any_eq_true,
        List.head?_eq_some_iff] at h
      obtain ⟨he, first, ⟨digits, hrun⟩, hfirst⟩ := h
      have hdigits := digitRun_digits Text.isDecimalDigit (rest.drop (signRun rest).length)
      rw [hrun] at hdigits ⊢
      exact .mk he (signRun_cases rest).2 hfirst fun c hc => hdigits c (List.mem_cons_of_mem _ hc)
    case isFalse => exact .inl rfl

theorem exponentRun_eq_nil (hc : ¬ (c = 'e' ∨ c = 'E')) : exponentRun (c :: rest) = [] := by
  rw [exponentRun_cons]
  exact if_neg (by simp_all)

theorem exponentRun_longest {exponent : List Char} (h : Exponent exponent)
    (hfront : exponent <+: text) : exponent.length ≤ (exponentRun text).length := by
  obtain ⟨rest, rfl⟩ := hfront
  obtain @⟨e, first, sign, digits, he, hsign, hfirst, h⟩ := h
  have hrun : digitRun Text.isDecimalDigit (first :: (digits ++ rest)) =
      first :: digitRun Text.isDecimalDigit (digits ++ rest) :=
    List.takeWhile_cons_of_pos (by simp [hfirst])
  have hle := digitRun_longest.length_le digits h (List.prefix_append digits rest)
  rw [List.cons_append, List.append_assoc, List.cons_append, exponentRun_cons,
    signRun_exact hsign hfirst, List.drop_left, hrun]
  dsimp only
  rw [if_pos (by simp [he, hfirst])]
  simp only [List.length_cons, List.length_append]
  omega

/-- The exponent behind the mantissa at the front of a text. -/
def scaleRun (text : List Char) : List Char := exponentRun (text.drop (mantissaRun text).length)

/-- Whether neither a point nor an exponent stands behind the digits at the front of a text. -/
def isWhole (text : List Char) : Bool :=
  (fractionRun (text.drop (digitRun Text.isDecimalDigit text).length)).isEmpty &&
    (scaleRun text).isEmpty

theorem isWhole_iff : isWhole text = true ↔
    mantissaRun text = digitRun Text.isDecimalDigit text ∧ scaleRun text = [] := by
  simp [isWhole, mantissaRun]

/-- A number with an exponent is read up to the exponent, and at least the exponent behind. -/
theorem scientific_run {mantissa exponent : List Char} (hm : Mantissa mantissa)
    (he : Exponent exponent) (hfront : mantissa ++ exponent <+: text) :
    mantissaRun text = mantissa ∧ exponent.length ≤ (scaleRun text).length := by
  obtain ⟨rest, rfl⟩ := hfront
  obtain ⟨e, tail, rfl, hhead⟩ := he.head
  have hc : ¬ (e = '_' ∨ Text.isDecimalDigit e = true) ∧ e ≠ '.' := by
    rcases hhead with rfl | rfl <;> decide
  have hmantissa : mantissaRun (mantissa ++ e :: tail ++ rest) = mantissa := by
    rw [List.append_assoc]
    exact mantissaRun_exact hm hc.1 hc.2
  refine ⟨hmantissa, ?_⟩
  rw [scaleRun, hmantissa, List.append_assoc, List.drop_left]
  exact exponentRun_longest he (List.prefix_append _ _)

end Lexeme
end EcmaSyntax
