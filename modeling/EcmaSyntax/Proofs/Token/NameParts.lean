import EcmaSyntax.Proofs.Token.Lexeme

/-! # Parts of names

A part of a name is a character or an escape. The parts at the front of a text are told apart by
their first characters alone, so that a run of them is read piece by piece, and the run that is
read is the longest one. -/
namespace EcmaSyntax

/-- A character or an escape that may continue a name. -/
inductive NamePart : List Char → Prop
  | char {c : Char} (h : Text.isNamePart c = true) : NamePart [c]
  | escape {a b c d : Char} (h : [a, b, c, d].all Text.isHexDigit = true) :
    NamePart ['\\', 'u', a, b, c, d]
  | braced {digits : List Char} (hne : digits ≠ []) (h : digits.all Text.isHexDigit = true) :
    NamePart ('\\' :: 'u' :: '\x7b' :: (digits ++ ['\x7d']))

/-- Parts of a name, one behind the other. -/
inductive NameParts : List Char → Prop
  | nil : NameParts []
  | cons {part parts : List Char} (h : NamePart part) (htail : NameParts parts) :
    NameParts (part ++ parts)

/-- Parts of a name that no longer parts at the same place exceed. -/
structure NameParts.Longest (name rest : List Char) : Prop where
  parts : NameParts name
  length_le : ∀ p q, p ++ q = name ++ rest → NameParts p → p.length ≤ name.length

namespace NamePart

theorem ne_nil {part : List Char} (h : NamePart part) : part ≠ [] := by
  cases h <;> simp

theorem takeWhile_braced {digits : List Char} (rest : List Char)
    (h : digits.all Text.isHexDigit = true) :
    (digits ++ '\x7d' :: rest).takeWhile Text.isHexDigit = digits := by
  rw [List.takeWhile_append_of_pos (List.all_eq_true.mp h)]
  have hbrace : Text.isHexDigit '\x7d' = false := by decide +kernel
  simp [hbrace]

/-- An escape is read whatever stands behind it. -/
theorem escape?_size {part : List Char} (h : NamePart part) (rest : List Char) :
    (∃ c, part = [c] ∧ Text.isNamePart c = true) ∨
      ∃ e, Lexeme.escape? (part ++ rest) = some e ∧ e.size = part.length := by
  cases h with
  | char hc => exact .inl ⟨_, rfl, hc⟩
  | @escape a b c d hd =>
    right
    have ha : a ≠ '\x7b' := by
      rintro rfl
      exact absurd (List.all_eq_true.mp hd _ List.mem_cons_self) (by decide +kernel)
    refine ⟨⟨6, TokenFlag.unicodeEscape⟩, ?_, rfl⟩
    simp only [List.cons_append, List.nil_append]
    rw [Lexeme.escape?, if_pos hd]
    exact ha
  | @braced digits hne hd =>
    right
    have htake := takeWhile_braced rest hd
    refine ⟨⟨digits.length + 4, .ofList [.unicodeEscape, .extendedUnicodeEscape]⟩, ?_, ?_⟩
    · simp [Lexeme.escape?, htake, hne]
    · simp

/-- What is read as an escape is a part of a name. -/
theorem of_escape? {text : List Char} {e : Run} (h : Lexeme.escape? text = some e) :
    ∃ part rest, text = part ++ rest ∧ part.length = e.size ∧ NamePart part := by
  unfold Lexeme.escape? at h
  split at h
  case h_1 rest =>
    dsimp only at h
    split at h
    case isFalse => cases h
    case isTrue hd =>
      cases h
      simp only [Bool.and_eq_true, Bool.not_eq_true', List.isEmpty_eq_false_iff, beq_iff_eq,
        List.head?_eq_some_iff] at hd
      obtain ⟨hne, tail, htail⟩ := hd
      have hsplit : rest.takeWhile Text.isHexDigit ++ '\x7d' :: tail = rest := by
        rw [← htail]
        exact List.prefix_iff_eq_append.mp (List.takeWhile_prefix _)
      refine ⟨'\\' :: 'u' :: '\x7b' :: (rest.takeWhile Text.isHexDigit ++ ['\x7d']), tail, ?_, ?_,
        .braced hne List.all_takeWhile⟩
      · simpa using hsplit.symm
      · simp
  case h_2 a b c d rest _ =>
    split at h
    case isFalse => cases h
    case isTrue hd =>
      cases h
      exact ⟨['\\', 'u', a, b, c, d], rest, rfl, rfl, .escape hd⟩
  case h_3 => cases h

/-- No part of a name ends a line. -/
theorem not_isLineTerminator {part : List Char} (h : NamePart part) :
    ∀ c ∈ part, Text.isLineTerminator c = false := by
  have hsplit {c : Char} (hline : Text.isLineTerminator c = true) :
      Text.isNamePart c = false ∧ Text.isHexDigit c = false := by
    simp only [Text.isLineTerminator, Bool.or_eq_true, beq_iff_eq] at hline
    rcases hline with ((rfl | rfl) | rfl) | rfl <;> decide +kernel
  have hhex {digits : List Char} (hd : digits.all Text.isHexDigit = true) :
      ∀ c ∈ digits, Text.isLineTerminator c = false := by
    intro c hc
    rw [← Bool.not_eq_true]
    intro hline
    have hdigit := List.all_eq_true.mp hd c hc
    rw [(hsplit hline).2] at hdigit
    cases hdigit
  have hescape {digits : List Char} (hd : ∀ c ∈ digits, Text.isLineTerminator c = false) :
      ∀ c ∈ '\\' :: 'u' :: digits, Text.isLineTerminator c = false :=
    List.forall_mem_cons.mpr ⟨by decide +kernel, List.forall_mem_cons.mpr ⟨by decide +kernel, hd⟩⟩
  cases h with
  | char hc =>
    rw [List.forall_mem_singleton, ← Bool.not_eq_true]
    intro hline
    rw [(hsplit hline).1] at hc
    cases hc
  | escape hd => exact hescape (hhex hd)
  | braced _ hd =>
    apply hescape
    refine List.forall_mem_cons.mpr ⟨by decide +kernel, List.forall_mem_append.mpr ⟨hhex hd, ?_⟩⟩
    rw [List.forall_mem_singleton]
    decide +kernel

end NamePart

namespace Lexeme

/-- Characters of an escape that has been read are passed over. -/
theorem nameRun_size_drop {isPart : Char → Bool} {n : Nat} {text : List Char}
    (h : n ≤ text.length) :
    (nameRun isPart n text).size = n + (nameRun isPart 0 (text.drop n)).size := by
  induction n generalizing text with
  | zero => rw [Nat.zero_add, List.drop_zero]
  | succ n ih =>
    cases text with
    | nil => cases h
    | cons c text =>
      have hsize := ih (Nat.le_of_succ_le_succ h)
      simp only [nameRun, Run.after, List.drop_succ_cons, hsize]
      omega

/-- A part in front of a run belongs to it. -/
theorem nameRun_append {part : List Char} (h : NamePart part) (rest : List Char) :
    (nameRun Text.isNamePart 0 (part ++ rest)).size =
      part.length + (nameRun Text.isNamePart 0 rest).size := by
  rcases h.escape?_size rest with ⟨c, rfl, hc⟩ | ⟨e, he, hsize⟩
  · simp only [List.cons_append, List.nil_append, nameRun, hc, if_true, Run.after,
      List.length_singleton]
    omega
  · obtain ⟨c, part, rfl⟩ := List.exists_cons_of_ne_nil h.ne_nil
    have hc : Text.isNamePart c = false := by
      rw [escape?_head he]
      decide +kernel
    rw [List.cons_append] at he ⊢
    rw [List.length_cons] at hsize ⊢
    have hle : e.size - 1 ≤ (part ++ rest).length := by
      rw [List.length_append]
      omega
    have hdrop : (part ++ rest).drop (e.size - 1) = rest := by
      rw [hsize, Nat.add_sub_cancel, List.drop_left]
    simp only [nameRun, hc, Bool.false_eq_true, if_false, he, Run.after,
      nameRun_size_drop hle, hdrop]
    omega

/-- A text in front of which there is no part begins no run. -/
theorem nameRun_eq_zero {text : List Char}
    (h : ∀ part rest, text = part ++ rest → ¬ NamePart part) :
    (nameRun Text.isNamePart 0 text).size = 0 := by
  cases text with
  | nil => rfl
  | cons c rest =>
    have hc : ¬ Text.isNamePart c = true := fun hc => h [c] rest rfl (.char hc)
    have he : escape? (c :: rest) = none := by
      refine Option.eq_none_iff_forall_not_mem.mpr fun e he => ?_
      obtain ⟨part, tail, htext, -, hpart⟩ := NamePart.of_escape? he
      exact h part tail htext hpart
    simp only [nameRun, hc, he, Bool.false_eq_true, if_false]

end Lexeme

namespace NameParts

/-- Parts in front of a text are read with the run behind them. -/
theorem length_le_nameRun {parts : List Char} (h : NameParts parts) (rest : List Char) :
    parts.length ≤ (Lexeme.nameRun Text.isNamePart 0 (parts ++ rest)).size := by
  induction h with
  | nil => exact Nat.zero_le _
  | cons hpart _ ih =>
    rw [List.append_assoc, Lexeme.nameRun_append hpart, List.length_append]
    omega

/-- The run at the front of a text is the longest one. -/
theorem exists_longest (text : List Char) :
    ∃ parts rest, text = parts ++ rest ∧
      (Lexeme.nameRun Text.isNamePart 0 text).size = parts.length ∧ Longest parts rest := by
  suffices h : ∃ parts rest, text = parts ++ rest ∧
      (Lexeme.nameRun Text.isNamePart 0 text).size = parts.length ∧ NameParts parts by
    obtain ⟨parts, rest, htext, hsize, hparts⟩ := h
    refine ⟨parts, rest, htext, hsize, hparts, fun p q hpq hp => ?_⟩
    rw [← hsize, htext, ← hpq]
    exact hp.length_le_nameRun q
  -- the text behind a part is shorter
  induction hn : text.length using Nat.strongRecOn generalizing text with
  | _ n ih =>
    by_cases hpart : ∃ part rest, text = part ++ rest ∧ NamePart part
    · obtain ⟨part, rest, rfl, hpart⟩ := hpart
      have hpos := List.length_pos_iff.mpr hpart.ne_nil
      rw [List.length_append] at hn
      obtain ⟨parts, tail, rfl, hsize, hparts⟩ := ih rest.length (by omega) rest rfl
      refine ⟨part ++ parts, tail, (List.append_assoc _ _ _).symm, ?_, .cons hpart hparts⟩
      rw [Lexeme.nameRun_append hpart, hsize, List.length_append]
    · refine ⟨[], text, rfl, ?_, .nil⟩
      apply Lexeme.nameRun_eq_zero
      intro part rest htext h
      exact hpart ⟨part, rest, htext, h⟩

theorem not_isLineTerminator {parts : List Char} (h : NameParts parts) :
    ∀ c ∈ parts, Text.isLineTerminator c = false := by
  induction h with
  | nil => exact fun _ hc => nomatch hc
  | cons h _ ih =>
    intro c hc
    rcases List.mem_append.mp hc with hc | hc
    · exact h.not_isLineTerminator c hc
    · exact ih c hc

end NameParts
end EcmaSyntax
