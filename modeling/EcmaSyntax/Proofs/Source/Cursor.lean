import EcmaSyntax.Source.Cursor
import Mathlib.Algebra.GroupWithZero.Nat

/-! # Order of places

Places of one source are ordered by how far a cursor has moved. A cursor that has moved at all has
fewer characters left and more bytes behind it, so either number tells whether it has. -/
namespace EcmaSyntax.Cursor
variable {c d e : Cursor}

/-- A cursor counts the characters that are left. -/
def Sound (c : Cursor) : Prop := c.left = c.rest.length

/-- A later place, or the same, in the same source. -/
def Reaches (c d : Cursor) : Prop := ∃ n, d = c.skip n

theorem start_sound (text : List Char) : (start text).Sound := rfl

theorem next_of_nil (h : c.rest = []) : c.next = c := by
  rw [next, h]

theorem next_sound (h : c.Sound) : c.next.Sound := by
  unfold next
  split
  · exact h
  case h_2 ch rest hrest =>
    rw [Sound, hrest, List.length_cons] at h
    change c.left - 1 = rest.length
    omega

theorem skip_sound (n : Nat) (h : c.Sound) : (c.skip n).Sound := by
  induction n generalizing c with
  | zero => exact h
  | succ n ih => exact ih (next_sound h)

theorem skip_add (m n : Nat) (c : Cursor) : c.skip (m + n) = (c.skip m).skip n := by
  induction m generalizing c with
  | zero => rw [Nat.zero_add]; rfl
  | succ m ih => rw [Nat.succ_add]; exact ih c.next

namespace Reaches

theorem refl (c : Cursor) : c.Reaches c := ⟨0, rfl⟩

theorem skip (n : Nat) (c : Cursor) : c.Reaches (c.skip n) := ⟨n, rfl⟩

theorem trans (h : c.Reaches d) (h' : d.Reaches e) : c.Reaches e := by
  obtain ⟨m, rfl⟩ := h
  obtain ⟨n, rfl⟩ := h'
  exact ⟨m + n, (skip_add m n c).symm⟩

theorem sound (h : c.Reaches d) (hc : c.Sound) : d.Sound := by
  obtain ⟨n, rfl⟩ := h
  exact skip_sound n hc

end Reaches

/-- A cursor with characters left moves by one of them. -/
theorem next_lt (hc : c.Sound) (h : c.rest ≠ []) :
    c.next.left < c.left ∧ c.offset < c.next.offset := by
  unfold next
  split
  · contradiction
  case h_2 ch rest hrest =>
    rw [Sound, hrest, List.length_cons] at hc
    have := ch.utf8Size_pos
    constructor
    · change c.left - 1 < c.left
      omega
    · change c.offset < c.offset + ch.utf8Size
      omega

/-- A cursor has not moved, or else both its numbers have. -/
theorem Reaches.eq_or_lt (hc : c.Sound) (h : c.Reaches d) :
    d = c ∨ (d.left < c.left ∧ c.offset < d.offset) := by
  obtain ⟨n, rfl⟩ := h
  induction n generalizing c with
  | zero => exact .inl rfl
  | succ n ih =>
    by_cases hrest : c.rest = []
    · have hskip : c.skip (n + 1) = c.skip n := by rw [Cursor.skip, next_of_nil hrest]
      rw [hskip]
      exact ih hc
    · have hnext := next_lt hc hrest
      change c.next.skip n = c ∨ _
      right
      rcases ih (next_sound hc) with heq | hlt
      · change (c.next.skip n).left < c.left ∧ c.offset < (c.next.skip n).offset
        rw [heq]
        exact hnext
      · change (c.next.skip n).left < c.left ∧ c.offset < (c.next.skip n).offset
        omega

theorem Reaches.left_le (hc : c.Sound) (h : c.Reaches d) : d.left ≤ c.left := by
  rcases h.eq_or_lt hc with rfl | hlt <;> omega

theorem Reaches.offset_le (hc : c.Sound) (h : c.Reaches d) : c.offset ≤ d.offset := by
  rcases h.eq_or_lt hc with rfl | hlt <;> omega

theorem Reaches.offset_lt_iff (hc : c.Sound) (h : c.Reaches d) :
    c.offset < d.offset ↔ d.left < c.left := by
  rcases h.eq_or_lt hc with rfl | hlt <;> omega

/-- Moving by characters that are there. -/
theorem skip_left_lt {n : Nat} (hc : c.Sound) (hrest : c.rest ≠ []) (hn : 0 < n) :
    (c.skip n).left < c.left := by
  obtain ⟨n, rfl⟩ := Nat.exists_eq_succ_of_ne_zero (Nat.ne_of_gt hn)
  have hle := (Reaches.skip n c.next).left_le (next_sound hc)
  have hlt := (next_lt hc hrest).1
  change (c.next.skip n).left < c.left
  omega

theorem skip_rest (n : Nat) (c : Cursor) : (c.skip n).rest = c.rest.drop n := by
  induction n generalizing c with
  | zero => rfl
  | succ n ih =>
    rw [skip, ih, next]
    split
    case h_1 hrest => rw [hrest, List.drop_nil, List.drop_nil]
    case h_2 hrest => rw [hrest, List.drop_succ_cons]

/-- The text of the characters that have been moved over. -/
theorem textTo_skip (n : Nat) (hc : c.Sound) : c.textTo (c.skip n) = c.rest.take n := by
  have hskip : (c.skip n).left = c.rest.length - n := by
    rw [skip_sound n hc, skip_rest, List.length_drop]
  rw [textTo, hskip, hc]
  by_cases hn : n ≤ c.rest.length
  · rw [Nat.sub_sub_self hn]
  · rw [List.take_of_length_le (by omega), List.take_of_length_le (by omega)]

theorem skip_of_nil (n : Nat) (h : c.rest = []) : c.skip n = c := by
  induction n with
  | zero => rfl
  | succ n ih => rw [skip, next_of_nil h, ih]

/-- A cursor stops at the end. -/
theorem skip_min (n : Nat) (c : Cursor) : c.skip (min n c.rest.length) = c.skip n := by
  induction n generalizing c with
  | zero => rw [Nat.zero_min]
  | succ n ih =>
    cases hrest : c.rest with
    | nil => rw [skip_of_nil _ hrest, skip_of_nil _ hrest]
    | cons ch rest =>
      have hnext : c.next.rest = rest := by rw [next, hrest]
      rw [List.length_cons, Nat.succ_min_succ, skip, skip, ← hnext]
      exact ih c.next

/-- A place is reached by moving over the text up to it. -/
theorem Reaches.eq_skip (hc : c.Sound) (h : c.Reaches d) : d = c.skip (c.textTo d).length := by
  obtain ⟨n, rfl⟩ := h
  rw [textTo_skip n hc, List.length_take, skip_min]

theorem Reaches.of_le {m n : Nat} (h : m ≤ n) (c : Cursor) : (c.skip m).Reaches (c.skip n) := by
  obtain ⟨k, rfl⟩ := Nat.exists_eq_add_of_le h
  exact skip_add m k c ▸ .skip k _

theorem left_eq_zero (hc : c.Sound) : c.left = 0 ↔ c.rest = [] := by
  rw [hc, List.length_eq_zero_iff]

/-! ## The end of the source -/

/-- The offset of the end of the source. -/
def total (c : Cursor) : Nat := c.offset + (c.rest.map Char.utf8Size).sum

theorem total_next (c : Cursor) : c.next.total = c.total := by
  unfold next
  split
  · rfl
  case h_2 ch rest hrest =>
    simp only [total, hrest, List.map_cons, List.sum_cons]
    omega

theorem Reaches.total_eq (h : c.Reaches d) : d.total = c.total := by
  obtain ⟨n, rfl⟩ := h
  induction n generalizing c with
  | zero => rfl
  | succ n ih => exact ih.trans (total_next c)

theorem offset_le_total (c : Cursor) : c.offset ≤ c.total := Nat.le_add_right _ _

end EcmaSyntax.Cursor
