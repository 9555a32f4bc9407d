import EcmaSyntax.Proofs.Source.Cursor
import EcmaSyntax.Source.Span

/-! # Slices of a source

Offsets count bytes, and not every offset lies between two characters. The places that a cursor
reaches do: what it has moved over is a text that stands in the source between its two ends. -/
namespace EcmaSyntax

/-- A text stands in a source at a range. -/
def Range.Covers (r : Range) (source text : String) : Prop :=
  ∃ before after, source = before ++ text ++ after ∧
    r = ⟨before.utf8ByteSize, (before ++ text).utf8ByteSize⟩

namespace Range.Covers
variable {r : Range} {source text : String}

theorem pos_le_stop (h : r.Covers source text) : r.pos ≤ r.stop := by
  obtain ⟨before, after, -, rfl⟩ := h
  rw [String.utf8ByteSize_append]
  exact Nat.le_add_right _ _

theorem stop_le_size (h : r.Covers source text) : r.stop ≤ source.utf8ByteSize := by
  obtain ⟨before, after, rfl, rfl⟩ := h
  rw [String.utf8ByteSize_append (t := after)]
  exact Nat.le_add_right _ _

/-- A range that covers a text begins between two characters. -/
theorem pos_valid (h : r.Covers source text) : String.Pos.Raw.IsValid source ⟨r.pos⟩ := by
  obtain ⟨before, after, rfl, rfl⟩ := h
  exact String.Pos.Raw.isValid_iff_exists_append.mpr
    ⟨before, text ++ after, String.append_assoc, rfl⟩

/-- A range that covers a text ends between two characters. -/
theorem stop_valid (h : r.Covers source text) : String.Pos.Raw.IsValid source ⟨r.stop⟩ := by
  obtain ⟨before, after, rfl, rfl⟩ := h
  exact String.Pos.Raw.isValid_iff_exists_append.mpr ⟨before ++ text, after, rfl, rfl⟩

end Range.Covers

/-- The bytes of a source are those of its characters. -/
theorem utf8ByteSize_eq (source : String) :
    source.utf8ByteSize = (source.toList.map Char.utf8Size).sum := by
  obtain ⟨text, rfl⟩ : ∃ text, source = String.ofList text := ⟨_, String.ofList_toList.symm⟩
  rw [String.toList_ofList]
  induction text with
  | nil => rfl
  | cons c rest ih =>
    rw [← List.singleton_append, String.ofList_append, String.utf8ByteSize_append, ih,
      ← String.singleton_eq_ofList, String.utf8ByteSize_singleton]
    rfl

/-- Characters of one byte are as many as their bytes. -/
theorem utf8ByteSize_ofList_eq_length {text : List Char} (h : ∀ c ∈ text, c.utf8Size = 1) :
    (String.ofList text).utf8ByteSize = text.length := by
  rw [utf8ByteSize_eq, String.toList_ofList, List.map_congr_left h]
  induction text with
  | nil => rfl
  | cons c rest ih =>
    have hrest := ih fun d hd => h d (List.mem_cons_of_mem c hd)
    simp_all [Nat.add_comm]

/-- A text without one-byte margins stands that much further inside. -/
theorem Range.Covers.inner {r : Range} {source : String} {front text behind : List Char}
    (h : r.Covers source (String.ofList (front ++ text ++ behind)))
    (hfront : ∀ c ∈ front, c.utf8Size = 1) (hbehind : ∀ c ∈ behind, c.utf8Size = 1) :
    Range.Covers ⟨r.pos + front.length, r.stop - behind.length⟩ source (String.ofList text) := by
  obtain ⟨before, after, rfl, rfl⟩ := h
  refine ⟨before ++ String.ofList front, String.ofList behind ++ after, ?_, ?_⟩
  · simp only [String.ofList_append, String.append_assoc]
  · simp only [String.utf8ByteSize_append, String.ofList_append,
      utf8ByteSize_ofList_eq_length hfront, utf8ByteSize_ofList_eq_length hbehind, Range.mk.injEq,
      true_and]
    omega

namespace Cursor
variable {c d : Cursor}

/-- What is left at a place is what has been moved over from there, and what is left after it. -/
theorem Reaches.passes (hc : c.Sound) (h : c.Reaches d) :
    c.rest = c.textTo d ++ d.rest ∧
      d.offset = c.offset + (String.ofList (c.textTo d)).utf8ByteSize := by
  obtain ⟨n, rfl⟩ := h
  rw [textTo_skip n hc, skip_rest, List.take_append_drop]
  refine ⟨rfl, ?_⟩
  rw [utf8ByteSize_eq, String.toList_ofList]
  induction n generalizing c with
  | zero => rfl
  | succ n ih =>
    rw [Cursor.skip, ih (next_sound hc), next]
    split
    case h_1 hrest => simp [hrest]
    case h_2 ch rest hrest =>
      rw [hrest, List.take_succ_cons, List.map_cons, List.sum_cons]
      exact Nat.add_assoc _ _ _

/-- Between two places of a source stands the text from one to the other. -/
theorem Reaches.covers {source : String} (hc : (Cursor.start source.toList).Reaches c)
    (h : c.Reaches d) : Range.Covers ⟨c.offset, d.offset⟩ source (String.ofList (c.textTo d)) := by
  have hsound := start_sound source.toList
  obtain ⟨hbefore, hoffset⟩ := hc.passes hsound
  obtain ⟨htext, hstop⟩ := h.passes (hc.sound hsound)
  have hzero : (start source.toList).offset = 0 := rfl
  refine ⟨String.ofList ((start source.toList).textTo c), String.ofList d.rest, ?_, ?_⟩
  · rw [← String.ofList_append, ← String.ofList_append, List.append_assoc, ← htext, ← hbefore]
    exact String.ofList_toList.symm
  · rw [hstop, hoffset, hzero, Nat.zero_add, String.utf8ByteSize_append]

/-- No place lies behind the end of the source. -/
theorem Reaches.offset_le_size {source : String} (h : (Cursor.start source.toList).Reaches c) :
    c.offset ≤ source.utf8ByteSize :=
  (h.covers (.refl c)).stop_le_size

/-- The end of the source is where nothing is left. -/
theorem Reaches.offset_eq_size {source : String} (h : (Cursor.start source.toList).Reaches c)
    (hrest : c.rest = []) : c.offset = source.utf8ByteSize := by
  have htotal : c.total = 0 + (source.toList.map Char.utf8Size).sum := h.total_eq
  rw [total, hrest] at htotal
  rw [utf8ByteSize_eq]
  simpa using htotal

end Cursor
end EcmaSyntax
