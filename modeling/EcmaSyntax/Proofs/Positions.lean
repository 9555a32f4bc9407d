import EcmaSyntax.Report.Basic
import Mathlib.Logic.Function.Basic

/-! # Lines and columns of offsets

The line that is found for an offset by halving is the last one that starts at or before it. Its
number counts the line feeds before the offset, and its start is the place behind the last of them,
so that no offset comes before the start of its line. Different offsets have different lines and
columns, in the same order, and the line and column that a report shows tell where the diagnostic
starts. -/
namespace EcmaSyntax

namespace Lines

/-! ## Halving -/

variable {lines : Lines} {starts : Array Nat} {offset : Nat}

theorem start_lt {i j a b : Nat} (ha : lines.starts[i]? = some a) (hb : lines.starts[j]? = some b)
    (h : i < j) : a < b := by
  rw [← Array.getElem?_toList] at ha hb
  obtain ⟨hi, rfl⟩ := List.getElem?_eq_some_iff.mp ha
  obtain ⟨hj, rfl⟩ := List.getElem?_eq_some_iff.mp hb
  exact List.pairwise_iff_getElem.mp lines.ordered i j hi hj h

/-- An offset is where it is said to be among the starts, or it stands between those before the
index and the others. -/
def Sought.Tells (starts : Array Nat) (offset : Nat) : Sought → Prop
  | .found index => starts[index]? = some offset
  | .missing index =>
    index ≤ starts.size ∧ ∀ i start, starts[i]? = some start →
      (i < index → start < offset) ∧ (index ≤ i → offset < start)

/-- Halving keeps all starts before the lower bound below the offset, and all starts from the upper
bound on above it. -/
theorem search_tells (lines : Lines) (offset low high : Nat) (hle : low ≤ high)
    (hsize : high ≤ lines.starts.size)
    (hlow : ∀ i start, lines.starts[i]? = some start → i < low → start < offset)
    (hhigh : ∀ i start, lines.starts[i]? = some start → high ≤ i → offset < start) :
    (search lines.starts offset low high).Tells lines.starts offset := by
  have hmiddle {low high : Nat} (h : low < high) (hsize : high ≤ lines.starts.size) :
      lines.starts[low + (high - low) / 2]? =
        some (lines.starts.getD (low + (high - low) / 2) 0) := by
    have hlt : low + (high - low) / 2 < lines.starts.size := by omega
    simp [Array.getD_eq_getD_getElem?, hlt]
  fun_induction search lines.starts offset low high with
  | case1 low high h middle hcompare ih =>
    have hlt := Nat.compare_eq_lt.mp hcompare
    refine ih (by omega) hsize (fun i start hi hbelow => ?_) hhigh
    rcases Nat.lt_or_eq_of_le (Nat.le_of_lt_succ hbelow) with hbelow | rfl
    · exact Nat.lt_trans (start_lt hi (hmiddle h hsize) hbelow) hlt
    · rw [hmiddle h hsize] at hi
      rwa [← Option.some.inj hi]
  | case2 low high h middle hcompare =>
    rw [← Nat.compare_eq_eq.mp hcompare]
    exact hmiddle h hsize
  | case3 low high h middle hcompare ih =>
    have hgt := Nat.compare_eq_gt.mp hcompare
    refine ih (by omega) (by omega) hlow (fun i start hi habove => ?_)
    rcases Nat.lt_or_eq_of_le habove with habove | rfl
    · exact Nat.lt_trans hgt (start_lt (hmiddle h hsize) hi habove)
    · rw [hmiddle h hsize] at hi
      rwa [← Option.some.inj hi]
  | case4 low high h =>
    refine ⟨Nat.le_trans hle hsize, fun i start hi => ⟨hlow i start hi, fun habove => ?_⟩⟩
    exact hhigh i start hi (by omega)

/-- A line is the last one that starts at or before an offset. -/
structure Holds (lines : Lines) (offset line start : Nat) : Prop where
  start_eq : lines.starts[line]? = some start
  start_le : start ≤ offset
  lt_next : ∀ later next, line < later → lines.starts[later]? = some next → offset < next

namespace Holds
variable {line start : Nat}

/-- The line is found whether or not the offset is its start. -/
theorem lineOf_eq (h : lines.Holds offset line start) : lines.lineOf offset = line := by
  have htells := search_tells lines offset 0 lines.starts.size (Nat.zero_le _) (Nat.le_refl _)
    (fun _ _ _ hi => absurd hi (Nat.not_lt_zero _)) fun i start hi hsize => by
      simp [Array.getElem?_eq_none hsize] at hi
  unfold lineOf
  cases hsearch : search lines.starts offset 0 lines.starts.size with
  | found index =>
    rw [hsearch] at htells
    rcases Nat.lt_trichotomy index line with hlt | heq | hgt
    · have := start_lt htells h.start_eq hlt
      have := h.start_le
      omega
    · exact heq
    · exact absurd (h.lt_next index offset hgt htells) (Nat.lt_irrefl _)
  | missing index =>
    rw [hsearch] at htells
    obtain ⟨hsize, hsides⟩ := htells
    have hstart := h.start_le
    have hline : line < index := by
      by_contra hnot
      have := (hsides line start h.start_eq).2 (by omega)
      omega
    have hnext : index ≤ line + 1 := by
      by_contra hnot
      have hlt : line + 1 < lines.starts.size := by omega
      have hget := Array.getElem?_eq_getElem hlt
      have := (hsides _ _ hget).1 (by omega)
      have := h.lt_next _ _ (Nat.lt_succ_self line) hget
      omega
    change index - 1 = line
    omega

theorem positionOf_eq (h : lines.Holds offset line start) :
    lines.positionOf offset = ⟨line, offset - start⟩ := by
  rw [positionOf, h.lineOf_eq, Array.getD_eq_getD_getElem?, h.start_eq]
  rfl

end Holds

/-! ## Line feeds -/

theorem startsAfter_append (offset : Nat) (front back : List UInt8) :
    startsAfter offset (front ++ back) =
      startsAfter offset front ++ startsAfter (offset + front.length) back := by
  induction front generalizing offset with
  | nil => rfl
  | cons byte rest ih =>
    have hlength : offset + (byte :: rest).length = offset + 1 + rest.length := by
      rw [List.length_cons]
      omega
    rw [List.cons_append, startsAfter, startsAfter, ih, hlength]
    split <;> rfl

theorem length_startsAfter (offset : Nat) (bytes : List UInt8) :
    (startsAfter offset bytes).length = bytes.count lineFeed := by
  induction bytes generalizing offset with
  | nil => rfl
  | cons byte rest ih =>
    rw [startsAfter, List.count_cons]
    split
    case isTrue h => rw [List.length_cons, ih, if_pos (beq_iff_eq.mpr h)]
    case isFalse h => rw [ih, if_neg (mt beq_iff_eq.mp h), Nat.add_zero]

theorem startsAfter_of_notMem (offset : Nat) {bytes : List UInt8} (h : lineFeed ∉ bytes) :
    startsAfter offset bytes = [] := by
  rw [← List.length_eq_zero_iff, length_startsAfter, List.count_eq_zero]
  exact h

/-- Bytes, split behind the last line feed among them. -/
structure Parted (bytes earlier line : List UInt8) : Prop where
  bytes_eq : bytes = earlier ++ line
  ended : ∀ byte ∈ earlier.getLast?, byte = lineFeed
  open_line : lineFeed ∉ line

theorem exists_parted (bytes : List UInt8) : ∃ earlier line, Parted bytes earlier line := by
  induction bytes with
  | nil => exact ⟨[], [], rfl, nofun, List.not_mem_nil⟩
  | cons byte rest ih =>
    obtain ⟨earlier, line, rfl, hended, hline⟩ := ih
    cases earlier with
    | cons first earlier =>
      exact ⟨byte :: first :: earlier, line, rfl, by simpa using hended, hline⟩
    | nil =>
      by_cases hbyte : byte = lineFeed
      · exact ⟨[byte], line, rfl, by simpa using hbyte, hline⟩
      · refine ⟨[], byte :: line, rfl, nofun, fun h => ?_⟩
        rcases List.mem_cons.mp h with h | h
        · exact hbyte h.symm
        · exact hline h

namespace Parted
variable {bytes earlier line : List UInt8}

theorem count_eq (h : Parted bytes earlier line) :
    bytes.count lineFeed = earlier.count lineFeed := by
  rw [h.bytes_eq, List.count_append, List.count_eq_zero_of_not_mem h.open_line, Nat.add_zero]

/-- The last line starts behind the last line feed. -/
theorem last_start (h : Parted bytes earlier line) :
    (0 :: startsAfter 0 earlier)[earlier.count lineFeed]? = some earlier.length := by
  rcases List.eq_nil_or_concat earlier with rfl | ⟨init, byte, rfl⟩
  · rfl
  · obtain rfl : byte = lineFeed := h.ended byte (by simp)
    have hlast : startsAfter (0 + init.length) [lineFeed] = [init.length + 1] := by
      rw [Nat.zero_add]
      rfl
    have hcount : (init ++ [lineFeed]).count lineFeed = (startsAfter 0 init).length + 1 := by
      rw [List.count_append, length_startsAfter]
      rfl
    rw [List.concat_eq_append, startsAfter_append, hlast, hcount, List.length_append,
      List.getElem?_cons_succ]
    exact List.getElem?_concat_length

/-- The last line of the bytes before an offset holds the offset. -/
theorem holds (h : Parted (bytes.take offset) earlier line) :
    (ofBytes bytes).Holds offset ((bytes.take offset).count lineFeed) earlier.length := by
  have hlength : earlier.length ≤ (bytes.take offset).length := by
    rw [h.bytes_eq, List.length_append]
    omega
  have hstarts : (ofBytes bytes).starts.toList =
      (0 :: startsAfter 0 earlier) ++
        startsAfter (bytes.take offset).length (bytes.drop offset) := by
    calc
      (ofBytes bytes).starts.toList =
          0 :: startsAfter 0 (bytes.take offset ++ bytes.drop offset) := by
        rw [List.take_append_drop]
        rfl
      _ = (0 :: startsAfter 0 (bytes.take offset)) ++
          startsAfter (bytes.take offset).length (bytes.drop offset) := by
        rw [startsAfter_append, Nat.zero_add, List.cons_append]
      _ = _ := by
        have hfront : startsAfter 0 (bytes.take offset) = startsAfter 0 earlier := by
          rw [h.bytes_eq, startsAfter_append, startsAfter_of_notMem _ h.open_line,
            List.append_nil]
        rw [hfront]
  have hcount : (0 :: startsAfter 0 earlier).length = earlier.count lineFeed + 1 := by
    rw [List.length_cons, length_startsAfter]
  rw [h.count_eq]
  refine ⟨?_, Nat.le_trans hlength (List.length_take_le _ _), fun later next hlater hnext => ?_⟩
  · rw [← Array.getElem?_toList, hstarts, List.getElem?_append_left (by omega)]
    exact h.last_start
  · rw [← Array.getElem?_toList, hstarts, List.getElem?_append_right (by omega)] at hnext
    have hmem := List.mem_of_getElem? hnext
    have hlt := lt_of_mem_startsAfter hmem
    -- only where bytes follow the offset another line can start
    have hrest : bytes.drop offset ≠ [] := by
      intro hnil
      rw [hnil] at hmem
      cases hmem
    rw [List.length_take] at hlt
    rw [ne_eq, List.drop_eq_nil_iff] at hrest
    omega

end Parted

/-! ## Order -/

end Lines

/-- One place stands before another in reading order. -/
def LinePosition.Before (p q : LinePosition) : Prop :=
  p.line < q.line ∨ p.line = q.line ∧ p.column < q.column

theorem LinePosition.Before.asymm {p q : LinePosition} (h : p.Before q) : ¬ q.Before p := by
  unfold LinePosition.Before at *
  omega

namespace Lines
variable {lines : Lines}

theorem Holds.before {a b line line' start start' : Nat} (h : lines.Holds a line start)
    (h' : lines.Holds b line' start') (hlt : a < b) :
    (lines.positionOf a).Before (lines.positionOf b) := by
  rw [h.positionOf_eq, h'.positionOf_eq]
  rcases Nat.lt_trichotomy line line' with hline | rfl | hline
  · exact .inl hline
  · obtain rfl := Option.some.inj (h.start_eq.symm.trans h'.start_eq)
    have := h.start_le
    exact .inr ⟨rfl, by dsimp only; omega⟩
  · have := h'.lt_next line start hline h.start_eq
    have := h.start_le
    omega

theorem before_of_lt (bytes : List UInt8) {a b : Nat} (h : a < b) :
    ((ofBytes bytes).positionOf a).Before ((ofBytes bytes).positionOf b) := by
  obtain ⟨_, _, ha⟩ := exists_parted (bytes.take a)
  obtain ⟨_, _, hb⟩ := exists_parted (bytes.take b)
  exact ha.holds.before hb.holds h

theorem lt_iff_before (bytes : List UInt8) (a b : Nat) :
    a < b ↔ ((ofBytes bytes).positionOf a).Before ((ofBytes bytes).positionOf b) := by
  refine ⟨before_of_lt bytes, fun h => ?_⟩
  rcases Nat.lt_trichotomy a b with hlt | rfl | hgt
  · exact hlt
  · exact absurd h h.asymm
  · exact absurd h (before_of_lt bytes hgt).asymm

theorem positionOf_injective (bytes : List UInt8) :
    Function.Injective (ofBytes bytes).positionOf := by
  intro a b heq
  have hirrefl (p : LinePosition) : ¬ p.Before p := fun h => h.asymm h
  have hab := lt_iff_before bytes a b
  have hba := lt_iff_before bytes b a
  rw [heq] at hab hba
  have := mt hab.mp (hirrefl _)
  have := mt hba.mp (hirrefl _)
  omega

/-! ## Reports -/

/-- An offset is found on the line that the line feeds before it count, in the column that counts
the bytes behind the last of them. -/
structure Locates (lines : Lines) (bytes : List UInt8) (offset : Nat) : Prop where
  line_eq : lines.lineOf offset = (bytes.take offset).count lineFeed
  position_eq : ∃ earlier line, Parted (bytes.take offset) earlier line ∧
    lines.starts[lines.lineOf offset]? = some earlier.length ∧ earlier.length ≤ offset ∧
    lines.positionOf offset = ⟨lines.lineOf offset, offset - earlier.length⟩

/-- The offset of a line and a column, both counted from one. -/
def offsetAt (lines : Lines) (line column : Nat) : Nat :=
  lines.starts.getD (line - 1) 0 + (column - 1)

theorem ofBytes_locates (bytes : List UInt8) (offset : Nat) :
    (ofBytes bytes).Locates bytes offset := by
  obtain ⟨earlier, line, hparted⟩ := exists_parted (bytes.take offset)
  have hholds := hparted.holds
  refine ⟨hholds.lineOf_eq, earlier, line, hparted, ?_, hholds.start_le, ?_⟩
  · rw [hholds.lineOf_eq]
    exact hholds.start_eq
  · rw [hholds.lineOf_eq]
    exact hholds.positionOf_eq

theorem offsetAt_positionOf (bytes : List UInt8) (offset : Nat) :
    (ofBytes bytes).offsetAt (((ofBytes bytes).positionOf offset).line + 1)
      (((ofBytes bytes).positionOf offset).column + 1) = offset := by
  obtain ⟨_, _, hparted⟩ := exists_parted (bytes.take offset)
  have hholds := hparted.holds
  have hle := hholds.start_le
  rw [hholds.positionOf_eq, offsetAt]
  dsimp only
  rw [Nat.add_sub_cancel, Nat.add_sub_cancel, Array.getD_eq_getD_getElem?, hholds.start_eq,
    Option.getD_some]
  omega

end Lines

/-- What a report shows of a diagnostic tells the line and column of its start, and from them the
start. -/
structure Located.Recovers (l : Located) (lines : Lines) : Prop where
  shown : ∃ members, l.toJson = .record members ∧
    ("start", .ofNat l.diagnostic.span.start) ∈ members ∧
    ("line", .ofNat l.line) ∈ members ∧ ("column", .ofNat l.column) ∈ members
  line_pos : 1 ≤ l.line
  column_pos : 1 ≤ l.column
  place_eq : l.place = lines.positionOf l.diagnostic.span.start
  offset_eq : lines.offsetAt l.line l.column = l.diagnostic.span.start

/-- The lines and columns of a source are those of its line feeds, they are in the order of the
offsets, and from those that a report shows the starts of its diagnostics can be recovered. -/
theorem Lines.positionOf_exact (source : String) :
    let lines := Lines.ofString source
    (∀ offset, lines.Locates (Lines.bytesOf source) offset) ∧
      Function.Injective lines.positionOf ∧
      (∀ a b, a < b ↔ (lines.positionOf a).Before (lines.positionOf b)) ∧
      ∀ file goal diagnostics stats,
        let report := FileReport.ofDiagnostics file goal source diagnostics stats
        report.diagnostics.map (·.diagnostic) = diagnostics.toList ∧
          ∀ l ∈ report.diagnostics, l.Recovers lines := by
  intro lines
  refine ⟨ofBytes_locates _, positionOf_injective _, lt_iff_before _,
    fun file goal diagnostics stats => ⟨?_, fun l hl => ?_⟩⟩
  · rw [FileReport.ofDiagnostics, List.map_map]
    exact List.map_id _
  · obtain ⟨d, -, rfl⟩ := List.mem_map.mp hl
    refine ⟨⟨_, rfl, ?_, ?_, ?_⟩, Nat.succ_pos _, Nat.succ_pos _, rfl, offsetAt_positionOf _ _⟩
    all_goals simp

/-- A diagnostic on a second line. -/
theorem Lines.second_line_recovered :
    let d := Diagnostic.report ⟨13, 1⟩ .expressionExpected
    let l : Located := ⟨d, ⟨1, 6⟩⟩
    l ∈ (FileReport.ofDiagnostics "a.js" .script "let a;\nlet = ;" ⟨#[d]⟩ none).diagnostics ∧
      l.Recovers (ofString "let a;\nlet = ;") := by
  intro d l
  have hplace : (ofString "let a;\nlet = ;").positionOf 13 = ⟨1, 6⟩ := by decide +kernel
  have hmem : l ∈
      (FileReport.ofDiagnostics "a.js" .script "let a;\nlet = ;" ⟨#[d]⟩ none).diagnostics :=
    List.mem_singleton.mpr (congrArg (Located.mk d) hplace.symm)
  exact ⟨hmem, ((positionOf_exact _).2.2.2 "a.js" .script ⟨#[d]⟩ none).2 l hmem⟩

end EcmaSyntax
