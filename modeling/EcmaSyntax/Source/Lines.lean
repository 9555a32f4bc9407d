/-! # Lines of a source

The offsets at which lines start, and from them the line and column of an offset, which is looked
for among the line starts by halving. A line ends after a line feed; the other line terminators of
the language do not count here. Lines and columns are counted from zero, columns in bytes. -/
namespace EcmaSyntax

/-- A line and a column. -/
structure LinePosition where
  line : Nat
  column : Nat
deriving DecidableEq

/-- The offsets at which the lines of a source start, in order. -/
structure Lines where
  starts : Array Nat
  ordered : starts.toList.Pairwise (· < ·)

namespace Lines

/-- The byte that ends a line. -/
def lineFeed : UInt8 := 0x0A

/-- The bytes of a text in UTF-8. -/
def bytesOf (text : String) : List UInt8 := text.toUTF8.data.toList

/-- The starts of the lines that follow the line feeds among bytes read from an offset on. -/
def startsAfter : Nat → List UInt8 → List Nat
  | _, [] => []
  | offset, byte :: rest =>
    if byte = lineFeed then (offset + 1) :: startsAfter (offset + 1) rest
    else startsAfter (offset + 1) rest

theorem lt_of_mem_startsAfter {offset start : Nat} {bytes : List UInt8}
    (h : start ∈ startsAfter offset bytes) : offset < start := by
  induction bytes generalizing offset with
  | nil => cases h
  | cons byte rest ih =>
    rw [startsAfter] at h
    split at h
    · rcases List.mem_cons.mp h with rfl | h
      · exact Nat.lt_succ_self offset
      · exact Nat.lt_of_succ_lt (ih h)
    · exact Nat.lt_of_succ_lt (ih h)

theorem startsAfter_ordered (offset : Nat) (bytes : List UInt8) :
    (startsAfter offset bytes).Pairwise (· < ·) := by
  induction bytes generalizing offset with
  | nil => exact .nil
  | cons byte rest ih =>
    rw [startsAfter]
    split
    · exact .cons (fun _ => lt_of_mem_startsAfter) (ih _)
    · exact ih _

def ofBytes (bytes : List UInt8) : Lines where
  starts := (0 :: startsAfter 0 bytes).toArray
  ordered := .cons (fun _ => lt_of_mem_startsAfter) (startsAfter_ordered 0 bytes)

def ofString (text : String) : Lines := ofBytes (bytesOf text)

/-- What comes of looking for an offset among offsets in order: the index where it stands, or the
one where it would have to be put. -/
inductive Sought
  | found (index : Nat)
  | missing (index : Nat)
deriving DecidableEq

/-- Looks for an offset among the starts from the index `low` on and before the index `high`. -/
def search (starts : Array Nat) (offset low high : Nat) : Sought :=
  if low < high then
    let middle := low + (high - low) / 2
    match compare (starts.getD middle 0) offset with
    | .lt => search starts offset (middle + 1) high
    | .eq => .found middle
    | .gt => search starts offset low middle
  else .missing low
termination_by high - low

/-- The line of an offset. -/
def lineOf (lines : Lines) (offset : Nat) : Nat :=
  match search lines.starts offset 0 lines.starts.size with
  | .found line => line
  | .missing line => line - 1

/-- The line and column of an offset. -/
def positionOf (lines : Lines) (offset : Nat) : LinePosition :=
  let line := lines.lineOf offset
  ⟨line, offset - lines.starts.getD line 0⟩

end Lines
end EcmaSyntax
