/-! # Spans and ranges of source text

Offsets count bytes of the source in UTF-8. A diagnostic carries a span, given by its start and
length; a node carries a half-open range, given by its two ends. -/
namespace EcmaSyntax

/-- A stretch of source text: `length` bytes from `start` on. -/
structure Span where
  start : Nat
  length : Nat
deriving DecidableEq

namespace Span

/-- The span between two offsets, empty at the first if the second comes before it. -/
def between (first last : Nat) : Span := ⟨first, last - first⟩

def emptyAt (offset : Nat) : Span := ⟨offset, 0⟩

/-- The offset after the last byte. -/
def stop (s : Span) : Nat := s.start + s.length

def isEmpty (s : Span) : Bool := s.length == 0

def contains (s : Span) (offset : Nat) : Bool := s.start ≤ offset && offset < s.stop

/-- The two ends joined by dots. -/
def dotted (s : Span) : String := s!"{s.start}..{s.stop}"

/-- The two ends as a half-open interval. -/
def bracketed (s : Span) : String := s!"[{s.start}, {s.stop})"

/-- The part of a span that lies within a text of `size` bytes. -/
def clampTo (s : Span) (size : Nat) : Span :=
  let start := min s.start size
  ⟨start, min s.length (size - start)⟩

theorem stop_between {first last : Nat} (h : first ≤ last) : (between first last).stop = last := by
  simp [between, stop]; omega

end Span

/-- The half-open range from `pos` to `stop`. -/
structure Range where
  pos : Nat
  stop : Nat
deriving DecidableEq, Inhabited

namespace Range

def length (r : Range) : Nat := r.stop - r.pos

def isEmpty (r : Range) : Bool := r.stop ≤ r.pos

def toSpan (r : Range) : Span := .between r.pos r.stop

/-- Whether a range lies entirely within another. -/
def encloses (r inner : Range) : Bool := r.pos ≤ inner.pos && inner.stop ≤ r.stop

/-- The two ends joined by dots. -/
def dotted (r : Range) : String := s!"{r.pos}..{r.stop}"

end Range
end EcmaSyntax
