import EcmaSyntax.Grammar.Context
import EcmaSyntax.Token.Scanner
import EcmaSyntax.Tree.Node

/-! # The state of a parse

A parse reads tokens from a scanner and reports diagnostics to a sink. Faults of a token reach the
sink when the token is consumed, so that they count for the node that consumes it. A checkpoint
keeps the present token and the number of diagnostics; going back to it cuts the sink to that
length, and is right as long as the sink has only grown. -/
namespace EcmaSyntax

structure ParseState where
  scanner : Scanner
  sink : Sink := ∅
  /-- How many nested rules are being read. -/
  depth : Nat := 0
  /-- Whether the limit of nesting has been reported. -/
  limitReported : Bool := false
deriving Inhabited

/-- Where a node begins, how many diagnostics there were, and what its prefix contributes. -/
structure Mark where
  start : Cursor
  reported : Nat
  flags : NodeFlags := ∅
  modifiers : ModifierFlags := ∅

namespace Mark

def withFlags (m : Mark) (flags : NodeFlags) : Mark := { m with flags := m.flags ∪ flags }

def withModifiers (m : Mark) (modifiers : ModifierFlags) : Mark :=
  { m with modifiers := m.modifiers ∪ modifiers }

end Mark

/-- What is kept of a state to which a parse may go back. The depth is not: every routine leaves
it as it was. -/
structure Checkpoint where
  reading : Reading
  reported : Nat
  limitReported : Bool

namespace ParseState

def reading (s : ParseState) : Reading := s.scanner.toReading
def token (s : ParseState) : Kind := s.scanner.token

/-- The place at which the present token starts. -/
def start (s : ParseState) : Cursor := s.scanner.start

/-- The place at which the last token consumed ends. -/
def full (s : ParseState) : Cursor := s.scanner.full

/-- The number of characters from the present token on. -/
def left (s : ParseState) : Nat := s.start.left

/-- The span of the present token. -/
def tokenSpan (s : ParseState) : Span := .between s.start.offset s.scanner.stop.offset

/-! ## What a parse does to its state -/

/-- Moves the faults held by the scanner to the sink. -/
def flush (s : ParseState) : ParseState :=
  let (held, scanner) := s.scanner.collect
  { s with scanner := scanner, sink := s.sink.extend held }

/-- Consumes the present token with its faults. -/
def consume (s : ParseState) (way : Scanner.Advance) : ParseState :=
  { s.flush with scanner := s.flush.scanner.advance way }

/-- Reads the present token anew. -/
def reread (s : ParseState) (way : Scanner.Rereading) : ParseState :=
  { s with scanner := s.scanner.reread way }

/-- Adds a diagnostic, unless the last one starts at the same place. -/
def push (s : ParseState) (d : Diagnostic) : ParseState :=
  if s.sink.last?.any (·.span.start == d.span.start) then s
  else { s with sink := s.sink.add d }

/-- Reports once that the limit of nesting is reached. -/
def reportLimit (s : ParseState) : ParseState :=
  if s.limitReported then s
  else { s with limitReported := true, sink := s.sink.add (.report s.tokenSpan .nestingTooDeep) }

def deeper (s : ParseState) : ParseState := { s with depth := s.depth + 1 }
def shallower (s : ParseState) : ParseState := { s with depth := s.depth - 1 }

/-! ## Going back -/

def checkpoint (s : ParseState) : Checkpoint := ⟨s.reading, s.sink.size, s.limitReported⟩

/-- Goes back to a checkpoint; what has been reported since is dropped, also by the scanner. -/
def rewind (s : ParseState) (c : Checkpoint) : ParseState :=
  { s with
    scanner := { toReading := c.reading }
    sink := s.sink.truncate c.reported
    limitReported := c.limitReported }

/-! ## Headers of nodes -/

/-- A mark at the present token. -/
def mark (s : ParseState) : Mark := ⟨s.start, s.sink.size, ∅, ∅⟩

/-- The header of a node that began at a mark and ends with the last token consumed. -/
def header (s : ParseState) (m : Mark) : Header where
  range := ⟨m.start.offset, max s.full.offset m.start.offset⟩
  flags := .when (m.reported < s.sink.size) NodeFlag.hasErrors ∪ m.flags
  modifiers := m.modifiers

/-- The header of a node that is missing before the present token. -/
def missingHeader (s : ParseState) : Header where
  range := ⟨s.start.offset, s.start.offset⟩
  flags := NodeFlag.hasErrors

end ParseState
end EcmaSyntax
