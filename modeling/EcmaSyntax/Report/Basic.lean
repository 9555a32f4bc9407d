import EcmaSyntax.Diagnostic.Sink
import EcmaSyntax.Json.Value
import EcmaSyntax.Source.Lines
import EcmaSyntax.Tree.Listing

/-! # Reports

What is said of a source that has been read: its diagnostics with their lines and columns, counted
from one, and statistics of its tree. -/
namespace EcmaSyntax

/-- How a diagnostic is ranked where it is shown beside its source. -/
inductive Severity
  | error | warning | advice
deriving DecidableEq

def Category.severity : Category → Severity
  | error => .error
  | warning => .warning
  | suggestion | message => .advice

/-- Counts of a tree and the time that it took. -/
structure ParseStats where
  statements : Nat
  nodes : Nat
  features : TransformFlags
  elapsedMicros : Nat

namespace ParseStats

/-- The statistics of a whole source. -/
def ofRoot (root : Node) (elapsedMicros : Nat) : ParseStats where
  statements := root.children.length
  nodes := root.size
  features := root.transformFlags
  elapsedMicros := elapsedMicros

/-- The statistics on one line. -/
def display (s : ParseStats) : String :=
  s!"{s.statements} statements, {s.nodes} nodes, {s.features.display}, " ++
    s!"parsed in {s.elapsedMicros}us"

def toJson (s : ParseStats) : Json :=
  .record [
    ("statements", .ofNat s.statements),
    ("nodes", .ofNat s.nodes),
    ("transformFlags", .ofString s.features.display),
    ("elapsedMicros", .ofNat s.elapsedMicros)]

end ParseStats

/-- A diagnostic with the place where it starts. -/
structure Located where
  diagnostic : Diagnostic
  place : LinePosition

namespace Located

/-- The line, counted from one. -/
def line (l : Located) : Nat := l.place.line + 1

/-- The column, counted from one. -/
def column (l : Located) : Nat := l.place.column + 1

def toJson (l : Located) : Json :=
  let d := l.diagnostic
  .record (
    [("code", .ofNat d.code), ("category", .ofString d.category.name),
      ("message", .ofString d.text)]
    ++ (d.argument.map fun a => ("argument", .ofString a)).toList
    ++ [("start", .ofNat d.span.start), ("length", .ofNat d.span.length),
      ("line", .ofNat l.line), ("column", .ofNat l.column)])

end Located

/-- The report on one file. -/
structure FileReport where
  file : String
  goal : Goal
  diagnostics : List Located
  stats : Option ParseStats

namespace FileReport

/-- The report on a file with the given text. -/
def ofDiagnostics (file : String) (goal : Goal) (source : String) (diagnostics : Sink)
    (stats : Option ParseStats) : FileReport :=
  let lines := Lines.ofString source
  ⟨file, goal, diagnostics.toList.map fun d => ⟨d, lines.positionOf d.span.start⟩, stats⟩

def toJson (r : FileReport) : Json :=
  .record (
    [("file", .ofString r.file), ("goal", .ofString r.goal.name),
      ("diagnostics", .array (r.diagnostics.map (·.toJson)))]
    ++ (r.stats.map fun s => ("stats", s.toJson)).toList)

end FileReport
end EcmaSyntax
