import EcmaSyntax.Text.Classes

/-! # Trivia between tokens

Blanks, line breaks, comments and conflict markers. A conflict marker is a run of seven equal
characters at the start of a line; it is skipped to the end of its line and counts as a line
break. -/
namespace EcmaSyntax.Trivia

/-- What is known of the trivia at the front of a text. -/
structure Extent where
  size : Nat := 0
  lineBreak : Bool := false
  /-- Whether the last comment lacks its end. -/
  unclosed : Bool := false
deriving DecidableEq

namespace Extent

/-- Trivia with `n` more characters in front. -/
def after (n : Nat) (t : Extent) : Extent := { t with size := t.size + n }

/-- Trivia with a line break in front, if the condition holds. -/
def broken (c : Bool) (t : Extent) : Extent := { t with lineBreak := t.lineBreak || c }

end Extent

/-- Where a reader of trivia stands. -/
inductive Place
  | betweenTokens (atLineStart : Bool)
  | lineComment
  | blockComment
deriving DecidableEq

/-- Whether a text begins with the marks of a conflict. -/
def isConflictMarker : List Char → Bool
  | [] => false
  | c :: rest =>
    (c == '<' || c == '>' || c == '=' || c == '|') && (List.replicate 6 c).isPrefixOf rest

/-- The trivia at the front of a text. -/
def extent : Place → List Char → Extent
  | .blockComment, [] => { unclosed := true }
  | _, [] => {}
  | .betweenTokens _, '/' :: '/' :: rest => (extent .lineComment rest).after 2
  | .betweenTokens _, '/' :: '*' :: rest => (extent .blockComment rest).after 2
  | .betweenTokens atLineStart, c :: rest =>
    if Text.isLineTerminator c then
      ((extent (.betweenTokens (Text.isNewline c)) rest).after 1).broken true
    else if Text.isBlank c then (extent (.betweenTokens false) rest).after 1
    else if atLineStart && isConflictMarker (c :: rest) then
      ((extent .lineComment rest).after 1).broken true
    else {}
  | .lineComment, c :: rest =>
    if Text.isLineTerminator c then
      ((extent (.betweenTokens (Text.isNewline c)) rest).after 1).broken true
    else (extent .lineComment rest).after 1
  | .blockComment, '*' :: '/' :: rest => (extent (.betweenTokens false) rest).after 2
  | .blockComment, c :: rest =>
    ((extent .blockComment rest).after 1).broken (Text.isLineTerminator c)

/-- The number of characters before the end of the line. -/
def lineSize (text : List Char) : Nat := (text.takeWhile (!Text.isLineTerminator ·)).length

theorem size_le_length (place : Place) (text : List Char) :
    (extent place text).size ≤ text.length := by
  fun_induction extent place text <;> grind [Extent.after, Extent.broken]

end EcmaSyntax.Trivia
