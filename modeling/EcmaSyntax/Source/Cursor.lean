/-! # Places in a source

A cursor stands between two characters of a source. It knows how many bytes lie before it, the
character just before it, the text after it and the length of that text. Cursors move forward only;
going back means taking up a cursor that was kept. -/
namespace EcmaSyntax

/-- A place between two characters of a source. -/
structure Cursor where
  offset : Nat
  previous : Option Char
  left : Nat
  rest : List Char
deriving Inhabited

namespace Cursor

/-- The beginning of a text. -/
def start (text : List Char) : Cursor := ⟨0, none, text.length, text⟩

/-- The place after the next character. -/
def next (c : Cursor) : Cursor :=
  match c.rest with
  | [] => c
  | ch :: rest => ⟨c.offset + ch.utf8Size, some ch, c.left - 1, rest⟩

/-- The place after the next `n` characters. -/
def skip : Nat → Cursor → Cursor
  | 0, c => c
  | n + 1, c => skip n c.next

/-- The text between two places of one source. -/
def textTo (c later : Cursor) : List Char := c.rest.take (c.left - later.left)

/-- Whether the cursor stands at the start of the source. -/
def atStart (c : Cursor) : Bool := c.previous.isNone

/-- Whether the cursor stands at the start of the source or just after a line feed or carriage
return. -/
def atLineStart (c : Cursor) : Bool :=
  match c.previous with
  | none => true
  | some ch => ch == '\n' || ch == '\r'

end Cursor
end EcmaSyntax
