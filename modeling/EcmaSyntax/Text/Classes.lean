import EcmaSyntax.Text.NameRanges

/-! # Classes of characters

Blanks, line terminators, digits and the characters of names. -/
namespace EcmaSyntax.Text

/-- The four characters that end a line. -/
def isLineTerminator (c : Char) : Bool :=
  c == '\n' || c == '\r' || c == '\u2028' || c == '\u2029'

/-- The two line terminators that end a string literal. -/
def isNewline (c : Char) : Bool := c == '\n' || c == '\r'

/-- Blanks within a line. -/
def isBlank (c : Char) : Bool :=
  let n := c.toNat
  c == ' ' || c == '\t' || n == 0x0B || n == 0x0C || n == 0xA0 || n == 0x1680
    || (0x2000 ≤ n && n ≤ 0x200A) || n == 0x202F || n == 0x205F || n == 0x3000 || n == 0xFEFF

/-- Characters with the property `White_Space`. -/
def isWhiteSpace (c : Char) : Bool :=
  let n := c.toNat
  (9 ≤ n && n ≤ 13) || n == 0x20 || n == 0x85 || n == 0xA0 || n == 0x1680
    || (0x2000 ≤ n && n ≤ 0x200A) || n == 0x2028 || n == 0x2029 || n == 0x202F || n == 0x205F
    || n == 0x3000

def isDecimalDigit (c : Char) : Bool := '0' ≤ c && c ≤ '9'
def isOctalDigit (c : Char) : Bool := '0' ≤ c && c ≤ '7'
def isBinaryDigit (c : Char) : Bool := c == '0' || c == '1'
def isHexDigit (c : Char) : Bool :=
  isDecimalDigit c || ('a' ≤ c && c ≤ 'f') || ('A' ≤ c && c ≤ 'F')

def isAsciiLetter (c : Char) : Bool := ('a' ≤ c && c ≤ 'z') || ('A' ≤ c && c ≤ 'Z')

def isAscii (c : Char) : Bool := c.toNat < 0x80

/-- Whether a character lies in one of the ranges. -/
def inRanges (ranges : List (Nat × Nat)) (c : Char) : Bool :=
  ranges.any fun (first, last) => first ≤ c.toNat && c.toNat ≤ last

/-- Characters that may start a name. -/
def isNameStart (c : Char) : Bool :=
  c == '_' || c == '$' || isAsciiLetter c || (!isAscii c && inRanges NameRanges.starts c)

/-- Characters that may continue a name. -/
def isNamePart (c : Char) : Bool :=
  isNameStart c || isDecimalDigit c || (!isAscii c && inRanges NameRanges.extras c)

end EcmaSyntax.Text
