import EcmaSyntax.Json.Value

/-! # Printing JSON documents

Values are printed over several lines: two blanks per level, one item or member a line, a blank
after the colon of a member. Empty arrays and objects stay on one line. -/
namespace EcmaSyntax.Json

/-- A hexadecimal digit in lower case. -/
def hexDigit (n : Nat) : Char := Char.ofNat (if n < 10 then 48 + n else 87 + n)

/-- A character as it stands in a string. -/
def escapeChar (c : Char) : List Char :=
  match c with
  | '\x22' => ['\\', '\x22']
  | '\\' => ['\\', '\\']
  | '\x08' => ['\\', 'b']
  | '\x0c' => ['\\', 'f']
  | '\n' => ['\\', 'n']
  | '\r' => ['\\', 'r']
  | '\t' => ['\\', 't']
  | c =>
    if c.toNat < 0x20 then
      ['\\', 'u', '0', '0', hexDigit (c.toNat / 16), hexDigit (c.toNat % 16)]
    else [c]

/-- A text between quotes. -/
def quote (text : String) : String :=
  String.ofList ('\x22' :: text.toList.flatMap escapeChar ++ ['\x22'])

/-- A line break followed by the indentation of a level. -/
def newLine (level : Nat) : String := "\n" ++ String.ofList (List.replicate (2 * level) ' ')

/-- Items of one level between brackets. -/
def block (opening closing : String) (level : Nat) (items : List String) : String :=
  if items.isEmpty then opening ++ closing
  else
    opening ++ newLine (level + 1) ++ ("," ++ newLine (level + 1)).intercalate items
      ++ newLine level ++ closing

mutual

/-- The printed form of a value that stands at a level. -/
def pretty : Nat → Json → String
  | _, .null => "null"
  | _, .bool b => if b then "true" else "false"
  | _, .number spelling => spelling
  | _, .string text => quote (text.getD "")
  | level, .array items => block "[" "]" level (prettyItems (level + 1) items)
  | level, .object members => block "\x7b" "\x7d" level (prettyMembers (level + 1) members)

def prettyItems : Nat → List Json → List String
  | _, [] => []
  | level, item :: rest => pretty level item :: prettyItems level rest

def prettyMembers : Nat → List (Option String × Json) → List String
  | _, [] => []
  | level, (key, value) :: rest =>
    (quote (key.getD "") ++ ": " ++ pretty level value) :: prettyMembers level rest

end

end EcmaSyntax.Json
