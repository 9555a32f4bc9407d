import EcmaSyntax.Json.Value

/-! # Reading JSON documents

A document is one value with blanks around it and nothing else. Reading follows the grammar
exactly: no comments, no trailing commas, no leading zeros, no control characters in strings. -/
namespace EcmaSyntax.Json.Reader

def isBlank (c : Char) : Bool := c == ' ' || c == '\n' || c == '\t' || c == '\r'

def skipBlanks (text : List Char) : List Char := text.dropWhile isBlank

def isDigit (c : Char) : Bool := '0' ≤ c && c ≤ '9'

/-- The value of a hexadecimal digit. -/
def hexDigit? (c : Char) : Option Nat :=
  if isDigit c then some (c.toNat - 48)
  else if 'a' ≤ c && c ≤ 'f' then some (c.toNat - 87)
  else if 'A' ≤ c && c ≤ 'F' then some (c.toNat - 55)
  else none

/-- The code unit written by four hexadecimal digits. -/
def unit? (a b c d : Char) : Option Nat := do
  let a ← hexDigit? a
  let b ← hexDigit? b
  let c ← hexDigit? c
  let d ← hexDigit? d
  return ((a * 16 + b) * 16 + c) * 16 + d

/-- The character of a simple escape. -/
def escape? : Char → Option Char
  | '\x22' => some '\x22'
  | '\\' => some '\\'
  | '/' => some '/'
  | 'b' => some '\x08'
  | 'f' => some '\x0c'
  | 'n' => some '\n'
  | 'r' => some '\r'
  | 't' => some '\t'
  | _ => none

/-- The code units of a string up to its closing quote, and what follows the quote. Characters
written as themselves are marked apart from escaped units. -/
def units : List Char → List (Char ⊕ Nat) → Option (List (Char ⊕ Nat) × List Char)
  | [], _ => none
  | '\x22' :: rest, acc => some (acc.reverse, rest)
  | '\\' :: 'u' :: a :: b :: c :: d :: rest, acc => do
    units rest (.inr (← unit? a b c d) :: acc)
  | '\\' :: e :: rest, acc => do units rest (.inl (← escape? e) :: acc)
  | c :: rest, acc => if c.toNat < 0x20 then none else units rest (.inl c :: acc)

/-- Joins surrogate pairs; nothing if half of a pair stands alone. -/
def joinPairs : List (Char ⊕ Nat) → Option (List Char)
  | [] => some []
  | .inl c :: rest => (joinPairs rest).map (c :: ·)
  | .inr high :: .inr low :: rest =>
    if 0xD800 ≤ high && high < 0xDC00 then
      if 0xDC00 ≤ low && low < 0xE000 then
        (joinPairs rest).map
          (Char.ofNat (0x10000 + (high - 0xD800) * 0x400 + (low - 0xDC00)) :: ·)
      else none
    else if 0xDC00 ≤ high && high < 0xE000 then none
    else (joinPairs (.inr low :: rest)).map (Char.ofNat high :: ·)
  | .inr unit :: rest =>
    if 0xD800 ≤ unit && unit < 0xE000 then none
    else (joinPairs rest).map (Char.ofNat unit :: ·)

/-- A string whose opening quote has been read: its text, if it has one, and what follows. -/
def text (source : List Char) : Option (Option String × List Char) := do
  let (units, rest) ← units source []
  return ((joinPairs units).map String.ofList, rest)

/-- At least one digit. -/
def digits (text : List Char) : Option (List Char × List Char) :=
  match text.takeWhile isDigit with
  | [] => none
  | ds => some (ds, text.dropWhile isDigit)

/-- The fraction of a number, if any. -/
def fraction : List Char → Option (List Char × List Char)
  | '.' :: rest => (digits rest).map fun (ds, rest) => ('.' :: ds, rest)
  | text => some ([], text)

/-- The exponent of a number, if any. -/
def exponent : List Char → Option (List Char × List Char)
  | [] => some ([], [])
  | e :: rest =>
    if e == 'e' || e == 'E' then
      match rest with
      | '+' :: rest => (digits rest).map fun (ds, rest) => (e :: '+' :: ds, rest)
      | '-' :: rest => (digits rest).map fun (ds, rest) => (e :: '-' :: ds, rest)
      | _ => (digits rest).map fun (ds, rest) => (e :: ds, rest)
    else some ([], e :: rest)

/-- A number without its sign. -/
def unsigned (text : List Char) : Option (List Char × List Char) := do
  let (whole, rest) ← match text with
    | '0' :: rest => some (['0'], rest)
    | _ => digits text
  let (part, rest) ← fraction rest
  let (power, rest) ← exponent rest
  return (whole ++ part ++ power, rest)

def number (text : List Char) : Option (Json × List Char) := do
  let (spelling, rest) ← match text with
    | '-' :: rest => (unsigned rest).map fun (ds, rest) => ('-' :: ds, rest)
    | _ => unsigned text
  return (.number (String.ofList spelling), rest)

mutual

/-- One value and what follows it; the first argument bounds the number of values and items. -/
def value : Nat → List Char → Option (Json × List Char)
  | 0, _ => none
  | n + 1, source =>
    match skipBlanks source with
    | 'n' :: 'u' :: 'l' :: 'l' :: rest => some (.null, rest)
    | 't' :: 'r' :: 'u' :: 'e' :: rest => some (.bool true, rest)
    | 'f' :: 'a' :: 'l' :: 's' :: 'e' :: rest => some (.bool false, rest)
    | '\x22' :: rest => (text rest).map fun (s, rest) => (.string s, rest)
    | '[' :: rest =>
      match skipBlanks rest with
      | ']' :: rest => some (.array [], rest)
      | rest => (items n rest).map fun (js, rest) => (.array js, rest)
    | '\x7b' :: rest =>
      match skipBlanks rest with
      | '\x7d' :: rest => some (.object [], rest)
      | rest => (members n rest).map fun (ms, rest) => (.object ms, rest)
    | rest => number rest

/-- The items of an array up to its closing bracket. -/
def items : Nat → List Char → Option (List Json × List Char)
  | 0, _ => none
  | n + 1, source => do
    let (item, rest) ← value n source
    match skipBlanks rest with
    | ',' :: rest => (items n rest).map fun (js, rest) => (item :: js, rest)
    | ']' :: rest => some ([item], rest)
    | _ => none

/-- The members of an object up to its closing brace. -/
def members : Nat → List Char → Option (List (Option String × Json) × List Char)
  | 0, _ => none
  | n + 1, source =>
    match skipBlanks source with
    | '\x22' :: rest => do
      let (key, rest) ← text rest
      match skipBlanks rest with
      | ':' :: rest =>
        let (item, rest) ← value n rest
        match skipBlanks rest with
        | ',' :: rest => (members n rest).map fun (ms, rest) => ((key, item) :: ms, rest)
        | '\x7d' :: rest => some ([(key, item)], rest)
        | _ => none
      | _ => none
    | _ => none

end

end EcmaSyntax.Json.Reader

namespace EcmaSyntax.Json

/-- The value of a document. Each value and each item takes one of the characters, so the bound is
never met. -/
def ofChars? (source : List Char) : Option Json :=
  match Reader.value (2 * source.length + 2) source with
  | some (j, rest) => if (Reader.skipBlanks rest).isEmpty then some j else none
  | none => none

end EcmaSyntax.Json
