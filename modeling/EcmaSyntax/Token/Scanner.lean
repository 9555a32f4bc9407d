import EcmaSyntax.Source.Cursor
import EcmaSyntax.Kind.Category
import EcmaSyntax.Token.Number
import EcmaSyntax.Token.Punctuator
import EcmaSyntax.Token.Quoted
import EcmaSyntax.Token.Trivia

/-! # The scanner

The scanner stands on one token at a time: where the trivia before it begins, where the token
begins and ends, its kind and its flags. It moves on to the next token, or reads the present one
anew where the grammar asks for another reading of the same characters. Faults of tokens are held
until they are collected. -/
namespace EcmaSyntax

/-- The lexeme at the front of a text without leading trivia. -/
def Lexeme.read : List Char → Lexeme
  | [] => ⟨.endOfFileToken, 0, ∅, none⟩
  | c :: rest =>
    if Text.isDecimalDigit c || (c == '.' && rest.head?.any Text.isDecimalDigit) then
      number (c :: rest)
    else if c == '\x22' || c == '\'' then string c rest
    else if c == '\x60' then template true rest
    else if c == '#' then (privateName? rest).getD invalid
    else
      match punctuator? (c :: rest) with
      | some (kind, size) => ⟨kind, size, ∅, none⟩
      | none => if startsName (c :: rest) then name (c :: rest) else invalid
where
  invalid : Lexeme := ⟨.unknown, 1, ∅, some .invalidCharacter⟩

/-- The present token: the end of the token before it, its own ends, its kind and flags. -/
structure Reading where
  full : Cursor
  start : Cursor
  stop : Cursor
  token : Kind := .unknown
  flags : TokenFlags := ∅
deriving Inhabited

namespace Reading

/-- The characters of the present token. -/
def spelling (r : Reading) : List Char := r.start.textTo r.stop

/-- The source text of the present token. -/
def text (r : Reading) : String := String.ofList r.spelling

/-- How many characters of a token are delimiters in front and behind. -/
def delimiters : Kind → Nat × Nat
  | .stringLiteral | .noSubstitutionTemplateLiteral | .templateTail => (1, 1)
  | .templateHead | .templateMiddle => (1, 2)
  | _ => (0, 0)

/-- The text of the present token without its delimiters; an unterminated one has none behind. -/
def value (r : Reading) : String :=
  let (front, behind) := delimiters r.token
  let behind := if r.flags.has .unterminated then 0 else behind
  String.ofList ((r.spelling.take (r.spelling.length - behind)).drop front)

/-- Whether a line break lies between the present token and the one before it. -/
def hasPrecedingLineBreak (r : Reading) : Bool := r.flags.has .precedingLineBreak

end Reading

/-- A scanner over a source. -/
structure Scanner extends Reading where
  pending : Sink := ∅
deriving Inhabited

namespace Scanner

/-- A scanner before the first token. -/
def ofText (text : List Char) : Scanner :=
  let start := Cursor.start text
  { full := start, start := start, stop := start }

/-- Makes another reading the present one. -/
def withReading (s : Scanner) (r : Reading) : Scanner := { s with toReading := r }

def report (s : Scanner) (d : Diagnostic) : Scanner := { s with pending := s.pending.add d }

/-- Reports the fault of a token with the given ends. -/
def reportFault (s : Scanner) (fault : Option Fault) : Scanner :=
  match fault with
  | none => s
  | some f => s.report (f.report s.start.offset s.stop.offset)

/-- The trivia behind the present token. -/
def trivia (s : Scanner) : Trivia.Extent :=
  Trivia.extent (.betweenTokens s.stop.atLineStart) s.stop.rest

/-- Moves over the trivia behind the present token, to where the next token starts. -/
def skipTrivia (s : Scanner) : Scanner :=
  let gap := s.trivia
  let start := s.stop.skip gap.size
  let s :=
    if gap.unclosed then s.report (.report (.emptyAt start.offset) .commentEndExpected) else s
  { s with
    full := s.stop
    start := start
    stop := start
    flags := .when gap.lineBreak TokenFlag.precedingLineBreak }

/-- Takes a lexeme at the start of the present token for the present token. -/
def take (s : Scanner) (l : Lexeme) : Scanner :=
  { s with
    stop := s.start.skip l.size
    token := l.kind
    flags := s.flags ∪ l.flags }.reportFault l.fault

/-- Moves to the next token; a slash is taken for a division. -/
def scan (s : Scanner) : Scanner :=
  let s := s.skipTrivia
  s.take (.read s.start.rest)

/-- Whether the present token begins with a slash. -/
def atSlash (s : Scanner) : Bool := s.token == .slashToken || s.token == .slashEqualsToken

/-- Reads a present slash as the start of a regular expression. -/
def rescanSlash (s : Scanner) : Scanner :=
  if s.atSlash then s.take (.regularExpression s.start.next.rest) else s

/-- Moves to the next token; a slash is taken for the start of a regular expression. -/
def scanAllowingRegularExpression (s : Scanner) : Scanner := s.scan.rescanSlash

/-- Reads a present greater-than sign together with the operator characters behind it. -/
def rescanGreaterThan (s : Scanner) : Scanner :=
  if s.token == .greaterThanToken then
    let (kind, size) := Lexeme.greaterThan s.stop.rest
    { s with token := kind, stop := s.stop.skip size }
  else s

/-- Reads a present closing brace as the end of a substitution in a template. -/
def rescanTemplate (s : Scanner) : Scanner :=
  if s.token == .closeBraceToken then s.take (.template false s.start.next.rest) else s

/-- Extends a present name by the segments that follow it after hyphens. -/
def rescanHyphenatedName (s : Scanner) : Scanner :=
  if s.token.isName && s.stop.rest.head? == some '-' then
    let run := Lexeme.nameRun (fun c => c == '-' || Text.isNamePart c) 0 s.stop.rest
    { s with token := .identifier, stop := s.stop.skip run.size, flags := s.flags ∪ run.flags }
  else s

/-- The lexeme at the front of the children of an element: a brace, an angle bracket, or text up to
the next one. -/
def childLexeme (text : List Char) : Lexeme :=
  match text with
  | [] => ⟨.endOfFileToken, 0, ∅, none⟩
  | '<' :: '/' :: _ => ⟨.lessThanSlashToken, 2, ∅, none⟩
  | '<' :: _ => ⟨.lessThanToken, 1, ∅, none⟩
  | '{' :: _ => ⟨.openBraceToken, 1, ∅, none⟩
  | _ =>
    let body := text.takeWhile fun c => c != '{' && c != '<'
    ⟨.jsxText, body.length,
      .when (body.any Text.isLineTerminator) TokenFlag.precedingJsxTextLineBreak, none⟩

/-- Moves to the next token among the children of an element. -/
def scanChild (s : Scanner) : Scanner :=
  { s with full := s.stop, start := s.stop, flags := ∅ }.take (childLexeme s.stop.rest)

/-- A string without escapes behind its opening quote. -/
def plainString (quote : Char) (rest : List Char) : Lexeme :=
  let body := rest.takeWhile (· != quote)
  let closed := body.length < rest.length
  { kind := .stringLiteral
    size := body.length + if closed then 2 else 1
    flags := .when (quote == '\'') TokenFlag.singleQuote
      ∪ .when (!closed) TokenFlag.unterminated
    fault := if closed then none else some .unterminatedString }

/-- Moves to the value of an attribute: a string without escapes, or else any token. The trivia
before any other token is looked at twice, and its faults are reported both times. -/
def scanAttributeValue (s : Scanner) : Scanner :=
  let t := s.skipTrivia
  match t.start.rest with
  | '\x22' :: rest => t.take (plainString '\x22' rest)
  | '\'' :: rest => t.take (plainString '\'' rest)
  | _ => { s with pending := t.pending }.scan

/-- The ways to move to the next token. -/
inductive Advance
  | plain | expression | child | attributeValue
deriving DecidableEq

/-- Moves to the next token in a given way. -/
def advance (s : Scanner) : Advance → Scanner
  | .plain => s.scan
  | .expression => s.scanAllowingRegularExpression
  | .child => s.scanChild
  | .attributeValue => s.scanAttributeValue

/-- The ways to read the present token anew. -/
inductive Rereading
  | slash | greaterThan | template | hyphenatedName
deriving DecidableEq

/-- Reads the present token anew in a given way. -/
def reread (s : Scanner) : Rereading → Scanner
  | .slash => s.rescanSlash
  | .greaterThan => s.rescanGreaterThan
  | .template => s.rescanTemplate
  | .hyphenatedName => s.rescanHyphenatedName

/-- Leaves out a first line that names an interpreter. -/
def skipShebang (s : Scanner) : Scanner :=
  match s.stop.rest with
  | '#' :: '!' :: rest =>
    if s.stop.atStart then { s with stop := s.stop.skip (2 + Trivia.lineSize rest) } else s
  | _ => s

/-- The faults held so far, and the scanner that holds none. -/
def collect (s : Scanner) : Sink × Scanner := (s.pending, { s with pending := ∅ })

/-- Goes back to an earlier state of the scanner; faults held since then are dropped. -/
def rewind (s earlier : Scanner) : Scanner :=
  { earlier with pending := s.pending.truncate earlier.pending.size }

/-- Runs a routine on the scanner and goes back to where it started. -/
def lookAhead {α : Type} (s : Scanner) (routine : Scanner → α × Scanner) : α × Scanner :=
  let (result, later) := routine s
  (result, later.rewind s)

/-- Runs a routine on the scanner and goes back to where it started if it fails. -/
def attempt {α : Type} (s : Scanner) (routine : Scanner → Option α × Scanner) :
    Option α × Scanner :=
  let (result, later) := routine s
  (result, if result.isSome then later else later.rewind s)

end Scanner
end EcmaSyntax
