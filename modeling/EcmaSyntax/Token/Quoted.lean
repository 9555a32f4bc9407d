import EcmaSyntax.Token.Name

/-! # Strings, templates and regular expressions

Texts between delimiters, in which a backslash takes the character after it out of
consideration. -/
namespace EcmaSyntax.Lexeme

/-- The rest of a string behind its opening quote, and whether it is closed. A string ends
unclosed at the end of its line. -/
def stringBody (quote : Char) : List Char → Nat × Bool
  | [] => (0, false)
  | '\\' :: '\r' :: '\n' :: rest => let (n, closed) := stringBody quote rest; (n + 3, closed)
  | '\\' :: _ :: rest => let (n, closed) := stringBody quote rest; (n + 2, closed)
  | c :: rest =>
    if c == quote then (1, true)
    else if Text.isNewline c then (0, false)
    else let (n, closed) := stringBody quote rest; (n + 1, closed)

/-- The string behind an opening quote. -/
def string (quote : Char) (rest : List Char) : Lexeme :=
  let (n, closed) := stringBody quote rest
  { kind := .stringLiteral
    size := n + 1
    flags := .when (quote == '\'') TokenFlag.singleQuote
      ∪ .when (!closed) TokenFlag.unterminated
    fault := if closed then none else some .unterminatedString }

/-- How a piece of template text ends. -/
inductive TemplateEnd
  | closed | substitution | missing
deriving DecidableEq

/-- The rest of a piece of template text behind its opening delimiter. -/
def templateBody : List Char → Nat × TemplateEnd
  | [] => (0, .missing)
  | '\\' :: '\r' :: '\n' :: rest => let (n, e) := templateBody rest; (n + 3, e)
  | '\\' :: _ :: rest => let (n, e) := templateBody rest; (n + 2, e)
  | '$' :: '{' :: _ => (2, .substitution)
  | c :: rest => if c == '\x60' then (1, .closed) else let (n, e) := templateBody rest; (n + 1, e)

/-- The piece of template text behind its opening delimiter, the first piece or a later one. -/
def template (first : Bool) (rest : List Char) : Lexeme :=
  let (n, ending) := templateBody rest
  { kind :=
      if ending == .substitution then if first then .templateHead else .templateMiddle
      else if first then .noSubstitutionTemplateLiteral else .templateTail
    size := n + 1
    flags := .when (ending == .missing) TokenFlag.unterminated
    fault := if ending == .missing then some .unterminatedTemplate else none }

/-- The rest of a regular expression behind its opening slash, with the flags behind the closing
one, and whether it is closed. Within brackets a slash closes nothing; a regular expression ends
unclosed at the end of its line. -/
def regularExpressionBody : Bool → List Char → Run × Bool
  | _, [] => ({}, false)
  | inClass, '\\' :: c :: rest =>
    if Text.isNewline c then ({ size := 1 }, false)
    else let (run, closed) := regularExpressionBody inClass rest; (run.after 2 ∅, closed)
  | inClass, c :: rest =>
    if Text.isLineTerminator c then ({}, false)
    else if c == '/' && !inClass then ((nameRun Text.isNamePart 0 rest).after 1 ∅, true)
    else
      let (run, closed) := regularExpressionBody (c == '[' || (inClass && c != ']')) rest
      (run.after 1 ∅, closed)

/-- The regular expression behind an opening slash. -/
def regularExpression (rest : List Char) : Lexeme :=
  let (run, closed) := regularExpressionBody false rest
  { kind := .regularExpressionLiteral
    size := run.size + 1
    flags := run.flags ∪ .when (!closed) TokenFlag.unterminated
    fault := if closed then none else some .unterminatedRegularExpression }

end EcmaSyntax.Lexeme
