import EcmaSyntax.Text.Classes
import EcmaSyntax.Token.Lexeme

/-! # Numbers

Integers in base two, eight and sixteen with a letter for the base; decimal numbers with fraction
and exponent; older octal numbers with a leading zero. Underscores separate digits. An integer may
end in `n`. -/
namespace EcmaSyntax.Lexeme

/-- The digits and underscores at the front of a text. -/
def digitRun (isDigit : Char → Bool) (text : List Char) : List Char :=
  text.takeWhile fun c => c == '_' || isDigit c

/-- The flag and the digits of the base that a letter stands for. -/
def radix? (letter : Char) : Option (TokenFlag × (Char → Bool)) :=
  match letter with
  | 'x' | 'X' => some (.hexSpecifier, Text.isHexDigit)
  | 'b' | 'B' => some (.binarySpecifier, Text.isBinaryDigit)
  | 'o' | 'O' => some (.octalSpecifier, Text.isOctalDigit)
  | _ => none

/-- The digits of an older octal number. -/
def isOldOctal (digits : List Char) : Bool :=
  digits.length > 1 && digits.head? == some '0' && digits.all Text.isOctalDigit

/-- A point and the digits behind it. -/
def fractionRun : List Char → List Char
  | '.' :: rest => '.' :: digitRun Text.isDecimalDigit rest
  | _ => []

/-- The exponent of a decimal number; without a digit it is none. -/
def exponentRun : List Char → List Char
  | [] => []
  | e :: rest =>
    let sign := if rest.head? == some '+' || rest.head? == some '-' then rest.take 1 else []
    let digits := digitRun Text.isDecimalDigit (rest.drop sign.length)
    if (e == 'e' || e == 'E') && digits.head?.any Text.isDecimalDigit then e :: sign ++ digits
    else []

/-- A number with the given characters, an integer with an `n` behind it if the rest begins so. -/
def numberOf (isInteger : Bool) (body rest : List Char) (flags : TokenFlags) : Lexeme :=
  let flags := flags ∪ .when (body.contains '_') TokenFlag.containsSeparator
  if isInteger && rest.head? == some 'n' then ⟨.bigIntLiteral, body.length + 1, flags, none⟩
  else ⟨.numericLiteral, body.length, flags, none⟩

/-- The decimal or older octal number at the front of a text. -/
def decimal (text : List Char) : Lexeme :=
  let whole := digitRun Text.isDecimalDigit text
  if isOldOctal whole then ⟨.numericLiteral, whole.length, TokenFlag.octal, none⟩
  else
    let fraction := fractionRun (text.drop whole.length)
    let mantissa := whole ++ fraction
    let exponent := exponentRun (text.drop mantissa.length)
    let body := mantissa ++ exponent
    numberOf (fraction.isEmpty && exponent.isEmpty) body (text.drop body.length)
      (.when (!exponent.isEmpty) TokenFlag.scientific)

/-- The number at the front of a text. -/
def number (text : List Char) : Lexeme :=
  match text with
  | '0' :: letter :: rest =>
    match radix? letter with
    | some (flag, isDigit) =>
      let digits := digitRun isDigit rest
      numberOf true ('0' :: letter :: digits) (rest.drop digits.length) flag
    | none => decimal text
  | _ => decimal text

end EcmaSyntax.Lexeme
