import EcmaSyntax.Kind.Spelling
import EcmaSyntax.Text.Classes
import EcmaSyntax.Token.Lexeme

/-! # Names

A name is a maximal run of name characters and escapes. A name that spells a keyword without any
escape is that keyword. -/
namespace EcmaSyntax.Lexeme

/-- An escape at the front of a text: four hexadecimal digits, or any positive number of them in
braces. -/
def escape? : List Char → Option Run
  | '\\' :: 'u' :: '{' :: rest =>
    let digits := rest.takeWhile Text.isHexDigit
    if !digits.isEmpty && (rest.drop digits.length).head? == some '}' then
      some ⟨digits.length + 4, .ofList [.unicodeEscape, .extendedUnicodeEscape]⟩
    else none
  | '\\' :: 'u' :: a :: b :: c :: d :: _ =>
    if [a, b, c, d].all Text.isHexDigit then some ⟨6, TokenFlag.unicodeEscape⟩ else none
  | _ => none

/-- The maximal run of the given characters and of escapes; the first number counts characters
that belong to an escape already read. -/
def nameRun (isPart : Char → Bool) : Nat → List Char → Run
  | _, [] => {}
  | left + 1, _ :: rest => (nameRun isPart left rest).after 1 ∅
  | 0, c :: rest =>
    if isPart c then (nameRun isPart 0 rest).after 1 ∅
    else
      match escape? (c :: rest) with
      | none => {}
      | some e => (nameRun isPart (e.size - 1) rest).after 1 e.flags

/-- Whether a name starts at the front of a text. -/
def startsName : List Char → Bool
  | [] => false
  | c :: rest => Text.isNameStart c || (escape? (c :: rest)).isSome

/-- The name at the front of a text. -/
def name (text : List Char) : Lexeme :=
  let run := nameRun Text.isNamePart 0 text
  let word :=
    if run.flags.has .unicodeEscape then none
    else Kind.ofKeyword? (String.ofList (text.take run.size))
  ⟨word.getD .identifier, run.size, run.flags, none⟩

/-- The private name at the front of a text that follows a number sign. A backslash before the
letter `u` is taken for the start of a name, even if no escape follows. -/
def privateName? : List Char → Option Lexeme
  | [] => none
  | c :: rest =>
    if Text.isNameStart c || (c == '\\' && rest.head? == some 'u') then
      let run := nameRun Text.isNamePart 0 (c :: rest)
      some ⟨.privateIdentifier, run.size + 1, run.flags, none⟩
    else none

end EcmaSyntax.Lexeme
