import EcmaSyntax.Flag.Basic
import EcmaSyntax.Kind.Basic

/-! # Flags of nodes, modifiers, features and tokens

Four families: facts recorded about a node when it is built, the modifiers written in front of a
declaration, the language features that occur in a subtree, and facts about a token. -/
namespace EcmaSyntax

/-- Facts about one node. -/
inductive NodeFlag
  | letBinding | constBinding | hasErrors | synthesized | hasSideEffects | abstract | declared
  | ambient | precedingLineBreak | optionalChain
deriving DecidableEq

abbrev NodeFlags := FlagSet NodeFlag

namespace NodeFlag

def bit : NodeFlag → Nat
  | letBinding => 0
  | constBinding => 1
  | hasErrors => 2
  | synthesized => 3
  | hasSideEffects => 4
  | abstract => 5
  | declared => 6
  | ambient => 7
  | precedingLineBreak => 8
  | optionalChain => 9

instance : FlagFamily NodeFlag where
  bit := bit
  familyName := "NodeFlags"
  named :=
    [("NONE", []), ("LET", [letBinding]), ("CONST", [constBinding]), ("HAS_ERRORS", [hasErrors]),
      ("SYNTHESIZED", [synthesized]), ("HAS_SIDE_EFFECTS", [hasSideEffects]),
      ("ABSTRACT", [abstract]), ("DECLARED", [declared]), ("AMBIENT", [ambient]),
      ("PRECEDING_LINE_BREAK", [precedingLineBreak]), ("OPTIONAL_CHAIN", [optionalChain]),
      ("BLOCK_SCOPED", [letBinding, constBinding])]

/-- The flags of a `let` or `const` list. -/
def blockScoped : NodeFlags := .ofList [letBinding, constBinding]

end NodeFlag

/-- Modifiers of declarations and of parameter properties. -/
inductive ModifierFlag
  | exported | ambient | publicAccess | privateAccess | protectedAccess | static | readonly
  | accessor | abstract | async | default | const | override | decorator
deriving DecidableEq

abbrev ModifierFlags := FlagSet ModifierFlag

namespace ModifierFlag

def bit : ModifierFlag → Nat
  | exported => 0
  | ambient => 1
  | publicAccess => 2
  | privateAccess => 3
  | protectedAccess => 4
  | static => 5
  | readonly => 6
  | accessor => 7
  | abstract => 8
  | async => 9
  | default => 10
  | const => 11
  | override => 12
  | decorator => 13

/-- Modifiers that make a parameter a property as well. -/
def ofParameterProperty : List ModifierFlag :=
  [publicAccess, privateAccess, protectedAccess, readonly, override]

/-- Modifiers that only a typed program has. -/
def ofTypedProgram : List ModifierFlag :=
  [ambient, publicAccess, privateAccess, protectedAccess, readonly, abstract, const, override]

instance : FlagFamily ModifierFlag where
  bit := bit
  familyName := "ModifierFlags"
  named :=
    [("NONE", []), ("EXPORT", [exported]), ("AMBIENT", [ambient]), ("PUBLIC", [publicAccess]),
      ("PRIVATE", [privateAccess]), ("PROTECTED", [protectedAccess]), ("STATIC", [static]),
      ("READONLY", [readonly]), ("ACCESSOR", [accessor]), ("ABSTRACT", [abstract]),
      ("ASYNC", [async]), ("DEFAULT", [default]), ("CONST", [const]), ("OVERRIDE", [override]),
      ("DECORATOR", [decorator]),
      ("ACCESSIBILITY_MODIFIER", [publicAccess, privateAccess, protectedAccess]),
      ("PARAMETER_PROPERTY_MODIFIER", ofParameterProperty),
      ("TYPE_SCRIPT_MODIFIER", ofTypedProgram), ("EXPORT_DEFAULT", [exported, default])]

def parameterProperty : ModifierFlags := .ofList ofParameterProperty
def typedProgram : ModifierFlags := .ofList ofTypedProgram

/-- The modifier that a keyword contributes. -/
def ofKind : Kind → ModifierFlags
  | .exportKeyword => exported
  | .declareKeyword => ambient
  | .publicKeyword => publicAccess
  | .privateKeyword => privateAccess
  | .protectedKeyword => protectedAccess
  | .staticKeyword => static
  | .readonlyKeyword => readonly
  | .accessorKeyword => accessor
  | .abstractKeyword => abstract
  | .asyncKeyword => async
  | .defaultKeyword => default
  | .constKeyword => const
  | .overrideKeyword => override
  | _ => ∅

end ModifierFlag

/-- Language features that may occur in a subtree. -/
inductive TransformFlag
  | typescript | jsx | es2015 | es2016 | es2017 | es2018 | es2020 | es2021 | generator
  | yieldOperator | awaitOperator | decorators | lexicalThis
deriving DecidableEq

abbrev TransformFlags := FlagSet TransformFlag

namespace TransformFlag

def bit : TransformFlag → Nat
  | typescript => 0
  | jsx => 1
  | es2015 => 2
  | es2016 => 3
  | es2017 => 4
  | es2018 => 5
  | es2020 => 6
  | es2021 => 7
  | generator => 8
  | yieldOperator => 9
  | awaitOperator => 10
  | decorators => 11
  | lexicalThis => 12

instance : FlagFamily TransformFlag where
  bit := bit
  familyName := "TransformFlags"
  named :=
    [("NONE", []), ("CONTAINS_TYPESCRIPT", [typescript]), ("CONTAINS_JSX", [jsx]),
      ("CONTAINS_ES2015", [es2015]), ("CONTAINS_ES2016", [es2016]),
      ("CONTAINS_ES2017", [es2017]), ("CONTAINS_ES2018", [es2018]),
      ("CONTAINS_ES2020", [es2020]), ("CONTAINS_ES2021", [es2021]),
      ("CONTAINS_GENERATOR", [generator]), ("CONTAINS_YIELD", [yieldOperator]),
      ("CONTAINS_AWAIT", [awaitOperator]), ("CONTAINS_DECORATORS", [decorators]),
      ("CONTAINS_LEXICAL_THIS", [lexicalThis])]

end TransformFlag

/-- Facts about one token. -/
inductive TokenFlag
  | precedingLineBreak | precedingJsxTextLineBreak | unterminated | extendedUnicodeEscape
  | scientific | octal | hexSpecifier | binarySpecifier | octalSpecifier | containsSeparator
  | unicodeEscape | containsInvalidEscape | singleQuote
deriving DecidableEq

abbrev TokenFlags := FlagSet TokenFlag

namespace TokenFlag

def bit : TokenFlag → Nat
  | precedingLineBreak => 0
  | precedingJsxTextLineBreak => 1
  | unterminated => 2
  | extendedUnicodeEscape => 3
  | scientific => 4
  | octal => 5
  | hexSpecifier => 6
  | binarySpecifier => 7
  | octalSpecifier => 8
  | containsSeparator => 9
  | unicodeEscape => 10
  | containsInvalidEscape => 11
  | singleQuote => 12

instance : FlagFamily TokenFlag where
  bit := bit
  familyName := "TokenFlags"
  named :=
    [("NONE", []), ("PRECEDING_LINE_BREAK", [precedingLineBreak]),
      ("PRECEDING_JSX_TEXT_LINE_BREAK", [precedingJsxTextLineBreak]),
      ("UNTERMINATED", [unterminated]), ("EXTENDED_UNICODE_ESCAPE", [extendedUnicodeEscape]),
      ("SCIENTIFIC", [scientific]), ("OCTAL", [octal]), ("HEX_SPECIFIER", [hexSpecifier]),
      ("BINARY_SPECIFIER", [binarySpecifier]), ("OCTAL_SPECIFIER", [octalSpecifier]),
      ("CONTAINS_SEPARATOR", [containsSeparator]), ("UNICODE_ESCAPE", [unicodeEscape]),
      ("CONTAINS_INVALID_ESCAPE", [containsInvalidEscape]), ("SINGLE_QUOTE", [singleQuote]),
      ("NUMERIC_LITERAL_FLAGS",
        [scientific, octal, hexSpecifier, binarySpecifier, octalSpecifier, containsSeparator])]

end TokenFlag
end EcmaSyntax
