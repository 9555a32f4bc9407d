import EcmaSyntax.Diagnostic.Sink
import EcmaSyntax.Flag.Families

/-! # Lexemes

What is read at the front of a text: the kind of a token, the number of its characters, its flags,
and the fault that it has, if any. -/
namespace EcmaSyntax

/-- What can be wrong with a single token. -/
inductive Fault
  | unterminatedString | unterminatedTemplate | unterminatedRegularExpression | invalidCharacter
deriving DecidableEq

namespace Fault

def message : Fault → Message
  | unterminatedString => .unterminatedString
  | unterminatedTemplate => .unterminatedTemplate
  | unterminatedRegularExpression => .unterminatedRegularExpression
  | invalidCharacter => .invalidCharacter

/-- A missing end of a string or template is reported where it is missing, other faults over the
whole token. -/
def span (start stop : Nat) : Fault → Span
  | unterminatedString | unterminatedTemplate => .emptyAt stop
  | unterminatedRegularExpression | invalidCharacter => .between start stop

def report (start stop : Nat) (f : Fault) : Diagnostic := .report (f.span start stop) f.message

end Fault

/-- A token at the front of a text. -/
structure Lexeme where
  kind : Kind
  size : Nat
  flags : TokenFlags := ∅
  fault : Option Fault := none

/-- The first `size` characters of a text, with the flags that they call for. -/
structure Run where
  size : Nat := 0
  flags : TokenFlags := ∅

namespace Run

/-- A run with `n` more characters in front. -/
def after (n : Nat) (flags : TokenFlags) (r : Run) : Run := ⟨r.size + n, r.flags ∪ flags⟩

end Run
end EcmaSyntax
