import EcmaSyntax.Json.Reader
import EcmaSyntax.Options.Basic

/-! # Options from a document

A document with options is an object whose members set single options, or an array that gives them
in a fixed order. What is not set keeps its default. Unknown members are passed over; setting an
option twice, or to a value of another type, is an error. -/
namespace EcmaSyntax.ParseOptions

/-- A goal is its name, or an object that holds nothing but that name, with the value null. -/
def goalOf? : Json → Option Goal
  | .string (some text) => Goal.ofName? text
  | .object [(some text, .null)] => Goal.ofName? text
  | _ => none

def boolOf? : Json → Option Bool
  | .bool b => some b
  | _ => none

/-- The options set so far. -/
structure Settings where
  goal : Option Goal := none
  webCompat : Option Bool := none
  impliedStrict : Option Bool := none
  jsx : Option Bool := none

/-- The options with defaults for what is not set. -/
def Settings.complete (s : Settings) : ParseOptions where
  goal := s.goal.getD .script
  webCompat := s.webCompat.getD true
  impliedStrict := s.impliedStrict.getD false
  jsx := s.jsx.getD false

/-- Takes over one member of an object. -/
def Settings.set (s : Settings) : Option String → Json → Option Settings
  | none, _ => none
  | some "goal", j => if s.goal.isSome then none else (goalOf? j).map ({ s with goal := some · })
  | some "webCompat", j =>
    if s.webCompat.isSome then none else (boolOf? j).map ({ s with webCompat := some · })
  | some "impliedStrict", j =>
    if s.impliedStrict.isSome then none else (boolOf? j).map ({ s with impliedStrict := some · })
  | some "jsx", j => if s.jsx.isSome then none else (boolOf? j).map ({ s with jsx := some · })
  | some _, _ => some s

def Settings.setAll (s : Settings) : List (Option String × Json) → Option Settings
  | [] => some s
  | (key, value) :: rest => (s.set key value).bind (·.setAll rest)

/-- The options of an array, by position. -/
def ofItems? : List Json → Option Settings
  | [] => some {}
  | [g] => do return { goal := some (← goalOf? g) }
  | [g, w] => do return { goal := some (← goalOf? g), webCompat := some (← boolOf? w) }
  | [g, w, s] => do
    return { goal := some (← goalOf? g), webCompat := some (← boolOf? w),
             impliedStrict := some (← boolOf? s) }
  | [g, w, s, j] => do
    return { goal := some (← goalOf? g), webCompat := some (← boolOf? w),
             impliedStrict := some (← boolOf? s), jsx := some (← boolOf? j) }
  | _ => none

/-- The options that a value describes. -/
def ofJson? : Json → Option ParseOptions
  | .object members => (Settings.setAll {} members).map (·.complete)
  | .array items => (ofItems? items).map (·.complete)
  | _ => none

/-- The options that a document describes. -/
def ofDocument (text : String) : Except OptionsError ParseOptions :=
  match (Json.ofChars? text.toList).bind ofJson? with
  | some options => .ok options
  | none => .error .notOptions

end EcmaSyntax.ParseOptions
