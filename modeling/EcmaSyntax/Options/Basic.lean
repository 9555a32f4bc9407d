/-! # Options of a parse

The goal symbol of the grammar and three switches: the older semantics kept for web pages, strict
code from the start, and JSX elements. -/
namespace EcmaSyntax

/-- The goal symbol. -/
inductive Goal
  | script | module
deriving DecidableEq, Inhabited

namespace Goal

/-- The written name of a goal. -/
def name : Goal → String
  | script => "script"
  | module => "module"

/-- The goal with exactly this name. -/
def ofName? : String → Option Goal
  | "script" => some script
  | "module" => some module
  | _ => none

/-- A capital letter of the Latin alphabet in its small form. -/
def lowerAscii (c : Char) : Char :=
  if 'A' ≤ c && c ≤ 'Z' then Char.ofNat (c.toNat + 32) else c

end Goal

/-- Failures to obtain options. -/
inductive OptionsError
  | unreadable
  | notOptions
  | unknownGoal (text : String)

/-- The wording of a failure that has one of its own. -/
def OptionsError.message : OptionsError → Option String
  | unknownGoal text =>
    some ("unknown goal \x60" ++ text ++ "\x60, expected \x60script\x60 or \x60module\x60")
  | _ => none

/-- Reads the name of a goal in any mixture of small and capital letters. -/
def Goal.parse (text : String) : Except OptionsError Goal :=
  match ofName? (text.map lowerAscii) with
  | some goal => .ok goal
  | none => .error (.unknownGoal text)

/-- Options of one parse. -/
structure ParseOptions where
  goal : Goal := .script
  webCompat : Bool := true
  impliedStrict : Bool := false
  jsx : Bool := false
deriving DecidableEq, Inhabited

namespace ParseOptions

def script : ParseOptions := {}

def module : ParseOptions := { goal := .module }

def isModule (o : ParseOptions) : Bool := o.goal == .module

end ParseOptions
end EcmaSyntax
