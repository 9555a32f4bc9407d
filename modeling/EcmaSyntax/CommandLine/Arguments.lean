import EcmaSyntax.Options.Basic

/-! # Arguments of the command line

Files and options in any order. An option with a value takes it from behind an equals sign or from
the next argument; behind two hyphens every argument is a file. No option may be given twice. The
first argument that asks for help or for the version settles what is to be done. -/
namespace EcmaSyntax.CommandLine

/-- How diagnostics are shown. -/
inductive Format
  | pretty | json
deriving DecidableEq

/-- The format with a written name. -/
def Format.ofName? : String → Option Format
  | "pretty" => some .pretty
  | "json" => some .json
  | _ => none

/-- Options without a value. -/
inductive Switch
  | module | strict | withoutWebCompat | jsx | stats
deriving DecidableEq

/-- What a run is asked to do. -/
structure Settings where
  files : List String := []
  config : Option String := none
  format : Option Format := none
  switches : List Switch := []

/-- What the command line asks for. -/
inductive Request
  | run (settings : Settings)
  | help
  | version

/-- What can be wrong with the command line. -/
inductive UsageError
  | unknown (argument : String)
  | repeated (option : String)
  | missingValue (option : String)
  | needlessValue (option : String)
  | invalidFormat (value : String)
  | emptyPath
  | noFiles
deriving DecidableEq

namespace UsageError

def message : UsageError → String
  | unknown argument => s!"unexpected argument '{argument}' found"
  | repeated option => s!"the argument '{option}' cannot be used multiple times"
  | missingValue option => s!"a value is required for '{option}' but none was supplied"
  | needlessValue option => s!"unexpected value for '{option}' found; no more were expected"
  | invalidFormat value => s!"invalid value '{value}' for '--format'"
  | emptyPath => "a file name must not be empty"
  | noFiles => "the following required arguments were not provided: <FILE>..."

end UsageError

/-- What a word behind two hyphens names. -/
inductive LongOption
  | switch (s : Switch)
  | config
  | format
  | help
  | version

def LongOption.ofName? : String → Option LongOption
  | "module" => some (.switch .module)
  | "strict" => some (.switch .strict)
  | "disable-web-compat" => some (.switch .withoutWebCompat)
  | "jsx" => some (.switch .jsx)
  | "stats" => some (.switch .stats)
  | "config" => some .config
  | "format" => some .format
  | "help" => some .help
  | "version" => some .version
  | _ => none

namespace Settings

def addFile (s : Settings) (file : String) : Except UsageError Settings :=
  if file.isEmpty then .error .emptyPath else .ok { s with files := s.files ++ [file] }

def addFiles (s : Settings) (files : List String) : Except UsageError Settings :=
  files.foldlM addFile s

def addSwitch (s : Settings) (name : String) (w : Switch) : Except UsageError Settings :=
  if s.switches.contains w then .error (.repeated name)
  else .ok { s with switches := s.switches ++ [w] }

def setConfig (s : Settings) (file : String) : Except UsageError Settings :=
  if s.config.isSome then .error (.repeated "--config")
  else if file.isEmpty then .error (.missingValue "--config")
  else .ok { s with config := some file }

def setFormat (s : Settings) (value : String) : Except UsageError Settings :=
  if s.format.isSome then .error (.repeated "--format")
  else
    match Format.ofName? value with
    | some format => .ok { s with format := some format }
    | none => .error (.invalidFormat value)

/-- The options of a parse that the settings change. -/
def apply (s : Settings) (o : ParseOptions) : ParseOptions where
  goal := if s.switches.contains .module then .module else o.goal
  impliedStrict := o.impliedStrict || s.switches.contains .strict
  webCompat := o.webCompat && !s.switches.contains .withoutWebCompat
  jsx := o.jsx || s.switches.contains .jsx

end Settings

/-- Whether an argument cannot be the value of an option. -/
def isOption (argument : String) : Bool :=
  match argument.toList with
  | '-' :: _ :: _ => true
  | _ => false

/-- An argument split at its first equals sign. -/
def splitValue (argument : List Char) : String × Option String :=
  let name := argument.takeWhile (· != '=')
  let value := argument.drop name.length
  (String.ofList name, if value.isEmpty then none else some (String.ofList (value.drop 1)))

/-- The value of an option, attached or taken from the next argument, and the arguments behind. -/
def takeValue (option : String) (attached : Option String) (rest : List String) :
    Except UsageError (String × List String) :=
  match attached, rest with
  | some value, _ => .ok (value, rest)
  | none, value :: later =>
    if isOption value then .error (.missingValue option) else .ok (value, later)
  | none, [] => .error (.missingValue option)

/-- Settings that are complete. -/
def finish (s : Settings) : Except UsageError Request :=
  if s.files.isEmpty then .error .noFiles else .ok (.run s)

/-- Reads the arguments behind those that led to the given settings; the number bounds them. -/
def readArguments : Nat → Settings → List String → Except UsageError Request
  | 0, s, _ | _, s, [] => finish s
  | n + 1, s, argument :: rest =>
    match argument.toList with
    | ['-', '-'] => do finish (← s.addFiles rest)
    | '-' :: '-' :: word => do
      let (name, value) := splitValue word
      let written := "--" ++ name
      match LongOption.ofName? name, value with
      | none, _ => throw (.unknown argument)
      | some .config, _ =>
        let (file, rest) ← takeValue written value rest
        readArguments n (← s.setConfig file) rest
      | some .format, _ =>
        let (format, rest) ← takeValue written value rest
        readArguments n (← s.setFormat format) rest
      | some _, some _ => throw (.needlessValue written)
      | some (.switch w), none => readArguments n (← s.addSwitch written w) rest
      | some .help, none => return .help
      | some .version, none => return .version
    | '-' :: 'h' :: _ => .ok .help
    | '-' :: 'V' :: _ => .ok .version
    | '-' :: _ :: _ => .error (.unknown argument)
    | _ => do readArguments n (← s.addFile argument) rest

/-- What a list of arguments asks for. -/
def Request.ofArguments (arguments : List String) : Except UsageError Request :=
  readArguments arguments.length {} arguments

end EcmaSyntax.CommandLine
