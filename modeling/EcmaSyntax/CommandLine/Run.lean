import EcmaSyntax.CommandLine.Arguments
import EcmaSyntax.Grammar.Source
import EcmaSyntax.Json.Printer
import EcmaSyntax.Options.Decode
import EcmaSyntax.Report.Basic

/-! # A run of the command line

Files are read one after the other. Diagnostics go to the error output, or into one JSON document on
the standard output. What has been written stays if a later file cannot be read. -/
namespace EcmaSyntax.CommandLine

/-- The effects of a run. -/
structure Console (m : Type → Type) where
  /-- The text of a file, if it can be read. -/
  read : String → m (Option String)
  /-- The time in microseconds. -/
  now : m Nat
  write : String → m Unit
  writeError : String → m Unit

/-- How a run ends. -/
inductive Exit
  | clean | flawed | misused
deriving DecidableEq

/-- The exit code. -/
def Exit.code : Exit → Nat
  | clean => 0
  | flawed => 1
  | misused => 2

def programName : String := "arrowhead"
def version : String := "0.1.0"

/-- The text that explains the arguments. -/
def usage : String :=
  "Usage: " ++ programName ++ " [OPTIONS] <FILE>...\n\n" ++
  "Arguments:\n" ++
  "  <FILE>...  Source files to parse\n\n" ++
  "Options:\n" ++
  "      --config <FILE>       JSON file with parse options\n" ++
  "      --module              Parse with the module goal\n" ++
  "      --strict              Parse as if every file began with \"use strict\"\n" ++
  "      --disable-web-compat  Turn off Annex B web-compatibility semantics\n" ++
  "      --jsx                 Recognise JSX in every file\n" ++
  "      --format <FORMAT>     Diagnostic output format [pretty, json]\n" ++
  "      --stats               Print node counts, root transform flags and timing per file\n" ++
  "  -h, --help                Print help\n" ++
  "  -V, --version             Print version\n"

/-- What follows the last dot of a file name, if the name has a part before it. -/
def extension? (path : String) : Option String :=
  let name := (path.toList.reverse.dropWhile (· == '/')).takeWhile (· != '/')
  let extension := name.takeWhile (· != '.')
  let before := (name.drop extension.length).drop 1
  if before.isEmpty || name == ['.', '.'] then none else some (String.ofList extension.reverse)

/-- The options for a file, by its extension. -/
def optionsFor (o : ParseOptions) (path : String) : ParseOptions :=
  match extension? path with
  | some "jsx" | some "tsx" => { o with jsx := true }
  | some "mjs" | some "mts" => { o with goal := .module }
  | _ => o

/-- What has been found in the files so far. -/
structure Tally where
  reports : Array FileReport := #[]
  diagnostics : Nat := 0
  errors : Nat := 0

section
variable {m : Type → Type} [Monad m] (console : Console m)

/-- Shows the diagnostics of a file, and its statistics on a line. -/
def showFile (file : String) (diagnostics : Sink) (stats : Option ParseStats) : m Unit := do
  for d in diagnostics.toList do
    console.writeError (file ++ d.display ++ "\n")
  if let some stats := stats then
    console.write (file ++ ": " ++ stats.display ++ "\n")

/-- Reads one file and adds what is found in it; none if it cannot be read. -/
def readSource (s : Settings) (base : ParseOptions) (file : String) (t : Tally) :
    m (Option Tally) := do
  match ← console.read file with
  | none =>
    console.writeError ("failed to read \x60" ++ file ++ "\x60\n")
    return none
  | some source =>
    let options := optionsFor base file
    let started ← console.now
    let result := parse source options
    let stopped ← console.now
    let stats :=
      if s.switches.contains .stats then some (ParseStats.ofRoot result.root (stopped - started))
      else none
    let t := { t with
      diagnostics := t.diagnostics + result.diagnostics.size
      errors := t.errors + result.diagnostics.toList.countP (·.isError) }
    if s.format == some .json then
      let report := FileReport.ofDiagnostics file options.goal source result.diagnostics stats
      return some { t with reports := t.reports.push report }
    showFile console file result.diagnostics stats
    return some t

/-- Reads files until one cannot be read. -/
def readSources (s : Settings) (base : ParseOptions) : List String → Tally → m (Option Tally)
  | [], t => return some t
  | file :: rest, t => do
    match ← readSource console s base file t with
    | none => return none
    | some t => readSources s base rest t

/-- The options to start from, none if they cannot be obtained. -/
def baseOptions (s : Settings) : m (Option ParseOptions) := do
  match s.config with
  | none => return some (s.apply {})
  | some file =>
    let options : Except OptionsError ParseOptions := match ← console.read file with
      | none => .error .unreadable
      | some text => ParseOptions.ofDocument text
    match options with
    | .ok options => return some (s.apply options)
    | .error _ =>
      console.writeError ("failed to load options from \x60" ++ file ++ "\x60\n")
      return none

/-- Writes what is left to be said when all files have been read. -/
def summarize (s : Settings) (t : Tally) : m Unit := do
  if s.format == some .json then
    let document := Json.array (t.reports.toList.map (·.toJson))
    console.write (document.pretty 0 ++ "\n")
  else if t.errors > 0 then
    let plural := if t.errors == 1 then "" else "s"
    console.writeError s!"Found {t.errors} error{plural}.\n"

/-- Does what the settings ask for. -/
def runSettings (s : Settings) : m Exit := do
  let some base ← baseOptions console s | return .flawed
  let some t ← readSources console s base s.files {} | return .flawed
  summarize console s t
  return if t.diagnostics > 0 then .flawed else .clean

/-- A run with the given arguments. -/
def run (arguments : List String) : m Exit := do
  match Request.ofArguments arguments with
  | .error e =>
    console.writeError ("error: " ++ e.message ++ "\n\n" ++ usage)
    return .misused
  | .ok .help =>
    console.write usage
    return .clean
  | .ok .version =>
    console.write (programName ++ " " ++ version ++ "\n")
    return .clean
  | .ok (.run s) => runSettings console s

end
end EcmaSyntax.CommandLine
