import EcmaSyntax.CommandLine.Run

/-! # The program -/
open EcmaSyntax

/-- The console of the running process. -/
def processConsole : CommandLine.Console IO where
  read path := do
    try
      return some (← IO.FS.readFile path)
    catch _ => return none
  now := return (← IO.monoNanosNow) / 1000
  write text := do (← IO.getStdout).putStr text
  writeError text := do (← IO.getStderr).putStr text

def main (arguments : List String) : IO UInt32 := do
  return (← CommandLine.run processConsole arguments).code.toUInt32
