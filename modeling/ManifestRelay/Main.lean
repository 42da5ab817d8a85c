import ManifestRelay.CommandLine.Launch

/-!
# The program

Starts with its arguments and environment, writes its log, and runs until its
input ends.
-/

namespace ManifestRelay.CommandLine

def variableNames : List String := "RUST_LOG" :: flags.map Flag.variableName

/-- Read to the end of the input. -/
partial def awaitEnd (input : IO.FS.Stream) : IO Unit := do
  unless (← input.getLine).isEmpty do awaitEnd input

def printLines (lines : List (Relay.Level × String)) : IO Unit := do
  for (level, text) in lines do
    IO.println s!"{level.name} {logTarget}: {text}"

end ManifestRelay.CommandLine

open ManifestRelay.CommandLine in
def main (arguments : List String) : IO UInt32 := do
  let found ← variableNames.filterMapM fun name => do
    return (← IO.getEnv name).map (name, ·)
  let environment (name : String) := found.lookup name
  let started := run arguments environment none
  printLines started.logs
  match Options.read arguments environment with
  | .error e => IO.eprintln e.message
  | .ok _ =>
      match started.failure with
      | some text => IO.eprintln text
      | none =>
          awaitEnd (← IO.getStdin)
          let stopped := run arguments environment (some .interrupt)
          printLines (stopped.logs.drop started.logs.length)
  return started.status.toUInt32
