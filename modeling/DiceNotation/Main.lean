import DiceNotation.Command.Run

/-!
# The command line

Reads `rollex.toml` from the working directory when it is there, runs the command line, prints
what the run printed, writes its error to the error stream, and exits with its code.  Dice
thrown without a seed take their seed from the clock.
-/

open DiceNotation

/-- The text of `rollex.toml` in the working directory, if it can be read. -/
def readSettingsFile : IO (Option String) := do
  try
    let text ← IO.FS.readFile "rollex.toml"
    pure (some text)
  catch _ =>
    pure none

/-- Runs the command line given by the arguments. -/
def main (args : List String) : IO UInt32 := do
  let file ← readSettingsFile
  let entropy ← IO.monoNanosNow
  let rep := runCommandLine args file entropy
  let out ← IO.getStdout
  out.putStr rep.stdout
  out.flush
  match rep.error with
  | some (kind, msg) => (← IO.getStderr).putStrLn (kind ++ ": " ++ msg)
  | none => pure ()
  pure rep.exitCode.toUInt32
