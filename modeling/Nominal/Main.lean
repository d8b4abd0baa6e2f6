import Nominal.Command.Run

/-!
# The program

Reads the file that the arguments name, runs the command, and prints what comes out.
-/

namespace Nominal

/-- The contents of the file at `path`. -/
def readSource (path : String) : IO (Except ReadError String) := do
  try
    return textOfBytes (← IO.FS.readBinFile path)
  catch
    | .noFileOrDirectory _ _ _ => return .error .missing
    | .permissionDenied _ _ _ => return .error .denied
    | .inappropriateType none _ _ => return .error .directory
    | e => return .error (.other (toString e))

/-- What comes out for a list of arguments. -/
def outcome (arguments : List String) : IO Outcome := do
  match Options.ofList? arguments with
  | some options => return options.run (← readSource options.path)
  | none => return .misused

end Nominal

/-- Runs the command, prints what comes out, and exits with its code. -/
def main (arguments : List String) : IO UInt32 := do
  let o ← Nominal.outcome arguments
  IO.print o.output
  IO.eprint o.errors
  return o.exitCode
