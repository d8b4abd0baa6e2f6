import Nominal.Diagnostic.Cause
import Nominal.Source.Position

/-!
# Diagnostics

A `Diagnostic` is a cause at a place. A `Report` is the diagnostics of a whole program in the order
in which they were found; the program is accepted when its report is empty.
-/

namespace Nominal

/-- Something wrong at a stretch of a source text. -/
structure Diagnostic where
  cause : Cause
  span : Span
  deriving DecidableEq

namespace Diagnostic

/-- What is wrong, in words, without the place. -/
def message (d : Diagnostic) : String :=
  d.cause.message

/-- One line with the place and the message. -/
def summary (d : Diagnostic) : String :=
  let p := d.span.start
  s!"{p.file}:{p.line}:{p.column}: {d.message}"

end Diagnostic

/-- Diagnostics in the order in which they were found. -/
abbrev Report := List Diagnostic

namespace Report

/-- The report with one more diagnostic at its end. -/
def push (r : Report) (d : Diagnostic) : Report :=
  r ++ [d]

/-- The messages alone. -/
def messages (r : Report) : List String :=
  r.map Diagnostic.message

/-- One line for each diagnostic. -/
def summary (r : Report) : String :=
  String.join (r.map fun d => d.summary ++ "\n")

end Report

end Nominal
