import Nominal.Diagnostic.Basic
import Nominal.Source.Line
import Nominal.Text.Blank

/-!
# A diagnostic with the line it is about

Below the message and the place stands the source line, and below the line a marker: dashes up to
the first marked column and a caret under every column of the span.

```text
Error: UndefinedVariable (Undefined variable g)
-> final.ky:1:14
  |
1 | val y: Int = g(1);
  | -------------^
```

The line is shown without the spaces it starts with and the blanks it ends with, and the marker
moves to the left by as many columns as there were spaces. The first caret is set to the right in a
field of formatted text, so a diagnostic is only rendered when its column there is within the width
that such fields can have.
-/

namespace Nominal

/-- `text` with spaces before it, up to `width` characters. -/
def padLeft (width : Nat) (text : String) : String :=
  "".pushn ' ' (width - text.length) ++ text

/-- Why a diagnostic can not be rendered. -/
inductive RenderError where
  /-- The first caret stands further to the right than a field can be wide. -/
  | fieldTooWide
  deriving DecidableEq

/-- The reason in words. -/
def RenderError.message : RenderError → String
  | fieldTooWide => "Formatting argument out of range"

/-- The greatest width of a field of formatted text, which is kept in 16 bits. -/
def maxFieldWidth : Nat :=
  65535

namespace Diagnostic

/-- The message, with the tip if there is one, and the place. -/
def heading (d : Diagnostic) : String :=
  let p := d.span.start
  let tip := match d.cause.tip? with
    | some tip => s!"\n  tip: {tip}"
    | none => ""
  s!"Error: {d.cause.name} ({d.message}){tip}\n-> {p.file}:{p.line}:{p.column}\n"

/-- How many columns are marked: those of the span when it ends on its first line, else one. -/
def markedColumns (d : Diagnostic) : Nat :=
  if d.span.stop.line = d.span.start.line ∧ d.span.start.column < d.span.stop.column then
    d.span.stop.column.toNat - d.span.start.column.toNat
  else 1

/-- The column of the first caret under a line that lost `removed` spaces at its start. It is the
first column when the span starts among the lost spaces. -/
def caretColumn (d : Diagnostic) (removed : Nat) : Nat :=
  max (d.span.start.column.toNat - removed) 1

/-- The marker under a line that lost `removed` spaces at its start. -/
def marker (d : Diagnostic) (removed : Nat) : Except RenderError String :=
  let column := d.caretColumn removed
  if column ≤ maxFieldWidth then
    .ok ("".pushn '-' (column - 1) ++ "".pushn '^' d.markedColumns)
  else .error .fieldTooWide

/-- The line, numbered, with the marker under it. -/
def excerpt (d : Diagnostic) (line : String) : Except RenderError String := do
  let number := toString d.span.start.line.toNat
  let margin := padLeft (number.length + 2) "|"
  let text := line.toList.dropWhile (· == ' ')
  let removed := (line.toList.takeWhile (· == ' ')).length
  let shown := String.ofList (dropWhileEnd isBlank text)
  return s!"{margin}\n{number} | {shown}\n{margin} {← d.marker removed}\n"

/-- The diagnostic with the line of `source` it is about, if `source` has that line. -/
def render (d : Diagnostic) (source : String) : Except RenderError String := do
  match line? source d.span.start.line with
  | some line => return d.heading ++ (← d.excerpt line)
  | none => return d.heading

end Diagnostic

end Nominal
