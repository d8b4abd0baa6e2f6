import Nominal.Command.Options
import Nominal.Diagnostic.Excerpt
import Nominal.Session
import Nominal.Token.Scan
import Nominal.Typed.Outline

/-!
# What the command does

The command checks one file. An accepted program is shown on request, as its typed tree, as its
declarations, or both; for any other program the diagnostics are shown, each with the line it is
about.
-/

namespace Nominal

/-! ## The file -/

/-- Why a file can not be read as text. -/
inductive ReadError where
  | missing
  | denied
  | directory
  | notText
  | other (detail : String)
  deriving DecidableEq

/-- The reason in words. -/
def ReadError.message : ReadError → String
  | missing => "No such file or directory (os error 2)"
  | denied => "Permission denied (os error 13)"
  | directory => "Is a directory (os error 21)"
  | notText => "stream did not contain valid UTF-8"
  | other detail => detail

/-- The text that `bytes` encode. -/
def textOfBytes (bytes : ByteArray) : Except ReadError String :=
  match String.fromUTF8? bytes with
  | some text => .ok text
  | none => .error .notText

/-! ## What comes out -/

/-- What the command leaves: its exit code and what it wrote. -/
structure Outcome where
  exitCode : UInt32
  output : String
  errors : String
  deriving DecidableEq

/-- The checked program of a source text, or what is wrong with it. Nothing is checked unless the
whole text can be read as a program. -/
def checkSource (source file : String) (limit : Nat) : Except Report CheckedProgram :=
  match tokenize source file with
  | .error d => .error [d]
  | .ok tokens =>
    match parse tokens file limit with
    | .error d => .error [d]
    | .ok program => typeCheck program limit

/-- A declaration on a line of its own. -/
def Declaration.line (d : Declaration) : String :=
  s!"{d.id.text} {d.name}: {d.type.qualifiedName}\n"

namespace CheckedProgram

/-- The typed statements of a program as outlines. -/
def typedListing (p : CheckedProgram) : String :=
  String.join (p.statements.map fun s => (s.outline p.classes).render ++ "\n")

/-- The declarations of a program, one on each line. -/
def registryListing (p : CheckedProgram) : String :=
  String.join (p.registry.committed.map Declaration.line)

end CheckedProgram

/-- The diagnostics with their lines, up to the first that can not be rendered. -/
def Report.excerpts (source : String) : Report → String × Option RenderError
  | [] => ("", none)
  | d :: rest =>
    match d.render source with
    | .error e => ("", some e)
    | .ok text =>
      let (texts, failure?) := excerpts source rest
      (text ++ "\n" ++ texts, failure?)

namespace Outcome

/-- Nothing was checked. -/
def unreadable (o : Options) (e : ReadError) : Outcome :=
  ⟨1, "", s!"error: could not read '{o.path}': {e.message}\n"⟩

/-- The program was accepted. -/
def accepted (o : Options) (p : CheckedProgram) : Outcome :=
  let typed := if o.showTyped then p.typedListing else ""
  let registry := if o.showRegistry then p.registryListing else ""
  ⟨0, typed ++ registry, ""⟩

/-- The program was not accepted. The command breaks off at a diagnostic that can not be rendered. -/
def rejected (source : String) (report : Report) : Outcome :=
  let (excerpts, failure?) := report.excerpts source
  let noun := if report.length = 1 then "error" else "errors"
  match failure? with
  | none => ⟨1, "", s!"{excerpts}{report.length} {noun} found\n"⟩
  | some e => ⟨101, "", s!"{excerpts}{e.message}\n"⟩

/-- The arguments do not make sense. -/
def misused : Outcome :=
  ⟨2, "", "usage: [--max-depth N] [--dump-typed] [--dump-registry] FILE\n"⟩

end Outcome

namespace Options

/-- Runs the command on a file with the given contents. -/
def run (o : Options) (contents : Except ReadError String) : Outcome :=
  match contents with
  | .error e => .unreadable o e
  | .ok source =>
    match checkSource source o.fileName o.limit with
    | .ok program => .accepted o program
    | .error report => .rejected source report

end Options

end Nominal
