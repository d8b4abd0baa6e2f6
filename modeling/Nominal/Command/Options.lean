import Nominal.Syntax.Program
import Nominal.Text.Integer

/-!
# What the command is asked to do

The arguments name one file. Before, behind and around its path stand the options, each at most once:
`--max-depth` with a nesting limit, `--dump-typed` and `--dump-registry`.
-/

namespace Nominal

/-- What the command is asked to do. -/
structure Options where
  path : String
  limit : Nat
  showTyped : Bool
  showRegistry : Bool

/-- The arguments that were read so far. -/
structure Request where
  path? : Option String
  limit? : Option Nat
  showTyped : Bool
  showRegistry : Bool

/-- A nesting limit: a number that fits into 64 bits. -/
def nestingLimit? (text : String) : Option Nat :=
  let digits := match text.toList with
    | '+' :: digits => digits
    | digits => digits
  (decimal? digits).filter (· < UInt64.size)

namespace Request

/-- Before the first argument. -/
def empty : Request :=
  ⟨none, none, false, false⟩

/-- With the path of the file, which is given once. -/
def withPath? (r : Request) (path : String) : Option Request :=
  if r.path?.isSome || path.isEmpty then none else some { r with path? := some path }

/-- With the nesting limit, which is given at most once. -/
def withLimit? (r : Request) (text : String) : Option Request :=
  if r.limit?.isSome then none
  else (nestingLimit? text).map fun limit => { r with limit? := some limit }

/-- With an argument that stands for itself: a flag, a limit behind an equals sign, or the path. -/
def withWord? (r : Request) (word : String) : Option Request :=
  if word = "--dump-typed" then
    if r.showTyped then none else some { r with showTyped := true }
  else if word = "--dump-registry" then
    if r.showRegistry then none else some { r with showRegistry := true }
  else if "--max-depth=".toList.isPrefixOf word.toList then
    r.withLimit? (String.ofList (word.toList.drop "--max-depth=".length))
  else if word.toList.head? = some '-' ∧ word ≠ "-" then none
  else r.withPath? word

/-- With the given arguments, if they make sense. Behind `--` every argument is a path. -/
def with? (r : Request) : List String → Option Request
  | [] => some r
  | "--" :: paths => paths.foldlM withPath? r
  | "--max-depth" :: [] => none
  | "--max-depth" :: value :: rest => (r.withLimit? value).bind fun r => r.with? rest
  | word :: rest => (r.withWord? word).bind fun r => r.with? rest

/-- What the arguments ask for, if they name a file. -/
def options? (r : Request) : Option Options :=
  r.path?.map fun path =>
    ⟨path, r.limit?.getD defaultNestingLimit, r.showTyped, r.showRegistry⟩

end Request

namespace Options

/-- What a list of arguments asks for. -/
def ofList? (arguments : List String) : Option Options :=
  (Request.empty.with? arguments).bind Request.options?

/-- The name by which diagnostics call the file: its path without the directories. -/
def fileName (o : Options) : String :=
  String.ofList (o.path.toList.reverse.takeWhile (· != '/')).reverse

end Options

end Nominal
