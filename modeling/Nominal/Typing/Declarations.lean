import Nominal.Typing.Types

/-!
# Declaring variables, parameters and functions

A declaration is entered into the registry first and into the current frame then. When the frame
refuses it, the registry keeps it only in a layer that is about to be dropped.
-/

namespace Nominal

namespace Context

/-- Enters a variable into the current frame; `refused` says why that can not be. -/
def bind (name : String) (type : Slot Ty) (refused : Cause) (span : Span) : Check DeclId := do
  let id ← Check.insertDeclaration name type
  match (← get).frame.declareVariable name ⟨id, type⟩ with
  | some frame =>
    Check.setFrame frame
    return id
  | none => .fail refused span

/-- Declares a variable in the current frame. -/
def declareVariable (ctx : Context) (name : String) (type : Slot Ty) (span : Span) :
    Check DeclId :=
  bind name type (ctx.alreadyDefined name) span

/-- Declares a parameter in the current frame. -/
def declareParameter (ctx : Context) (p : Parameter) : Check (DeclId × Slot Ty) := do
  let type ← .ofExcept ((← ctx.scope).resolveValue p.type)
  let slot : Slot Ty := ⟨p.mode, type⟩
  let id ← bind p.name slot (.alreadyDefinedVariable p.name) p.span
  return (id, slot)

/-- What comes before the body of a function: its type, the frame with its parameters, and their
declarations. -/
structure FunctionHead where
  function : FnType
  frame : Frame
  parameters : List DeclId

/-- Declares the parameters of a function in a frame of their own. Without a written result the
function returns nothing. -/
def functionHead (ctx : Context) (parameters : List Parameter) (result? : Option TypeExpr) :
    Check FunctionHead := do
  let result ← match result? with
    | some t => Check.ofExcept ((← ctx.scope).resolve t)
    | none => pure .nothing
  ctx.inNewFrame fun ctx => do
    let declared ← parameters.mapM ctx.declareParameter
    return ⟨⟨declared.map Prod.snd, result⟩, (← get).frame, declared.map Prod.fst⟩

/-- Checks the body of a function in the frame of its parameters. Unless the result is nothing, the
body has to return somewhere; `name?` is the name by which the diagnostic calls the function. -/
def functionBody (ctx : Context) (head : FunctionHead) (name? : Option String) (bodySpan : Span)
    (body : Context → Check (List TypedStmt)) : Check (List TypedStmt) := do
  let inside := { ctx with function? := some head.function }
  let (stmts, returned) ← Check.apart (inside.inFrame head.frame body)
  if returned || head.function.result.assignableTo .nothing then return stmts
  else .fail (.typing (.missingReturn name?)) bodySpan

end Context

end Nominal
