import Nominal.Diagnostic.Basic
import Nominal.Registry
import Nominal.Scope.Chain

/-!
# Where a rule stands, and what it changes

A `Context` is what a rule knows of its surroundings: the frames around the current one, the function
and the class it stands in, and how deep it is. It is handed inwards and never changed by what is
inside. A `CheckState` is what rules change: the registry, the classes, the current frame, and whether
the current function has returned. A `Check` is a rule at work; it keeps the state when it fails, and
the combinators below say what becomes of each part then.
-/

namespace Nominal

/-- The surroundings of a rule. -/
structure Context where
  outer : Scope
  function? : Option FnType
  className? : Option String
  limit : Nat
  depth : Nat

/-- What rules change. -/
structure CheckState where
  registry : Registry
  classes : ClassTable
  frame : Frame
  returned : Bool

/-- A rule at work. -/
abbrev Check := EStateM Diagnostic CheckState

namespace Check

variable {α : Type}

/-- Stops for `cause` at `span`. -/
def fail (cause : Cause) (span : Span) : Check α :=
  throw ⟨cause, span⟩

/-- The value, or the diagnostic there is instead. -/
def ofExcept : Except Diagnostic α → Check α
  | .ok a => pure a
  | .error d => throw d

/-- Enters a declaration into the registry. -/
def insertDeclaration (name : String) (type : Slot Ty) : Check DeclId :=
  modifyGet fun s =>
    let (id, registry) := s.registry.insert name type
    (id, { s with registry })

/-- Puts `frame` in the place of the current frame. -/
def setFrame (frame : Frame) : Check Unit :=
  modify fun s => { s with frame }

/-- Changes what is known of a class. -/
def updateClass (c : ClassRef) (f : ClassInfo → ClassInfo) : Check Unit :=
  modify fun s => { s with classes := s.classes.update c f }

/-- Runs `body` inside a transaction of the registry, which is committed exactly when `body`
succeeds. -/
def transaction (body : Check α) : Check α := fun s =>
  match body { s with registry := s.registry.begin } with
  | .ok a t => .ok a { t with registry := t.registry.commit }
  | .error d t => .error d { t with registry := t.registry.abort }

/-- Runs `body`, and changes the current frame by `undo` if it fails. -/
def undoing (undo : Frame → Frame) (body : Check α) : Check α := fun s =>
  match body s with
  | .ok a t => .ok a t
  | .error d t => .error d { t with frame := undo t.frame }

/-- Runs `body` as a body of its own. The result says whether it returned; outside, that is as it was
before. -/
def apart (body : Check α) : Check (α × Bool) := fun s =>
  match body { s with returned := false } with
  | .ok a t => .ok (a, t.returned) { t with returned := s.returned }
  | .error d t => .error d { t with returned := s.returned }

end Check

namespace Context

variable {α : Type}

/-- The frames from the current one outwards. -/
def scope (ctx : Context) : Check Scope :=
  return (← get).frame :: ctx.outer

/-- Runs `body` with `frame` inside the current frame, which is the current one again afterwards. -/
def inFrame (ctx : Context) (frame : Frame) (body : Context → Check α) : Check α := fun s =>
  match body { ctx with outer := s.frame :: ctx.outer } { s with frame } with
  | .ok a t => .ok a { t with frame := s.frame }
  | .error d t => .error d { t with frame := s.frame }

/-- Runs `body` in a new frame inside the current one. -/
def inNewFrame (ctx : Context) (body : Context → Check α) : Check α :=
  ctx.inFrame .empty body

/-- Runs `body`, which stands at `span`, one level further in, unless the limit is reached. -/
def nested (ctx : Context) (span : Span) (body : Context → Check α) : Check α :=
  if ctx.depth < ctx.limit then body { ctx with depth := ctx.depth + 1 }
  else .fail (.nestingTooDeep ctx.limit) span

/-- Why `name` can not be declared again: it is a member of the class around, or a variable. -/
def alreadyDefined (ctx : Context) (name : String) : Cause :=
  match ctx.className? with
  | some owner => .alreadyDefinedMember owner name
  | none => .alreadyDefinedVariable name

/-- Why `name` stands for nothing: the class around has no such member, or there is no variable. -/
def undefined (ctx : Context) (name : String) : Cause :=
  match ctx.className? with
  | some owner => .undefinedMember owner name
  | none => .undefinedVariable name

end Context

end Nominal
