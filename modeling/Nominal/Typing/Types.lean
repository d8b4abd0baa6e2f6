import Nominal.Syntax.Tree
import Nominal.Typed.Tree
import Nominal.Typing.Context

/-!
# Types of annotations and values

What a written type denotes in a scope, and whether a value may flow into a slot.
-/

namespace Nominal

/-- `type`, which `t` denotes, if there are values of it. -/
def TypeExpr.valueType (t : TypeExpr) (type : Ty) : Except Diagnostic Ty :=
  if type.hasValues then .ok type else .error ⟨.typing (.notForValues type.name), t.span⟩

namespace Scope

mutual

/-- The type that `t` denotes. -/
def resolve (scope : Scope) : TypeExpr → Except Diagnostic Ty
  | .named name span =>
    match scope.findType? name with
    | some type => .ok type
    | none => .error ⟨.undefinedType name, span⟩
  | .function parameters result _ => do
    let parameters ← scope.resolveParameters parameters
    return .function parameters (← scope.resolve result)

/-- The slots that the parameters of a function type denote. They are read-only. -/
def resolveParameters (scope : Scope) : List TypeExpr → Except Diagnostic (List (Slot Ty))
  | [] => .ok []
  | t :: ts => do
    let type ← t.valueType (← scope.resolve t)
    return ⟨.val, type⟩ :: (← scope.resolveParameters ts)

end

/-- The type that `t` denotes, which must have values. -/
def resolveValue (scope : Scope) (t : TypeExpr) : Except Diagnostic Ty := do
  t.valueType (← scope.resolve t)

end Scope

/-- Why `provided` does not flow into `expected`. The modes are shown when only they are at
fault. -/
def wrongType (expected provided : Slot Ty) : Cause :=
  if provided.type.assignableTo expected.type then
    .wrongType expected.qualifiedName provided.qualifiedName
  else .wrongType expected.name provided.name

/-- Fails unless `value` may flow into `target`. -/
def expectAssignable (value : TypedExpr) (target : Slot Ty) (span : Span) : Check Unit :=
  if value.type.assignableTo target then pure ()
  else .fail (wrongType target value.type) span

end Nominal
