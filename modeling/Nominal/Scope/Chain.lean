import Nominal.Scope.Frame

/-!
# Chains of frames

Names are looked up from the innermost frame outwards. Each kind of declaration is looked up for
itself, and the nearest frame that has one decides. Overloads of different frames are not joined.
-/

namespace Nominal

/-- Frames from the innermost outwards. -/
abbrev Scope := List Frame

namespace Scope

/-- The variable `name`. -/
def findVariable? (s : Scope) (name : String) : Option Binding :=
  s.findSome? fun f => f.bindings.find? name

/-- The type `name`. -/
def findType? (s : Scope) (name : String) : Option Ty :=
  s.findSome? fun f => f.types.find? name

/-- The overloads of `name` in the nearest frame that has any. -/
def findFunctions (s : Scope) (name : String) : List Overload :=
  (s.findSome? fun f =>
    match f.functions.get name with
    | [] => none
    | overloads => some overloads).getD []

end Scope

end Nominal
