import Nominal.Table
import Nominal.Ty.Classes

/-!
# Frames

A `Frame` holds what one scope declares. Variables and functions share their names, types have names
of their own. A function may be declared several times under one name, as long as no earlier overload
covers the new one. A declaration that is refused changes nothing.
-/

namespace Nominal

/-- What a variable stands for. -/
structure Binding where
  id : DeclId
  type : Slot Ty

/-- The declarations of one scope. -/
structure Frame where
  bindings : Table Binding
  types : Table Ty
  functions : Methods

namespace Frame

/-- The frame without declarations. -/
def empty : Frame :=
  ⟨∅, ∅, ∅⟩

/-- With a variable, unless its name is a variable or a function already. -/
def declareVariable (f : Frame) (name : String) (binding : Binding) : Option Frame :=
  if f.bindings.contains name || f.functions.contains name then none
  else some { f with bindings := f.bindings.insert name binding }

/-- Without the variable `name`. -/
def removeVariable (f : Frame) (name : String) : Frame :=
  { f with bindings := f.bindings.erase name }

/-- With a type, unless its name is a type already. -/
def declareType (f : Frame) (name : String) (type : Ty) : Option Frame :=
  if f.types.contains name then none
  else some { f with types := f.types.insert name type }

/-- With an overload of `name`, unless the name is a variable or an overload covers it already. -/
def declareFunction (f : Frame) (name : String) (overload : Overload) : Option Frame :=
  if f.bindings.contains name then none
  else if (f.functions.get name).any fun o => o.signature.covers overload.signature then none
  else some { f with functions := f.functions.add name overload }

/-- Without the overload of `name` that was declared as `id`. The name goes with its last
overload. -/
def removeFunction (f : Frame) (name : String) (id : DeclId) : Frame :=
  match f.functions.find? name with
  | none => f
  | some overloads =>
    let kept := overloads.filter fun o => o.id? != some id
    if kept.isEmpty then { f with functions := f.functions.erase name }
    else { f with functions := f.functions.insert name kept }

/-- The outermost frame, which declares the built-in types. -/
def root : Frame :=
  { empty with types := Primitive.builtins.foldl (fun t p => t.insert p.name (.primitive p)) ∅ }

end Frame

end Nominal
