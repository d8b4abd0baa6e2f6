import Nominal.Mode

/-!
# Types

A type is primitive, a class, or a function type. What holds a value has a type and a mode; the two
together are a `Slot`.

Types are compared by name. The name of a function type spells out its parameters and its result,
so two function types of the same spelling are the same type to a program.
-/

namespace Nominal

/-- A type, or another description of values, with the mode of what holds them. -/
structure Slot (α : Type) where
  mode : Mode
  type : α

/-- The types that are not built from others. -/
inductive Primitive where
  | int
  | bool
  | string
  | nothing
  | other (name : String) (bits : Nat)
  deriving DecidableEq

namespace Primitive

/-- The name of the type. -/
def name : Primitive → String
  | int => "Int"
  | bool => "Bool"
  | string => "String"
  | nothing => "Nothing"
  | other name _ => name

/-- How many bits a value takes. There are no values of a type without bits. -/
def bits : Primitive → Nat
  | int => 32
  | bool => 1
  | string => 64
  | nothing => 0
  | other _ bits => bits

/-- The primitive types that every program knows. -/
def builtins : List Primitive :=
  [int, bool, string, nothing]

end Primitive

/-- A class, told apart from others of the same name by its key. -/
structure ClassRef where
  key : Nat
  name : String
  deriving DecidableEq

/-- A type. -/
inductive Ty where
  | primitive (p : Primitive)
  | function (parameters : List (Slot Ty)) (result : Ty)
  | cls (c : ClassRef)

namespace Ty

/-- The primitive types, as types. -/
def int : Ty := primitive .int

def bool : Ty := primitive .bool

def string : Ty := primitive .string

def nothing : Ty := primitive .nothing

/-- The spelling of the function type with parameters and a result of the given names. -/
def functionName (parameters : List String) (result : String) : String :=
  let types := ", ".intercalate parameters
  s!"Function({types}) -> {result}"

mutual

/-- The name of a type. -/
def name : Ty → String
  | primitive p => p.name
  | function parameters result => functionName (slotNames parameters) result.name
  | cls c => c.name

/-- The name of the type of a slot. -/
def slotName : Slot Ty → String
  | ⟨_, type⟩ => type.name

/-- The names of the types of a list of slots. -/
def slotNames : List (Slot Ty) → List String
  | [] => []
  | s :: rest => slotName s :: slotNames rest

end

theorem slotNames_eq_map (slots : List (Slot Ty)) :
    slotNames slots = slots.map fun s => s.type.name := by
  induction slots with
  | nil => rfl
  | cons s rest ih => cases s; simp [slotNames, slotName, ih]

/-- A value of type `a` is a value of type `b` when the types have the same name. -/
def assignableTo (a b : Ty) : Bool :=
  a.name == b.name

/-- Whether there are values of the type. -/
def hasValues : Ty → Bool
  | primitive p => 0 < p.bits
  | _ => true

/-- The class that a class type denotes. -/
def class? : Ty → Option ClassRef
  | cls c => some c
  | _ => none

end Ty

namespace Slot

/-- The name of the type. -/
def name (s : Slot Ty) : String :=
  s.type.name

/-- The mode and the name of the type. -/
def qualifiedName (s : Slot Ty) : String :=
  s.mode.word ++ " " ++ s.type.name

/-- What `a` holds may flow into `b`: the types agree by name, and what can only be read does not
come to stand where it could be reassigned. -/
def assignableTo (a b : Slot Ty) : Bool :=
  a.type.assignableTo b.type && !(a.mode == .val && b.mode == .var)

end Slot

end Nominal
