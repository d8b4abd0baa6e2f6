import Nominal.DeclId
import Nominal.Ty.Basic

/-!
# Function types and overloads

A function is called with slots, one for each of its parameters. Several functions may share a name;
a call goes to the last one declared that takes its arguments.
-/

namespace Nominal

/-- The parameters and the result of a function. -/
structure FnType where
  parameters : List (Slot Ty)
  result : Ty

/-- The function type that a type is, if it is one. -/
def Ty.function? : Ty → Option FnType
  | .function parameters result => some ⟨parameters, result⟩
  | _ => none

namespace FnType

/-- As a type. -/
def type (f : FnType) : Ty :=
  .function f.parameters f.result

/-- The name of the function type. -/
def name (f : FnType) : String :=
  f.type.name

/-- How many arguments a call has. -/
def arity (f : FnType) : Nat :=
  f.parameters.length

/-- Whether the function can be called with `arguments`. -/
def accepts (f : FnType) (arguments : List (Slot Ty)) : Bool :=
  f.parameters.length == arguments.length &&
    (arguments.zip f.parameters).all fun (argument, parameter) => argument.assignableTo parameter

/-- Whether `g`, declared after `f` under the same name, would add nothing to it: the results agree,
and each parameter of `g` could be passed on to `f`. -/
def covers (f g : FnType) : Bool :=
  f.parameters.length == g.parameters.length &&
    g.result.assignableTo f.result && f.result.assignableTo g.result &&
    (f.parameters.zip g.parameters).all fun (mine, other) => other.assignableTo mine

end FnType

/-- One of the functions that share a name. Operators of primitive types have no declaration. -/
structure Overload where
  id? : Option DeclId
  signature : FnType

/-- The last overload that can be called with `arguments`. -/
def resolveOverload (overloads : List Overload) (arguments : List (Slot Ty)) : Option Overload :=
  overloads.reverse.find? fun o => o.signature.accepts arguments

end Nominal
