import Nominal.Table
import Nominal.Ty.Signature

/-!
# What types offer

Fields and methods. The operators of the primitive types are fixed; what a class offers is entered
while its body is checked, in a `ClassTable` that holds one entry for each class. The name of a class
is visible before its entry is complete, so a class can refer to itself.
-/

namespace Nominal

/-- Overloads by name. A name without overloads is not in the table. -/
abbrev Methods := Table (List Overload)

namespace Methods

/-- The overloads of `name`, in the order of their declaration. -/
def get (m : Methods) (name : String) : List Overload :=
  (m.find? name).getD []

/-- With one more overload of `name`, after the others. -/
def add (m : Methods) (name : String) (overload : Overload) : Methods :=
  m.insert name (m.get name ++ [overload])

end Methods

/-! ## Primitive types -/

namespace Primitive

/-- An operator between a value and an operand. -/
def binaryOperator (operand result : Primitive) : Overload :=
  ⟨none, [⟨.val, .primitive operand⟩], .primitive result⟩

/-- An operator before a value. -/
def unaryOperator (result : Primitive) : Overload :=
  ⟨none, [], .primitive result⟩

/-- The methods of the primitive types, which are all operators. -/
def methods (p : Primitive) (name : String) : List Overload :=
  match p with
  | int =>
    if name ∈ ["operator+", "operator*", "operator/"] then [binaryOperator int int]
    else if name = "operator-" then [binaryOperator int int, unaryOperator int]
    else if name ∈ ["operator==", "operator!=", "operator<", "operator<=", "operator>",
        "operator>="] then
      [binaryOperator int bool]
    else []
  | bool =>
    if name ∈ ["operator==", "operator!="] then [binaryOperator bool bool]
    else if name = "operator!" then [unaryOperator bool]
    else []
  | string =>
    if name ∈ ["operator==", "operator!="] then [binaryOperator string bool]
    else if name = "operator+" then [binaryOperator string string]
    else if name = "operator*" then [binaryOperator int string]
    else []
  | _ => []

end Primitive

/-- A primitive type whose methods are entered by hand. -/
structure PrimitiveInfo where
  name : String
  bits : Nat
  methods : Methods

namespace PrimitiveInfo

/-- A primitive type without methods. -/
def new (name : String) (bits : Nat) : PrimitiveInfo :=
  ⟨name, bits, ∅⟩

/-- With one more method, which has no declaration. -/
def addMethod (p : PrimitiveInfo) (name : String) (signature : FnType) : PrimitiveInfo :=
  { p with methods := p.methods.add name ⟨none, signature⟩ }

end PrimitiveInfo

/-! ## Classes -/

/-- A field of a class. -/
structure Member where
  type : Slot Ty
  id : DeclId

/-- What is known of a class: the parameters of `new`, the fields and the methods. -/
structure ClassInfo where
  name : String
  parameters : List (Slot Ty)
  members : Table Member
  methods : Methods

namespace ClassInfo

/-- A class of which nothing is known but its name. -/
def new (name : String) : ClassInfo :=
  ⟨name, [], ∅, ∅⟩

/-- With one more parameter of `new`. -/
def addParameter (c : ClassInfo) (type : Slot Ty) : ClassInfo :=
  { c with parameters := c.parameters ++ [type] }

/-- With a field. -/
def addMember (c : ClassInfo) (name : String) (member : Member) : ClassInfo :=
  { c with members := c.members.insert name member }

/-- With one more method. -/
def addMethod (c : ClassInfo) (name : String) (overload : Overload) : ClassInfo :=
  { c with methods := c.methods.add name overload }

end ClassInfo

/-- What is known of each class. The key of a class is its place in the list. -/
structure ClassTable where
  classes : List ClassInfo

namespace ClassTable

/-- The table without classes. -/
def empty : ClassTable :=
  ⟨[]⟩

/-- What is known of `c`. -/
def info (t : ClassTable) (c : ClassRef) : ClassInfo :=
  t.classes[c.key]?.getD (.new c.name)

/-- A new class, of which nothing is known yet. -/
def declare (t : ClassTable) (name : String) : ClassRef × ClassTable :=
  (⟨t.classes.length, name⟩, ⟨t.classes ++ [.new name]⟩)

/-- With the entry of `c` changed by `f`. -/
def update (t : ClassTable) (c : ClassRef) (f : ClassInfo → ClassInfo) : ClassTable :=
  ⟨t.classes.modify c.key f⟩

/-- The field `name` of values of a type. Only classes have fields. -/
def member? (t : ClassTable) (type : Ty) (name : String) : Option Member :=
  match type with
  | .cls c => (t.info c).members.find? name
  | _ => none

/-- The methods `name` of values of a type. -/
def methods (t : ClassTable) (type : Ty) (name : String) : List Overload :=
  match type with
  | .primitive p => p.methods name
  | .cls c => (t.info c).methods.get name
  | .function _ _ => []

end ClassTable

end Nominal
