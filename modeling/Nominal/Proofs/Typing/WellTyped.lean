import Mathlib.Data.List.Forall2
import Nominal.Registry
import Nominal.Ty.Classes
import Nominal.Typed.Tree

/-!
# Well-typed trees

What it means that a typed tree fits the declarations and the classes that a program ended up with
(`Setting`). The conditions are stated node by node and say nothing about scopes or about the order
of checking: a name carries the slot its number is registered with, an argument may flow into the
parameter in its place, an operator is a method of its operand, a return has the result of the
function around it. Types are compared by name throughout, as two types of one name are one type to
the language.
-/

namespace Nominal

/-- The declarations and the classes that a tree is read against. -/
structure Setting where
  registry : Registry
  classes : ClassTable

namespace Setting

variable (w : Setting)

/-- The number `id` is that of the declaration of `name` as `type`. -/
def Registers (id : DeclId) (name : String) (type : Slot Ty) : Prop :=
  w.registry.resolve id = .ok (some ⟨id, name, type⟩)

/-- The numbers are those of declarations of the slots, one for each. -/
def RegistersAll (ids : List DeclId) (slots : List (Slot Ty)) : Prop :=
  List.Forall₂ (fun id slot => ∃ name, w.Registers id name slot) ids slots

/-- Values of `type` have the field `m` under `name`. -/
def Field (type : Ty) (name : String) (m : Member) : Prop :=
  w.classes.member? type name = some m ∧ w.Registers m.id name m.type

/-- Values of `type` have the method `o` under `name`. If it is declared, then as a function. -/
def Method (type : Ty) (name : String) (o : Overload) : Prop :=
  o ∈ w.classes.methods type name ∧
    ∀ id, o.id? = some id → w.Registers id name ⟨.val, o.signature.type⟩

end Setting

/-- There are as many arguments as parameters, and each may flow into the one in its place. -/
def Fit (arguments parameters : List (Slot Ty)) : Prop :=
  List.Forall₂ (fun argument parameter => argument.assignableTo parameter = true)
    arguments parameters

/-- Called with `arguments`, the function gives a new value of the slot `type`. -/
def FnType.Yields (f : FnType) (arguments : List (Slot Ty)) (type : Slot Ty) : Prop :=
  Fit arguments f.parameters ∧ type = ⟨.var, f.result⟩

mutual

/-- The expression fits the declarations and the classes. -/
def TypedExpr.WellTyped (w : Setting) : TypedExpr → Prop
  | ⟨form, type, _⟩ => form.WellTyped w type

def TypedExprForm.WellTyped (w : Setting) : TypedExprForm → Slot Ty → Prop
  | .int _, type => type = ⟨.var, .int⟩
  | .bool _, type => type = ⟨.var, .bool⟩
  | .text _, type => type = ⟨.var, .string⟩
  | .reference name decl, type => w.Registers decl name type
  | .member owner name decl?, type =>
    owner.WellTyped w ∧
      ((∃ m, w.Field owner.type.type name m ∧ decl? = some m.id ∧ type = m.type) ∨
        ∃ o, w.Method owner.type.type name o ∧ decl? = o.id? ∧ type = ⟨.val, o.signature.type⟩)
  | .assign target value, type =>
    target.WellTyped w type ∧ value.WellTyped w ∧ value.type.assignableTo type
  | .binary left operator right method?, type =>
    left.WellTyped w ∧ right.WellTyped w ∧
      ∃ o, w.Method left.type.type ("operator" ++ operator) o ∧ method? = o.id? ∧
        o.signature.Yields [right.type] type
  | .unary operator operand method?, type =>
    operand.WellTyped w ∧
      ∃ o, w.Method operand.type.type ("operator" ++ operator) o ∧ method? = o.id? ∧
        o.signature.Yields [] type
  | .call callee arguments, type =>
    callee.WellTyped w (arguments.map fun a => a.type) type ∧ TypedExpr.AllWellTyped w arguments
  | .new c arguments, type =>
    Fit (arguments.map fun a => a.type) (w.classes.info c).parameters ∧ type = ⟨.var, .cls c⟩ ∧
      TypedExpr.AllWellTyped w arguments
  | .lambda function parameters body, type =>
    type = ⟨.var, function.type⟩ ∧ w.RegistersAll parameters function.parameters ∧
      TypedStmt.AllWellTyped w body (some function)

/-- The callee can be called with `arguments` and gives `type`. -/
def Callee.WellTyped (w : Setting) : Callee → List (Slot Ty) → Slot Ty → Prop
  | .function decl, arguments, type =>
    ∃ (name : String) (f : FnType), w.Registers decl name ⟨.val, f.type⟩ ∧ f.Yields arguments type
  | .method receiver name decl?, arguments, type =>
    receiver.WellTyped w ∧
      ∃ o, w.Method receiver.type.type name o ∧ decl? = o.id? ∧ o.signature.Yields arguments type
  | .value value, arguments, type =>
    value.WellTyped w ∧ ∃ f, value.type.type.function? = some f ∧ f.Yields arguments type

/-- The target is declared as the slot `type`, and may be reassigned. -/
def Target.WellTyped (w : Setting) : Target → Slot Ty → Prop
  | .binding decl, type => type.mode = .var ∧ ∃ name, w.Registers decl name type
  | .member owner name decl, type =>
    type.mode = .var ∧ owner.WellTyped w ∧ w.Field owner.type.type name ⟨type, decl⟩

def TypedExpr.AllWellTyped (w : Setting) : List TypedExpr → Prop
  | [] => True
  | e :: rest => e.WellTyped w ∧ TypedExpr.AllWellTyped w rest

/-- The statement fits the declarations and the classes, inside of a function or outside of all. -/
def TypedStmt.WellTyped (w : Setting) : TypedStmt → Option FnType → Prop
  | ⟨form, _⟩, function? => form.WellTyped w function?

def TypedStmtForm.WellTyped (w : Setting) : TypedStmtForm → Option FnType → Prop
  | .expression e, _ => e.WellTyped w
  | .varDecl decl (some initializer), _ =>
    initializer.WellTyped w ∧
      ∃ name type, w.Registers decl name type ∧ initializer.type.assignableTo type
  | .varDecl decl none, _ => ∃ name type, w.Registers decl name type
  | .classDecl c parameters members, _ =>
    w.RegistersAll parameters (w.classes.info c).parameters ∧ TypedStmt.AllWellTyped w members none
  | .fnDecl decl function parameters body, _ =>
    (∃ name, w.Registers decl name ⟨.val, function.type⟩) ∧
      w.RegistersAll parameters function.parameters ∧ TypedStmt.AllWellTyped w body (some function)
  | .ret (some value), some f => value.WellTyped w ∧ value.type.type.name = f.result.name
  | .ret none, some f => Ty.nothing.name = f.result.name
  | .ret _, none => False
  | .block body, function? => TypedStmt.AllWellTyped w body function?
  | .branch condition thenBody (some elseBody), function? =>
    condition.WellTyped w ∧ thenBody.WellTyped w function? ∧ elseBody.WellTyped w function?
  | .branch condition thenBody none, function? =>
    condition.WellTyped w ∧ thenBody.WellTyped w function?
  | .loop condition body, function? => condition.WellTyped w ∧ body.WellTyped w function?
  | .print value, _ => value.WellTyped w

def TypedStmt.AllWellTyped (w : Setting) : List TypedStmt → Option FnType → Prop
  | [], _ => True
  | s :: rest, function? => s.WellTyped w function? ∧ TypedStmt.AllWellTyped w rest function?

end

/-- What is accepted as a call fits. -/
theorem FnType.fit_of_accepts {f : FnType} {arguments : List (Slot Ty)}
    (h : f.accepts arguments = true) : Fit arguments f.parameters := by
  unfold accepts at h
  rw [Bool.and_eq_true, beq_iff_eq, List.all_eq_true] at h
  refine List.forall₂_iff_zip.2 ⟨h.1.symm, ?_⟩
  intro argument parameter hmem
  exact h.2 (argument, parameter) hmem

/-- The overload that a call is resolved to takes its arguments. -/
theorem mem_of_resolveOverload {overloads : List Overload} {arguments : List (Slot Ty)}
    {o : Overload} (h : resolveOverload overloads arguments = some o) :
    o ∈ overloads ∧ Fit arguments o.signature.parameters := by
  unfold resolveOverload at h
  have haccepts := List.find?_some (p := fun o : Overload => o.signature.accepts arguments) h
  exact ⟨List.mem_reverse.1 (List.mem_of_find?_eq_some h), FnType.fit_of_accepts haccepts⟩

end Nominal
