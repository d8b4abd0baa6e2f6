import Nominal.Proofs.Renaming.Types
import Nominal.Typed.Tree
import Nominal.Typing.Expressions

/-!
# Renaming typed trees

A typed tree with every number and every class renamed, wherever they stand. Spans, names and
literals stay. A diagnostic shows types by name only, so the diagnostics about renamed expressions
are the same (`wrongType_rename`, `overloadMismatch_rename`).
-/

namespace Nominal

mutual

/-- The expression with all declarations and classes renamed. -/
def TypedExpr.rename (ρ : Renaming) : TypedExpr → TypedExpr
  | ⟨form, type, span⟩ => ⟨form.rename ρ, type.rename ρ, span⟩

def TypedExprForm.rename (ρ : Renaming) : TypedExprForm → TypedExprForm
  | .int value => .int value
  | .bool value => .bool value
  | .text value => .text value
  | .reference name decl => .reference name (decl.rename ρ)
  | .member owner name decl? => .member (owner.rename ρ) name (decl?.map (DeclId.rename ρ))
  | .assign target value => .assign (target.rename ρ) (value.rename ρ)
  | .binary left operator right method? =>
    .binary (left.rename ρ) operator (right.rename ρ) (method?.map (DeclId.rename ρ))
  | .unary operator operand method? =>
    .unary operator (operand.rename ρ) (method?.map (DeclId.rename ρ))
  | .call callee arguments => .call (callee.rename ρ) (TypedExpr.renameAll ρ arguments)
  | .new cls arguments => .new (cls.rename ρ) (TypedExpr.renameAll ρ arguments)
  | .lambda function parameters body =>
    .lambda (function.rename ρ) (parameters.map (DeclId.rename ρ)) (TypedStmt.renameAll ρ body)

def Callee.rename (ρ : Renaming) : Callee → Callee
  | .function decl => .function (decl.rename ρ)
  | .method receiver name decl? => .method (receiver.rename ρ) name (decl?.map (DeclId.rename ρ))
  | .value value => .value (value.rename ρ)

def Target.rename (ρ : Renaming) : Target → Target
  | .binding decl => .binding (decl.rename ρ)
  | .member owner name decl => .member (owner.rename ρ) name (decl.rename ρ)

def TypedExpr.renameAll (ρ : Renaming) : List TypedExpr → List TypedExpr
  | [] => []
  | e :: rest => e.rename ρ :: TypedExpr.renameAll ρ rest

/-- The statement with all declarations and classes renamed. -/
def TypedStmt.rename (ρ : Renaming) : TypedStmt → TypedStmt
  | ⟨form, span⟩ => ⟨form.rename ρ, span⟩

def TypedStmtForm.rename (ρ : Renaming) : TypedStmtForm → TypedStmtForm
  | .expression e => .expression (e.rename ρ)
  | .varDecl decl (some initializer) => .varDecl (decl.rename ρ) (some (initializer.rename ρ))
  | .varDecl decl none => .varDecl (decl.rename ρ) none
  | .classDecl cls parameters members =>
    .classDecl (cls.rename ρ) (parameters.map (DeclId.rename ρ)) (TypedStmt.renameAll ρ members)
  | .fnDecl decl function parameters body =>
    .fnDecl (decl.rename ρ) (function.rename ρ) (parameters.map (DeclId.rename ρ))
      (TypedStmt.renameAll ρ body)
  | .ret (some value) => .ret (some (value.rename ρ))
  | .ret none => .ret none
  | .block body => .block (TypedStmt.renameAll ρ body)
  | .branch condition thenBody (some elseBody) =>
    .branch (condition.rename ρ) (thenBody.rename ρ) (some (elseBody.rename ρ))
  | .branch condition thenBody none => .branch (condition.rename ρ) (thenBody.rename ρ) none
  | .loop condition body => .loop (condition.rename ρ) (body.rename ρ)
  | .print value => .print (value.rename ρ)

def TypedStmt.renameAll (ρ : Renaming) : List TypedStmt → List TypedStmt
  | [] => []
  | s :: rest => s.rename ρ :: TypedStmt.renameAll ρ rest

end

attribute [simp] TypedExpr.rename TypedExprForm.rename Callee.rename Target.rename TypedStmt.rename
  TypedStmtForm.rename

variable {ρ : Renaming}

namespace TypedExpr

@[simp] theorem renameAll_eq_map (es : List TypedExpr) :
    renameAll ρ es = es.map (TypedExpr.rename ρ) := by
  induction es with
  | nil => rfl
  | cons e rest ih => rw [renameAll, ih, List.map_cons]

@[simp] theorem type_rename (e : TypedExpr) : (e.rename ρ).type = e.type.rename ρ := by
  cases e
  rw [TypedExpr.rename]

@[simp] theorem span_rename (e : TypedExpr) : (e.rename ρ).span = e.span := by
  cases e
  rw [TypedExpr.rename]

/-- The types of expressions are renamed with them. -/
theorem map_type_rename (es : List TypedExpr) :
    (es.map (TypedExpr.rename ρ)).map (fun e => e.type) =
      (es.map fun e => e.type).map (Slot.rename ρ) := by
  simp

end TypedExpr

namespace TypedStmt

@[simp] theorem renameAll_eq_map (stmts : List TypedStmt) :
    renameAll ρ stmts = stmts.map (TypedStmt.rename ρ) := by
  induction stmts with
  | nil => rfl
  | cons s rest ih => rw [renameAll, ih, List.map_cons]

@[simp] theorem form_rename (s : TypedStmt) : (s.rename ρ).form = s.form.rename ρ := by
  cases s
  rw [TypedStmt.rename]

end TypedStmt

/-! ## Diagnostics -/

@[simp] theorem wrongType_rename (expected provided : Slot Ty) :
    wrongType (expected.rename ρ) (provided.rename ρ) = wrongType expected provided := by
  unfold wrongType
  simp

@[simp] theorem noOverload_rename (name : String) (arguments : List TypedExpr) :
    noOverload name (arguments.map (TypedExpr.rename ρ)) = noOverload name arguments := by
  unfold noOverload
  simp

/-- The first argument that does not fit is the same one. -/
theorem find?_misfit_rename (arguments : List TypedExpr) (parameters : List (Slot Ty)) :
    ((arguments.map (TypedExpr.rename ρ)).zip (parameters.map (Slot.rename ρ))).find?
        (fun pair => !pair.1.type.assignableTo pair.2) =
      ((arguments.zip parameters).find? fun pair => !pair.1.type.assignableTo pair.2).map
        (Prod.map (TypedExpr.rename ρ) (Slot.rename ρ)) := by
  rw [List.zip_map, List.find?_map]
  congr 2
  funext pair
  simp

theorem overloadMismatch_rename (name : String) (overloads : List Overload)
    (arguments : List TypedExpr) (span : Span) :
    overloadMismatch name (overloads.map (Overload.rename ρ))
      (arguments.map (TypedExpr.rename ρ)) span =
        overloadMismatch name overloads arguments span := by
  have harity (o : Overload) : (o.rename ρ).signature.arity = o.signature.arity :=
    FnType.arity_rename o.signature
  have hfind : (overloads.map (Overload.rename ρ)).reverse.find? (fun o =>
      o.signature.arity == (arguments.map (TypedExpr.rename ρ)).length) =
      (overloads.reverse.find? fun o => o.signature.arity == arguments.length).map
        (Overload.rename ρ) := by
    rw [← List.map_reverse, List.find?_map, List.length_map]
    congr 2
    funext o
    exact congrArg (· == arguments.length) (harity o)
  unfold overloadMismatch
  rw [hfind]
  cases overloads.reverse.find? fun o => o.signature.arity == arguments.length with
  | none =>
    have hlast : ((overloads.map (Overload.rename ρ)).getLast?.map fun o => o.signature.arity) =
        overloads.getLast?.map fun o => o.signature.arity := by
      rw [List.getLast?_map, Option.map_map]
      congr 1
      funext o
      exact harity o
    simp only [Option.map_none, hlast, List.length_map]
  | some o =>
    simp only [Option.map_some, Overload.rename, FnType.rename, find?_misfit_rename]
    cases (arguments.zip o.signature.parameters).find? fun pair =>
      !pair.1.type.assignableTo pair.2 with
    | none => simp
    | some pair => simp

end Nominal
