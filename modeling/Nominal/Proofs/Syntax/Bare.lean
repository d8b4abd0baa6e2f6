import Nominal.Syntax.Tree

/-!
# Trees without places

`Block.bare` is a tree of which only what it says is kept, and not where it stands: every span in
it, also those of names and operators, is the one for what stands in no text. Two trees that are
equal without places differ in nothing but their spans.
-/

namespace Nominal

/-- The token in no text. -/
def Token.bare (t : Token) : Token :=
  { t with span := .nowhere }

mutual

/-- The type in no text. -/
def TypeExpr.bare : TypeExpr → TypeExpr
  | .named name _ => .named name .nowhere
  | .function parameters result _ =>
    .function (TypeExpr.eachBare parameters) result.bare .nowhere

def TypeExpr.eachBare : List TypeExpr → List TypeExpr
  | [] => []
  | a :: as => a.bare :: TypeExpr.eachBare as

end

/-- The parameter in no text. -/
def Parameter.bare (p : Parameter) : Parameter :=
  ⟨p.name, p.mode, p.type.bare, .nowhere⟩

mutual

/-- The expression in no text. -/
def Expr.bare : Expr → Expr
  | ⟨form, _⟩ => ⟨form.bare, .nowhere⟩

def ExprForm.bare : ExprForm → ExprForm
  | .number value => .number value
  | .text value => .text value
  | .bool value => .bool value
  | .symbol name => .symbol name
  | .member owner name _ => .member owner.bare name .nowhere
  | .assign target value => .assign target.bare value.bare
  | .binary left operator right => .binary left.bare operator.bare right.bare
  | .unary operator operand => .unary operator.bare operand.bare
  | .call callee arguments => .call callee.bare (Expr.eachBare arguments)
  | .new className arguments => .new className (Expr.eachBare arguments)
  | .lambda ⟨parameters, result?, ⟨body, _⟩⟩ =>
    .lambda ⟨parameters.map Parameter.bare, result?.map TypeExpr.bare,
      ⟨Stmt.eachBare body, .nowhere⟩⟩
  | .group inner => .group inner.bare

def Expr.eachBare : List Expr → List Expr
  | [] => []
  | e :: es => e.bare :: Expr.eachBare es

/-- The statement in no text. -/
def Stmt.bare : Stmt → Stmt
  | ⟨form, _⟩ => ⟨form.bare, .nowhere⟩

def StmtForm.bare : StmtForm → StmtForm
  | .expression e => .expression e.bare
  | .varDecl name _ mode type? (some value) =>
    .varDecl name .nowhere mode (type?.map TypeExpr.bare) (some value.bare)
  | .varDecl name _ mode type? none => .varDecl name .nowhere mode (type?.map TypeExpr.bare) none
  | .classDecl name _ parameters members =>
    .classDecl name .nowhere (parameters.map Parameter.bare) (Stmt.eachBare members)
  | .fnDecl name _ ⟨parameters, result?, ⟨body, _⟩⟩ =>
    .fnDecl name .nowhere ⟨parameters.map Parameter.bare, result?.map TypeExpr.bare,
      ⟨Stmt.eachBare body, .nowhere⟩⟩
  | .ret (some value) => .ret (some value.bare)
  | .ret none => .ret none
  | .block ⟨body, _⟩ => .block ⟨Stmt.eachBare body, .nowhere⟩
  | .branch condition thenBody (some elseBody) =>
    .branch condition.bare thenBody.bare (some elseBody.bare)
  | .branch condition thenBody none => .branch condition.bare thenBody.bare none
  | .loop condition body => .loop condition.bare body.bare
  | .print value => .print value.bare

def Stmt.eachBare : List Stmt → List Stmt
  | [] => []
  | s :: rest => s.bare :: Stmt.eachBare rest

end

/-- The block in no text. -/
def Block.bare (b : Block) : Block :=
  ⟨b.body.map Stmt.bare, .nowhere⟩

/-- The signature in no text. -/
def Signature.bare (sig : Signature) : Signature :=
  ⟨sig.parameters.map Parameter.bare, sig.result?.map TypeExpr.bare, sig.body.bare⟩

@[simp] theorem TypeExpr.eachBare_eq (as : List TypeExpr) :
    TypeExpr.eachBare as = as.map TypeExpr.bare := by
  induction as with
  | nil => rfl
  | cons a as ih => simp [eachBare, ih]

@[simp] theorem Expr.eachBare_eq (es : List Expr) : Expr.eachBare es = es.map Expr.bare := by
  induction es with
  | nil => rfl
  | cons e es ih => simp [eachBare, ih]

@[simp] theorem Stmt.eachBare_eq (stmts : List Stmt) :
    Stmt.eachBare stmts = stmts.map Stmt.bare := by
  induction stmts with
  | nil => rfl
  | cons s rest ih => simp [eachBare, ih]

namespace ExprForm

@[simp] theorem bare_lambda (signature : Signature) :
    (lambda signature).bare = lambda signature.bare := by
  obtain ⟨parameters, result?, ⟨body, span⟩⟩ := signature
  simp [bare, Signature.bare, Block.bare]

end ExprForm

namespace StmtForm

/-- A variable declaration in one line, with or without a value. -/
@[simp] theorem bare_varDecl (name : String) (nameSpan : Span) (mode : Mode)
    (type? : Option TypeExpr) (value? : Option Expr) :
    (varDecl name nameSpan mode type? value?).bare =
      varDecl name .nowhere mode (type?.map TypeExpr.bare) (value?.map Expr.bare) := by
  cases value? <;> rfl

@[simp] theorem bare_fnDecl (name : String) (nameSpan : Span) (signature : Signature) :
    (fnDecl name nameSpan signature).bare = fnDecl name .nowhere signature.bare := by
  obtain ⟨parameters, result?, ⟨body, span⟩⟩ := signature
  simp [bare, Signature.bare, Block.bare]

@[simp] theorem bare_ret (value? : Option Expr) :
    (ret value?).bare = ret (value?.map Expr.bare) := by
  cases value? <;> rfl

@[simp] theorem bare_block (b : Block) : (block b).bare = block b.bare := by
  obtain ⟨body, span⟩ := b
  simp [bare, Block.bare]

/-- A branch in one line, with or without an `else`. -/
@[simp] theorem bare_branch (condition : Expr) (thenBody : Stmt) (elseBody? : Option Stmt) :
    (branch condition thenBody elseBody?).bare =
      branch condition.bare thenBody.bare (elseBody?.map Stmt.bare) := by
  cases elseBody? <;> rfl

end StmtForm

/-- Whether an expression names a place does not depend on where it stands. -/
@[simp] theorem Expr.isAssignable_bare (e : Expr) : e.bare.isAssignable = e.isAssignable := by
  obtain ⟨form, span⟩ := e
  cases form with
  | lambda signature => simp [bare, isAssignable]
  | _ => rfl

end Nominal
