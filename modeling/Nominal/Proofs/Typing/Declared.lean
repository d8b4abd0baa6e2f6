import Nominal.Syntax.Tree
import Nominal.Typed.Tree

/-!
# What a tree declares

Two views of the declarations in a tree, one before and one after it was checked.

* `Stmt.batches` are the names that a syntax tree declares. Declarations and lambdas are checked
  each in a transaction of its own, so the names come in batches: one for each declaration or lambda
  that is not inside another one, with all the names that it declares at any depth.
* `TypedStmt.introduced` are the numbers that a typed tree gives out, to its variables, functions,
  parameters and members, and `TypedStmt.mentioned` are the numbers that it only refers to.
-/

namespace Nominal

/-! ## Before checking -/

mutual

/-- The batches of names that an expression declares, in the order of checking. -/
def Expr.batches : Expr → List (List String)
  | ⟨form, _⟩ => form.batches

def ExprForm.batches : ExprForm → List (List String)
  | .number _ => []
  | .text _ => []
  | .bool _ => []
  | .symbol _ => []
  | .member owner _ _ => owner.batches
  | .assign target value => target.batches ++ value.batches
  | .binary left _ right => left.batches ++ right.batches
  | .unary _ operand => operand.batches
  | .call callee arguments => callee.batches ++ Expr.allBatches arguments
  | .new _ arguments => Expr.allBatches arguments
  | .lambda ⟨parameters, _, ⟨body, _⟩⟩ =>
    [parameters.map Parameter.name ++ (Stmt.allBatches body).flatten]
  | .group inner => inner.batches

def Expr.allBatches : List Expr → List (List String)
  | [] => []
  | e :: rest => e.batches ++ Expr.allBatches rest

/-- The batches of names that a statement declares, in the order of checking. -/
def Stmt.batches : Stmt → List (List String)
  | ⟨form, _⟩ => form.batches

def StmtForm.batches : StmtForm → List (List String)
  | .expression e => e.batches
  | .varDecl name _ _ _ (some value) => [name :: value.batches.flatten]
  | .varDecl name _ _ _ none => [[name]]
  | .classDecl _ _ parameters members =>
    [parameters.map Parameter.name ++ (Stmt.allBatches members).flatten]
  | .fnDecl name _ ⟨parameters, _, ⟨body, _⟩⟩ =>
    [name :: parameters.map Parameter.name ++ (Stmt.allBatches body).flatten]
  | .ret (some value) => value.batches
  | .ret none => []
  | .block ⟨body, _⟩ => Stmt.allBatches body
  | .branch condition thenBody (some elseBody) =>
    condition.batches ++ (thenBody.batches ++ elseBody.batches)
  | .branch condition thenBody none => condition.batches ++ thenBody.batches
  | .loop condition body => condition.batches ++ body.batches
  | .print value => value.batches

def Stmt.allBatches : List Stmt → List (List String)
  | [] => []
  | s :: rest => s.batches ++ Stmt.allBatches rest

end

/-! ## After checking -/

mutual

/-- The numbers of the declarations that an expression makes. -/
def TypedExpr.introduced : TypedExpr → List DeclId
  | ⟨form, _, _⟩ => form.introduced

def TypedExprForm.introduced : TypedExprForm → List DeclId
  | .int _ => []
  | .bool _ => []
  | .text _ => []
  | .reference _ _ => []
  | .member owner _ _ => owner.introduced
  | .assign target value => target.introduced ++ value.introduced
  | .binary left _ right _ => left.introduced ++ right.introduced
  | .unary _ operand _ => operand.introduced
  | .call callee arguments => callee.introduced ++ TypedExpr.allIntroduced arguments
  | .new _ arguments => TypedExpr.allIntroduced arguments
  | .lambda _ parameters body => parameters ++ TypedStmt.allIntroduced body

def Callee.introduced : Callee → List DeclId
  | .function _ => []
  | .method receiver _ _ => receiver.introduced
  | .value value => value.introduced

def Target.introduced : Target → List DeclId
  | .binding _ => []
  | .member owner _ _ => owner.introduced

def TypedExpr.allIntroduced : List TypedExpr → List DeclId
  | [] => []
  | e :: rest => e.introduced ++ TypedExpr.allIntroduced rest

/-- The numbers of the declarations that a statement makes. -/
def TypedStmt.introduced : TypedStmt → List DeclId
  | ⟨form, _⟩ => form.introduced

def TypedStmtForm.introduced : TypedStmtForm → List DeclId
  | .expression e => e.introduced
  | .varDecl decl (some initializer) => decl :: initializer.introduced
  | .varDecl decl none => [decl]
  | .classDecl _ parameters members => parameters ++ TypedStmt.allIntroduced members
  | .fnDecl decl _ parameters body => decl :: parameters ++ TypedStmt.allIntroduced body
  | .ret (some value) => value.introduced
  | .ret none => []
  | .block body => TypedStmt.allIntroduced body
  | .branch condition thenBody (some elseBody) =>
    condition.introduced ++ (thenBody.introduced ++ elseBody.introduced)
  | .branch condition thenBody none => condition.introduced ++ thenBody.introduced
  | .loop condition body => condition.introduced ++ body.introduced
  | .print value => value.introduced

def TypedStmt.allIntroduced : List TypedStmt → List DeclId
  | [] => []
  | s :: rest => s.introduced ++ TypedStmt.allIntroduced rest

end

mutual

/-- The numbers of the declarations that an expression refers to. -/
def TypedExpr.mentioned : TypedExpr → List DeclId
  | ⟨form, _, _⟩ => form.mentioned

def TypedExprForm.mentioned : TypedExprForm → List DeclId
  | .int _ => []
  | .bool _ => []
  | .text _ => []
  | .reference _ decl => [decl]
  | .member owner _ decl? => decl?.toList ++ owner.mentioned
  | .assign target value => target.mentioned ++ value.mentioned
  | .binary left _ right method? => method?.toList ++ (left.mentioned ++ right.mentioned)
  | .unary _ operand method? => method?.toList ++ operand.mentioned
  | .call callee arguments => callee.mentioned ++ TypedExpr.allMentioned arguments
  | .new _ arguments => TypedExpr.allMentioned arguments
  | .lambda _ _ body => TypedStmt.allMentioned body

def Callee.mentioned : Callee → List DeclId
  | .function decl => [decl]
  | .method receiver _ decl? => decl?.toList ++ receiver.mentioned
  | .value value => value.mentioned

def Target.mentioned : Target → List DeclId
  | .binding decl => [decl]
  | .member owner _ decl => decl :: owner.mentioned

def TypedExpr.allMentioned : List TypedExpr → List DeclId
  | [] => []
  | e :: rest => e.mentioned ++ TypedExpr.allMentioned rest

/-- The numbers of the declarations that a statement refers to. -/
def TypedStmt.mentioned : TypedStmt → List DeclId
  | ⟨form, _⟩ => form.mentioned

def TypedStmtForm.mentioned : TypedStmtForm → List DeclId
  | .expression e => e.mentioned
  | .varDecl _ (some initializer) => initializer.mentioned
  | .varDecl _ none => []
  | .classDecl _ _ members => TypedStmt.allMentioned members
  | .fnDecl _ _ _ body => TypedStmt.allMentioned body
  | .ret (some value) => value.mentioned
  | .ret none => []
  | .block body => TypedStmt.allMentioned body
  | .branch condition thenBody (some elseBody) =>
    condition.mentioned ++ (thenBody.mentioned ++ elseBody.mentioned)
  | .branch condition thenBody none => condition.mentioned ++ thenBody.mentioned
  | .loop condition body => condition.mentioned ++ body.mentioned
  | .print value => value.mentioned

def TypedStmt.allMentioned : List TypedStmt → List DeclId
  | [] => []
  | s :: rest => s.mentioned ++ TypedStmt.allMentioned rest

end

end Nominal
