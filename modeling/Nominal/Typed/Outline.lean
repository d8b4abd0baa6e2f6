import Nominal.Text.Outline
import Nominal.Text.Quoted
import Nominal.Ty.Classes
import Nominal.Typed.Tree

/-!
# Typed trees as outlines

How a typed tree is shown. A type is shown by its name alone, since a class can be part of its own
members. What is known of a class is shown where it is declared and where a value of it is made.
-/

namespace Nominal

/-! ## Parts of the tree -/

namespace Outline

/-- Text between double quotes. -/
def quotedText (s : String) : Outline :=
  text (quoted s)

/-- A part of a class, which grows while the class is checked. -/
def growing (value : Outline) : Outline :=
  record "RefCell" [("value", value)]

end Outline

open Outline

/-- A position, with the file it is in. -/
def Position.outline (p : Position) : Outline :=
  record "Position"
    [("offset", ofNat p.offset.toNat), ("line", ofNat p.line.toNat),
     ("column", ofNat p.column.toNat), ("file", quotedText p.file)]

/-- The two ends of a span. -/
def Span.outline (s : Span) : Outline :=
  record "Span" [("start", s.start.outline), ("end", s.stop.outline)]

/-- The number of a declaration. -/
def DeclId.outline (id : DeclId) : Outline :=
  wrapped "DeclId" (ofNat id.number)

/-- Declarations in their order. -/
def DeclId.outlines (ids : List DeclId) : Outline :=
  list (ids.map DeclId.outline)

/-- A declaration that built-in methods do not have. -/
def DeclId.outline? (id? : Option DeclId) : Outline :=
  option (id?.map DeclId.outline)

/-- A type, by its name. -/
def Ty.outline (t : Ty) : Outline :=
  text t.name

/-- A type and whether what has it may be reassigned. -/
def Slot.outline (s : Slot Ty) : Outline :=
  record "AppliedType"
    [("declared", s.type.outline), ("is_mutable", ofBool (s.mode == .var))]

/-- The parameters and the result of a function. -/
def FnType.outline (f : FnType) : Outline :=
  record "FunctionType"
    [("parameters", list (f.parameters.map Slot.outline)), ("return_type", f.result.outline)]

/-- An overload and its declaration. -/
def Overload.outline (o : Overload) : Outline :=
  record "Overload" [("id", DeclId.outline? o.id?), ("signature", o.signature.outline)]

/-- A field and its declaration. -/
def Member.outline (m : Member) : Outline :=
  record "Member" [("ty", m.type.outline), ("id", m.id.outline)]

/-- A table by names. -/
def Table.outline {α : Type} (value : α → Outline) (t : Table α) : Outline :=
  table (t.entries.map fun (name, v) => (quoted name, value v))

/-- What is known of a class. -/
def ClassInfo.outline (c : ClassInfo) : Outline :=
  record "ClassType"
    [("name", quotedText c.name),
     ("constructor_parameters", growing (list (c.parameters.map Slot.outline))),
     ("members", growing (c.members.outline Member.outline)),
     ("methods", growing (c.methods.outline fun overloads => list (overloads.map Overload.outline)))]

/-! ## The tree -/

mutual

/-- An expression with its type and its place. -/
def TypedExpr.outline (classes : ClassTable) : TypedExpr → Outline
  | ⟨form, type, span⟩ =>
    record "TypedExpr"
      [("kind", form.outline classes), ("ty", type.outline), ("span", span.outline)]

/-- The form of an expression. -/
def TypedExprForm.outline (classes : ClassTable) : TypedExprForm → Outline
  | .int value => wrapped "Int" (text (toString value))
  | .bool value => wrapped "Bool" (ofBool value)
  | .text value => wrapped "String" (quotedText value)
  | .reference name decl => record "Variable" [("name", quotedText name), ("decl", decl.outline)]
  | .member owner name decl? =>
    record "Member"
      [("owner", owner.outline classes), ("name", quotedText name),
       ("decl", DeclId.outline? decl?)]
  | .assign target value =>
    record "Assign" [("target", target.outline classes), ("value", value.outline classes)]
  | .binary left operator right method? =>
    record "Binary"
      [("left", left.outline classes), ("operator", quotedText operator),
       ("right", right.outline classes), ("method", DeclId.outline? method?)]
  | .unary operator operand method? =>
    record "Prefix"
      [("operator", quotedText operator), ("operand", operand.outline classes),
       ("method", DeclId.outline? method?)]
  | .call callee arguments =>
    record "Call"
      [("callee", callee.outline classes),
       ("arguments", list (TypedExpr.outlines classes arguments))]
  | .new cls arguments =>
    record "Instantiate"
      [("class", (classes.info cls).outline),
       ("arguments", list (TypedExpr.outlines classes arguments))]
  | .lambda function parameters body =>
    record "Lambda"
      [("function", function.outline), ("parameters", DeclId.outlines parameters),
       ("body", list (TypedStmt.outlines classes body))]

/-- Expressions in their order. -/
def TypedExpr.outlines (classes : ClassTable) : List TypedExpr → List Outline
  | [] => []
  | e :: es => e.outline classes :: TypedExpr.outlines classes es

/-- What a call calls. -/
def Callee.outline (classes : ClassTable) : Callee → Outline
  | .function decl => wrapped "Function" decl.outline
  | .method receiver name decl? =>
    record "Method"
      [("receiver", receiver.outline classes), ("name", quotedText name),
       ("decl", DeclId.outline? decl?)]
  | .value value => wrapped "Value" (value.outline classes)

/-- What an assignment writes to. -/
def Target.outline (classes : ClassTable) : Target → Outline
  | .binding decl => wrapped "Variable" decl.outline
  | .member owner name decl =>
    record "Member"
      [("owner", owner.outline classes), ("name", quotedText name), ("decl", decl.outline)]

/-- A statement with its place. -/
def TypedStmt.outline (classes : ClassTable) : TypedStmt → Outline
  | ⟨form, span⟩ =>
    record "TypedStmt" [("kind", form.outline classes), ("span", span.outline)]

/-- The form of a statement. -/
def TypedStmtForm.outline (classes : ClassTable) : TypedStmtForm → Outline
  | .expression expr => wrapped "Expression" (expr.outline classes)
  | .varDecl decl (some value) =>
    record "VarDecl"
      [("decl", decl.outline), ("initializer", option (some (value.outline classes)))]
  | .varDecl decl none =>
    record "VarDecl" [("decl", decl.outline), ("initializer", option none)]
  | .classDecl cls parameters members =>
    record "ClassDecl"
      [("class", (classes.info cls).outline),
       ("constructor_parameters", DeclId.outlines parameters),
       ("members", list (TypedStmt.outlines classes members))]
  | .fnDecl decl function parameters body =>
    record "FnDecl"
      [("decl", decl.outline), ("function", function.outline),
       ("parameters", DeclId.outlines parameters),
       ("body", list (TypedStmt.outlines classes body))]
  | .ret (some value) => wrapped "Return" (option (some (value.outline classes)))
  | .ret none => wrapped "Return" (option none)
  | .block body => wrapped "Block" (list (TypedStmt.outlines classes body))
  | .branch condition thenBody (some elseBody) =>
    record "If"
      [("condition", condition.outline classes), ("then_body", thenBody.outline classes),
       ("else_body", option (some (elseBody.outline classes)))]
  | .branch condition thenBody none =>
    record "If"
      [("condition", condition.outline classes), ("then_body", thenBody.outline classes),
       ("else_body", option none)]
  | .loop condition body =>
    record "While" [("condition", condition.outline classes), ("body", body.outline classes)]
  | .print value => wrapped "Print" (value.outline classes)

/-- Statements in their order. -/
def TypedStmt.outlines (classes : ClassTable) : List TypedStmt → List Outline
  | [] => []
  | s :: ss => s.outline classes :: TypedStmt.outlines classes ss

end

end Nominal
