import Nominal.Typing.Declarations

/-!
# Rules for expressions

One rule for each form of expression. A rule gets the parts of the expression as checks that it runs
in its own order, so it says what depends on what and nothing about how the tree is walked.
-/

namespace Nominal

/-- The arguments of a call, which are checked when the callee is known. -/
structure Arguments where
  /-- How many there are. -/
  count : Nat
  /-- Each for itself. -/
  each : Check (List TypedExpr)
  /-- One after the other into the given slots. -/
  into : List (Slot Ty) → Check (List TypedExpr)

/-- Why no overload takes `arguments`. -/
def noOverload (name : String) (arguments : List TypedExpr) : Cause :=
  .typing (.noOverload name (arguments.map fun a => a.type.name))

/-- Why no overload of `name` takes `arguments`. With an overload of their number it is the first
argument that the last such overload does not take, else their number. -/
def overloadMismatch (name : String) (overloads : List Overload) (arguments : List TypedExpr)
    (span : Span) : Diagnostic :=
  match overloads.reverse.find? fun o => o.signature.arity == arguments.length with
  | some o =>
    let pairs := arguments.zip o.signature.parameters
    match pairs.find? fun (argument, parameter) => !argument.type.assignableTo parameter with
    | some (argument, parameter) => ⟨wrongType parameter argument.type, argument.span⟩
    | none => ⟨noOverload name arguments, span⟩
  | none =>
    let arity := (overloads.getLast?.map fun o => o.signature.arity).getD 0
    ⟨.arity name arity arguments.length, span⟩

/-- The method that an operator is. -/
def operatorName (operator : Token) : String :=
  "operator" ++ operator.value

namespace Context

/-- A variable, or the function of that name that was declared last. -/
def symbol (ctx : Context) (name : String) (span : Span) : Check TypedExpr := do
  let scope ← ctx.scope
  match scope.findVariable? name with
  | some b => return ⟨.reference name b.id, b.type, span⟩
  | none =>
    match (scope.findFunctions name).getLast? with
    | some ⟨some id, f⟩ => return ⟨.reference name id, ⟨.val, f.type⟩, span⟩
    | _ => .fail (ctx.undefined name) span

/-- A field of the owner, or the method of that name that was declared last. -/
def member (owner : Check TypedExpr) (name : String) (nameSpan span : Span) :
    Check TypedExpr := do
  let owner ← owner
  let classes := (← get).classes
  match classes.member? owner.type.type name with
  | some m => return ⟨.member owner name (some m.id), m.type, span⟩
  | none =>
    match (classes.methods owner.type.type name).getLast? with
    | some o => return ⟨.member owner name o.id?, ⟨.val, o.signature.type⟩, span⟩
    | none => .fail (.undefinedMember owner.type.name name) nameSpan

/-! ## Assignments -/

/-- A variable to assign to, with the slot it is. Functions can not be assigned to. -/
def variableTarget (ctx : Context) (name : String) (span : Span) : Check (Target × Slot Ty) := do
  let scope ← ctx.scope
  match scope.findVariable? name with
  | some b =>
    if b.type.mode = .var then return (.binding b.id, b.type)
    else .fail (.assignmentToConst name) span
  | none =>
    if (scope.findFunctions name).isEmpty then .fail (ctx.undefined name) span
    else .fail (.assignmentToConst name) span

/-- A field to assign to, with the slot it is. Methods can not be assigned to. -/
def memberTarget (owner : Check TypedExpr) (name : String) (nameSpan : Span) :
    Check (Target × Slot Ty) := do
  let owner ← owner
  let classes := (← get).classes
  match classes.member? owner.type.type name with
  | some m =>
    if m.type.mode = .var then return (.member owner name m.id, m.type)
    else .fail (.assignmentToConst name) nameSpan
  | none =>
    if (classes.methods owner.type.type name).isEmpty then
      .fail (.undefinedMember owner.type.name name) nameSpan
    else .fail (.assignmentToConst name) nameSpan

/-- An assignment is worth what was assigned, as the slot it went to. -/
def assign (target : Check (Target × Slot Ty)) (value : Check TypedExpr) (valueSpan span : Span) :
    Check TypedExpr := do
  let (target, slot) ← target
  let value ← value
  expectAssignable value slot valueSpan
  return ⟨.assign target value, slot, span⟩

/-! ## Operators -/

/-- The function that an operator is when no method of its operand fits. -/
def operatorFunction (ctx : Context) (operator : Token) (methods : List Overload)
    (operands : List TypedExpr) (owner : TypedExpr) (span : Span) : Check TypedExpr := do
  let name := operatorName operator
  let functions := (← ctx.scope).findFunctions name
  match resolveOverload functions (operands.map fun e => e.type) with
  | some ⟨some id, f⟩ => return ⟨.call (.function id) operands, ⟨.var, f.result⟩, span⟩
  | _ =>
    if methods.isEmpty && functions.isEmpty then
      .fail (.undefinedMember owner.type.name name) operator.span
    else .fail (noOverload name operands) span

/-- `left op right` calls a method of `left`, or else a function of both. -/
def binary (ctx : Context) (operator : Token) (left right : Check TypedExpr) (span : Span) :
    Check TypedExpr := do
  let left ← left
  let right ← right
  let methods := (← get).classes.methods left.type.type (operatorName operator)
  match resolveOverload methods [right.type] with
  | some o =>
    return ⟨.binary left operator.value right o.id?, ⟨.var, o.signature.result⟩, span⟩
  | none => ctx.operatorFunction operator methods [left, right] left span

/-- `op operand` calls a method of `operand`, or else a function of it. -/
def unary (ctx : Context) (operator : Token) (operand : Check TypedExpr) (span : Span) :
    Check TypedExpr := do
  let operand ← operand
  let methods := (← get).classes.methods operand.type.type (operatorName operator)
  match resolveOverload methods [] with
  | some o => return ⟨.unary operator.value operand o.id?, ⟨.var, o.signature.result⟩, span⟩
  | none => ctx.operatorFunction operator methods [operand] operand span

/-! ## Calls -/

/-- Calls a value, which is called `name` in diagnostics. Their number is looked at before the
arguments. -/
def callValue (callee : TypedExpr) (name : String) (arguments : Arguments) (span : Span) :
    Check TypedExpr := do
  match callee.type.type.function? with
  | none => .fail (.wrongType "Function" callee.type.name) callee.span
  | some f =>
    if f.arity = arguments.count then
      let arguments ← arguments.into f.parameters
      return ⟨.call (.value callee) arguments, ⟨.var, f.result⟩, span⟩
    else .fail (.arity name f.arity arguments.count) span

/-- Calls the last overload of `name` that takes the arguments. -/
def callOverload (ctx : Context) (overloads : List Overload) (name : String) (nameSpan : Span)
    (arguments : Arguments) (span : Span) : Check TypedExpr := do
  if overloads.isEmpty then
    .fail (ctx.undefined name) nameSpan
  else
    let arguments ← arguments.each
    match resolveOverload overloads (arguments.map fun a => a.type) with
    | some ⟨some id, f⟩ => return ⟨.call (.function id) arguments, ⟨.var, f.result⟩, span⟩
    | _ => throw (overloadMismatch name overloads arguments span)

/-- Calls what `name` stands for: the value of a variable, or else an overload. -/
def callSymbol (ctx : Context) (name : String) (nameSpan : Span) (arguments : Arguments)
    (span : Span) : Check TypedExpr := do
  let scope ← ctx.scope
  match scope.findVariable? name with
  | some b => callValue ⟨.reference name b.id, b.type, nameSpan⟩ name arguments span
  | none => ctx.callOverload (scope.findFunctions name) name nameSpan arguments span

/-- Calls the value of a field, or else the last method that takes the arguments. -/
def callMember (receiver : Check TypedExpr) (name : String) (nameSpan calleeSpan : Span)
    (arguments : Arguments) (span : Span) : Check TypedExpr := do
  let receiver ← receiver
  let classes := (← get).classes
  match classes.member? receiver.type.type name with
  | some m => callValue ⟨.member receiver name (some m.id), m.type, calleeSpan⟩ name arguments span
  | none =>
    let methods := classes.methods receiver.type.type name
    if methods.isEmpty then
      .fail (.undefinedMember receiver.type.name name) nameSpan
    else
      let arguments ← arguments.each
      match resolveOverload methods (arguments.map fun a => a.type) with
      | some o =>
        return ⟨.call (.method receiver name o.id?) arguments, ⟨.var, o.signature.result⟩, span⟩
      | none => throw (overloadMismatch name methods arguments span)

/-- Makes a value of the class `name`. -/
def instantiate (ctx : Context) (name : String) (arguments : Arguments) (span : Span) :
    Check TypedExpr := do
  match (← ctx.scope).findType? name with
  | none => .fail (.undefinedType name) span
  | some type =>
    match type.class? with
    | none => .fail (.typing (.notInstantiable name)) span
    | some c =>
      let parameters := ((← get).classes.info c).parameters
      if parameters.length = arguments.count then
        let arguments ← arguments.into parameters
        return ⟨.new c arguments, ⟨.var, type⟩, span⟩
      else .fail (.arity name parameters.length arguments.count) span

/-- A function without a name. -/
def lambda (ctx : Context) (parameters : List Parameter) (result? : Option TypeExpr)
    (bodySpan : Span) (body : Context → Check (List TypedStmt)) (span : Span) :
    Check TypedExpr :=
  .transaction do
    let head ← ctx.functionHead parameters result?
    let stmts ← ctx.functionBody head none bodySpan body
    return ⟨.lambda head.function head.parameters stmts, ⟨.var, head.function.type⟩, span⟩

end Context

end Nominal
