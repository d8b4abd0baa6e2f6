import Nominal.Typing.Declarations

/-!
# Rules for statements

One rule for each form of statement that declares something or changes the flow. As with expressions,
the parts come as checks. Every declaration is made inside a transaction, and what it put into the
current frame before it was complete is taken out again when it fails. Only the name of a class stays.
-/

namespace Nominal

namespace Context

/-! ## Variables -/

/-- Declares a variable whose type is written. -/
def typedVariable (ctx : Context) (name : String) (nameSpan : Span) (type : Slot Ty)
    (span : Span) : Check TypedStmt := do
  let id ← ctx.declareVariable name type nameSpan
  return ⟨.varDecl id none, span⟩

/-- Declares a variable of a written type with a value. -/
def initialisedVariable (ctx : Context) (name : String) (nameSpan : Span) (type : Slot Ty)
    (value : Check TypedExpr) (valueSpan span : Span) : Check TypedStmt := do
  let value ← value
  expectAssignable value type valueSpan
  let id ← ctx.declareVariable name type nameSpan
  return ⟨.varDecl id (some value), span⟩

/-- Declares a variable of a written function type with a value. The variable is visible in its own
value, so that a lambda can call itself. -/
def recursiveVariable (ctx : Context) (name : String) (nameSpan : Span) (type : Slot Ty)
    (value : Check TypedExpr) (valueSpan span : Span) : Check TypedStmt := do
  let id ← ctx.declareVariable name type nameSpan
  let value ← Check.undoing (fun frame => frame.removeVariable name) do
    let value ← value
    expectAssignable value type valueSpan
    return value
  return ⟨.varDecl id (some value), span⟩

/-- Declares a variable that takes its type from its value. -/
def inferredVariable (ctx : Context) (name : String) (nameSpan : Span) (mode : Mode)
    (value : Check TypedExpr) (valueSpan span : Span) : Check TypedStmt := do
  let value ← value
  if value.type.type.hasValues then
    let type : Slot Ty := ⟨mode, value.type.type⟩
    expectAssignable value type valueSpan
    let id ← ctx.declareVariable name type nameSpan
    return ⟨.varDecl id (some value), span⟩
  else .fail (.typing (.unstorable name value.type.name)) valueSpan

/-- Declares a variable. It needs a type or a value, and a `val` needs a value. -/
def varDecl (ctx : Context) (name : String) (nameSpan : Span) (mode : Mode)
    (type? : Option TypeExpr) (value? : Option (Span × Check TypedExpr)) (span : Span) :
    Check TypedStmt := do
  if value?.isNone && mode == .val then
    .fail (.typing (.uninitialised name)) nameSpan
  else
    match type? with
    | some t =>
      let declared ← Check.ofExcept ((← ctx.scope).resolveValue t)
      let type : Slot Ty := ⟨mode, declared⟩
      Check.transaction <|
        match value? with
        | none => ctx.typedVariable name nameSpan type span
        | some (valueSpan, value) =>
          if declared.function?.isSome then
            ctx.recursiveVariable name nameSpan type value valueSpan span
          else ctx.initialisedVariable name nameSpan type value valueSpan span
    | none =>
      Check.transaction <|
        match value? with
        | none => .fail (.typing (.untyped name)) nameSpan
        | some (valueSpan, value) =>
          ctx.inferredVariable name nameSpan mode value valueSpan span

/-! ## Functions -/

/-- Declares a function, which is visible in its own body. -/
def fnDecl (ctx : Context) (name : String) (nameSpan : Span) (parameters : List Parameter)
    (result? : Option TypeExpr) (bodySpan : Span) (body : Context → Check (List TypedStmt))
    (span : Span) : Check TypedStmt :=
  .transaction do
    let head ← ctx.functionHead parameters result?
    let id ← Check.insertDeclaration name ⟨.val, head.function.type⟩
    match (← get).frame.declareFunction name ⟨some id, head.function⟩ with
    | none => .fail (ctx.alreadyDefined name) nameSpan
    | some frame =>
      Check.setFrame frame
      let stmts ← Check.undoing (fun frame => frame.removeFunction name id)
        (ctx.functionBody head (some name) bodySpan body)
      return ⟨.fnDecl id head.function head.parameters stmts, span⟩

/-- Returns from the function around. Without a value it returns nothing. -/
def ret (ctx : Context) (value? : Option (Check TypedExpr)) (span : Span) : Check TypedStmt := do
  match ctx.function? with
  | none => .fail .invalidReturn span
  | some f =>
    let value? ← match value? with
      | some value => some <$> value
      | none => pure none
    let provided := (value?.map fun v => v.type.type).getD .nothing
    if provided.assignableTo f.result then
      modify fun s => { s with returned := true }
      return ⟨.ret value?, span⟩
    else
      let place := (value?.map fun v => v.span).getD span
      .fail (.wrongType f.result.name provided.name) place

/-! ## Classes -/

/-- Makes `name` a class of which nothing is known yet. -/
def declareClass (name : String) : Check ClassRef :=
  modifyGet fun s =>
    let (c, classes) := s.classes.declare name
    (c, { s with classes, frame := (s.frame.declareType name (.cls c)).getD s.frame })

/-- Declares a parameter of a class, which is a field as well. -/
def classParameter (ctx : Context) (c : ClassRef) (p : Parameter) : Check DeclId := do
  let (id, type) ← ctx.declareParameter p
  Check.updateClass c fun info => (info.addParameter type).addMember p.name ⟨type, id⟩
  return id

/-- Fails if a member has the name of a parameter of its class. -/
def expectNoParameter (ctx : Context) (parameters : List Parameter) (member : Stmt) :
    Check Unit := do
  match member.memberName? with
  | some (name, nameSpan) =>
    if parameters.any fun p => p.name == name then .fail (ctx.alreadyDefined name) nameSpan
  | none => pure ()

/-- Enters a checked member into its class: a variable as a field, a function as a method. -/
def enterMember (ctx : Context) (c : ClassRef) (member : Stmt) (typed : TypedStmt) :
    Check Unit := do
  match member.memberName?, typed.form with
  | some (name, _), .varDecl decl _ =>
    match (← ctx.scope).findVariable? name with
    | some b => Check.updateClass c fun info => info.addMember name ⟨b.type, decl⟩
    | none => pure ()
  | some (name, _), .fnDecl decl function _ _ =>
    Check.updateClass c fun info => info.addMethod name ⟨some decl, function⟩
  | _, _ => pure ()

/-- Declares a class. Its name is visible in its body, and stays when the body fails. -/
def classDecl (ctx : Context) (name : String) (nameSpan : Span) (parameters : List Parameter)
    (members : ClassRef → Context → Check (List TypedStmt)) (span : Span) : Check TypedStmt := do
  if ((← ctx.scope).findType? name).isSome then
    .fail (.alreadyDefinedType name) nameSpan
  else
    let c ← declareClass name
    let inside := { ctx with function? := none, className? := some name }
    let body := inside.inNewFrame fun ctx => do
      let ids ← parameters.mapM (ctx.classParameter c)
      let members ← ctx.inNewFrame (members c)
      return (ids, members)
    let ((ids, members), _) ← Check.apart (Check.transaction body)
    return ⟨.classDecl c ids members, span⟩

end Context

end Nominal
