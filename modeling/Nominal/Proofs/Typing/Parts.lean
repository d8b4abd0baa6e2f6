import Nominal.Typing.Statements

/-!
# The parts of declarations

Steps that stand inside of a rule are given names here, and the rule is written with them
(`Context.functionHead_eq`, `Context.recursiveVariable_eq`, `Context.ret_eq`,
`Context.classDecl_eq`). What is shown of such a step is then stated about its name and not about a
copy of it.
-/

namespace Nominal

namespace Context

/-- Declares the parameters of a function whose result is known already. -/
def parameterHead (ctx : Context) (parameters : List Parameter) (result : Ty) :
    Check FunctionHead :=
  ctx.inNewFrame fun ctx => do
    let declared ← parameters.mapM ctx.declareParameter
    return ⟨⟨declared.map Prod.snd, result⟩, (← get).frame, declared.map Prod.fst⟩

theorem functionHead_eq (ctx : Context) (parameters : List Parameter)
    (result? : Option TypeExpr) :
    ctx.functionHead parameters result? =
      match result? with
      | some t => do
        let result ← Check.ofExcept ((← ctx.scope).resolve t)
        ctx.parameterHead parameters result
      | none => ctx.parameterHead parameters .nothing := by
  cases result? <;> rfl

/-- Checks a value that has to flow into the slot `type`. -/
def valueInto (value : Check TypedExpr) (type : Slot Ty) (span : Span) : Check TypedExpr := do
  let value ← value
  expectAssignable value type span
  return value

theorem recursiveVariable_eq (ctx : Context) (name : String) (nameSpan : Span) (type : Slot Ty)
    (value : Check TypedExpr) (valueSpan span : Span) :
    ctx.recursiveVariable name nameSpan type value valueSpan span = do
      let id ← ctx.declareVariable name type nameSpan
      let value ← Check.undoing (fun frame => frame.removeVariable name)
        (valueInto value type valueSpan)
      return ⟨.varDecl id (some value), span⟩ :=
  rfl

/-- Returns from the function `f` once the value is known. -/
def finishReturn (f : FnType) (span : Span) (value? : Option TypedExpr) : Check TypedStmt := do
  let provided := (value?.map fun v => v.type.type).getD .nothing
  if provided.assignableTo f.result then
    modify fun s => { s with returned := true }
    return ⟨.ret value?, span⟩
  else
    let place := (value?.map fun v => v.span).getD span
    .fail (.wrongType f.result.name provided.name) place

theorem ret_eq (ctx : Context) (value? : Option (Check TypedExpr)) (span : Span) :
    ctx.ret value? span =
      match ctx.function?, value? with
      | none, _ => .fail .invalidReturn span
      | some f, some value => (some <$> value) >>= finishReturn f span
      | some f, none => finishReturn f span none := by
  unfold ret
  cases ctx.function? <;> cases value? <;> rfl

/-- Checks the parameters and the members of the class `c`. -/
def classBody (ctx : Context) (c : ClassRef) (parameters : List Parameter)
    (members : Context → Check (List TypedStmt)) : Check (List DeclId × List TypedStmt) :=
  ctx.inNewFrame fun ctx => do
    let ids ← parameters.mapM (ctx.classParameter c)
    let members ← ctx.inNewFrame members
    return (ids, members)

theorem classDecl_eq (ctx : Context) (name : String) (nameSpan : Span)
    (parameters : List Parameter) (members : ClassRef → Context → Check (List TypedStmt))
    (span : Span) :
    ctx.classDecl name nameSpan parameters members span = do
      if ((← ctx.scope).findType? name).isSome then
        .fail (.alreadyDefinedType name) nameSpan
      else
        let c ← declareClass name
        let inside := { ctx with function? := none, className? := some name }
        let ((ids, members), _) ←
          Check.apart (Check.transaction (inside.classBody c parameters (members c)))
        return ⟨.classDecl c ids members, span⟩ :=
  rfl

end Context

end Nominal
