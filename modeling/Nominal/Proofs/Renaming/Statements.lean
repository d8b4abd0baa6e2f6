import Nominal.Proofs.Renaming.Checks
import Nominal.Proofs.Typing.Parts

/-!
# Declarations in two runs

The rules for functions and statements, each with the parts that follow each other. What is declared
gets the next number or key, which is the renamed one in the other run; what a failed declaration
takes out of the frame again is found there under its new number.
-/

namespace Nominal

open Check

/-- The head with all declarations renamed. -/
def Context.FunctionHead.rename (ρ : Renaming) (head : Context.FunctionHead) :
    Context.FunctionHead :=
  ⟨head.function.rename ρ, head.frame.rename ρ, head.parameters.map (DeclId.rename ρ)⟩

variable {ρ : Renaming} {z : CheckState} {ctx : Context} {name : String}
  {nameSpan valueSpan bodySpan span : Span} {value value' : Check TypedExpr}
  {body body' : Context → Check (List TypedStmt)}

namespace Context

/-! ## Variables and parameters -/

theorem bind_follows (name : String) (type : Slot Ty) (refused : Cause) (span : Span) :
    Follows ρ z (DeclId.rename ρ) (bind name type refused span)
      (bind name (type.rename ρ) refused span) := by
  unfold bind
  refine Follows.insertDeclaration name type |>.bind fun id => .get_bind fun s s' hframe _ => ?_
  have hdeclare : (s.frame.rename ρ).declareVariable name ⟨id.rename ρ, type.rename ρ⟩ =
      (s.frame.declareVariable name ⟨id, type⟩).map (Frame.rename ρ) :=
    s.frame.declareVariable_rename name ⟨id, type⟩
  simp only [hframe, hdeclare]
  cases s.frame.declareVariable name ⟨id, type⟩ with
  | none => exact .fail rfl span
  | some frame => exact (Follows.setFrame frame).bind fun _ => .pure rfl

theorem declareVariable_follows (type : Slot Ty) :
    Follows ρ z (DeclId.rename ρ) (ctx.declareVariable name type span)
      ((ctx.rename ρ).declareVariable name (type.rename ρ) span) :=
  bind_follows name type _ span

theorem declareParameter_follows (p : Parameter) :
    Follows ρ z (Prod.map (DeclId.rename ρ) (Slot.rename ρ)) (ctx.declareParameter p)
      ((ctx.rename ρ).declareParameter p) := by
  unfold declareParameter
  refine .scope_bind fun scope => .ofExcept_bind (scope.resolveValue_rename p.type) fun type => ?_
  exact (bind_follows p.name ⟨p.mode, type⟩ _ p.span).bind fun id => .pure rfl

/-! ## Functions -/

theorem parameterHead_follows (parameters : List Parameter) (result : Ty) :
    Follows ρ z (FunctionHead.rename ρ) (ctx.parameterHead parameters result)
      ((ctx.rename ρ).parameterHead parameters (result.rename ρ)) := by
  unfold parameterHead
  refine .inNewFrame fun ctx => ?_
  refine (Follows.mapM (fun p => declareParameter_follows p) parameters).bind fun declared => ?_
  refine .get_bind fun s s' hframe _ => .pure ?_
  simp [FunctionHead.rename, FnType.rename, hframe, Function.comp_def]

theorem functionHead_follows (parameters : List Parameter) (result? : Option TypeExpr) :
    Follows ρ z (FunctionHead.rename ρ) (ctx.functionHead parameters result?)
      ((ctx.rename ρ).functionHead parameters result?) := by
  rw [functionHead_eq, functionHead_eq]
  cases result? with
  | none => exact parameterHead_follows parameters .nothing
  | some t =>
    exact .scope_bind fun scope => .ofExcept_bind (scope.resolve_rename t) fun result =>
      parameterHead_follows parameters result

theorem functionBody_follows (head : FunctionHead) (name? : Option String)
    (hbody : ∀ ctx, Follows ρ z (List.map (TypedStmt.rename ρ)) (body ctx)
      (body' (ctx.rename ρ))) :
    Follows ρ z (List.map (TypedStmt.rename ρ)) (ctx.functionBody head name? bodySpan body)
      ((ctx.rename ρ).functionBody (head.rename ρ) name? bodySpan body') := by
  unfold functionBody
  refine (Follows.apart (Follows.inFrame head.frame hbody)).bind fun (stmts, returned) => ?_
  simp only [Prod.map, id, FunctionHead.rename, FnType.result_rename,
    Ty.assignableTo_nothing_rename]
  split
  · exact .pure rfl
  · exact .fail rfl bodySpan

theorem lambda_follows (parameters : List Parameter) (result? : Option TypeExpr)
    (hbody : ∀ ctx, Follows ρ z (List.map (TypedStmt.rename ρ)) (body ctx)
      (body' (ctx.rename ρ))) :
    Follows ρ z (TypedExpr.rename ρ) (ctx.lambda parameters result? bodySpan body span)
      ((ctx.rename ρ).lambda parameters result? bodySpan body' span) := by
  unfold lambda
  refine .transaction ((functionHead_follows parameters result?).bind fun head => ?_)
  refine (functionBody_follows head none hbody).bind fun stmts => .pure ?_
  simp [FunctionHead.rename]

theorem fnDecl_follows (parameters : List Parameter) (result? : Option TypeExpr)
    (hbody : ∀ ctx, Follows ρ z (List.map (TypedStmt.rename ρ)) (body ctx)
      (body' (ctx.rename ρ))) :
    Follows ρ z (TypedStmt.rename ρ)
      (ctx.fnDecl name nameSpan parameters result? bodySpan body span)
      ((ctx.rename ρ).fnDecl name nameSpan parameters result? bodySpan body' span) := by
  unfold fnDecl
  refine .transaction ((functionHead_follows parameters result?).bind fun head => ?_)
  have hinsert : Follows ρ z (DeclId.rename ρ)
      (Check.insertDeclaration name ⟨.val, head.function.type⟩)
      (Check.insertDeclaration name ⟨.val, (head.rename ρ).function.type⟩) := by
    have htype : (head.rename ρ).function.type = head.function.type.rename ρ :=
      FnType.type_rename head.function
    rw [htype]
    exact .insertDeclaration name ⟨.val, head.function.type⟩
  refine hinsert.bind fun id => .get_bind fun s s' hframe _ => ?_
  have hdeclare : (s.frame.rename ρ).declareFunction name
      ⟨some (id.rename ρ), (head.rename ρ).function⟩ =
        (s.frame.declareFunction name ⟨some id, head.function⟩).map (Frame.rename ρ) :=
    s.frame.declareFunction_rename name ⟨some id, head.function⟩
  simp only [hframe, hdeclare]
  cases s.frame.declareFunction name ⟨some id, head.function⟩ with
  | none => exact .fail rfl nameSpan
  | some frame =>
    refine (Follows.setFrame frame).bind fun _ => ?_
    refine (Follows.undoing (fun frame => frame.removeFunction_rename name id)
      (functionBody_follows head (some name) hbody)).bind fun stmts => .pure ?_
    simp [FunctionHead.rename]

/-! ## Variables -/

theorem typedVariable_follows (type : Slot Ty) :
    Follows ρ z (TypedStmt.rename ρ) (ctx.typedVariable name nameSpan type span)
      ((ctx.rename ρ).typedVariable name nameSpan (type.rename ρ) span) := by
  unfold typedVariable
  exact (declareVariable_follows type).bind fun id => .pure (by simp)

theorem initialisedVariable_follows (type : Slot Ty)
    (hvalue : Follows ρ z (TypedExpr.rename ρ) value value') :
    Follows ρ z (TypedStmt.rename ρ)
      (ctx.initialisedVariable name nameSpan type value valueSpan span)
      ((ctx.rename ρ).initialisedVariable name nameSpan (type.rename ρ) value' valueSpan span) := by
  unfold initialisedVariable
  refine hvalue.bind fun v => .expect_bind ?_
  exact (declareVariable_follows type).bind fun id => .pure (by simp)

theorem recursiveVariable_follows (type : Slot Ty)
    (hvalue : Follows ρ z (TypedExpr.rename ρ) value value') :
    Follows ρ z (TypedStmt.rename ρ)
      (ctx.recursiveVariable name nameSpan type value valueSpan span)
      ((ctx.rename ρ).recursiveVariable name nameSpan (type.rename ρ) value' valueSpan span) := by
  have hinto : Follows ρ z (TypedExpr.rename ρ) (valueInto value type valueSpan)
      (valueInto value' (type.rename ρ) valueSpan) :=
    hvalue.bind fun v => .expect_bind (.pure rfl)
  rw [recursiveVariable_eq, recursiveVariable_eq]
  refine (declareVariable_follows type).bind fun id => ?_
  refine (Follows.undoing (fun frame => frame.removeVariable_rename name) hinto).bind fun v => ?_
  exact .pure (by simp)

theorem inferredVariable_follows (mode : Mode)
    (hvalue : Follows ρ z (TypedExpr.rename ρ) value value') :
    Follows ρ z (TypedStmt.rename ρ)
      (ctx.inferredVariable name nameSpan mode value valueSpan span)
      ((ctx.rename ρ).inferredVariable name nameSpan mode value' valueSpan span) := by
  unfold inferredVariable
  refine hvalue.bind fun v => ?_
  simp only [TypedExpr.type_rename, Slot.type_rename, Ty.hasValues_rename, Slot.name_rename]
  split
  · refine .expect_bind ?_
    exact (declareVariable_follows ⟨mode, v.type.type⟩).bind fun id => .pure (by simp)
  · exact .fail rfl valueSpan

theorem varDecl_follows (mode : Mode) (type? : Option TypeExpr)
    {value? value'? : Option (Span × Check TypedExpr)}
    (hvalue : Option.Rel (fun v v' => v.1 = v'.1 ∧ Follows ρ z (TypedExpr.rename ρ) v.2 v'.2)
      value? value'?) :
    Follows ρ z (TypedStmt.rename ρ) (ctx.varDecl name nameSpan mode type? value? span)
      ((ctx.rename ρ).varDecl name nameSpan mode type? value'? span) := by
  unfold varDecl
  have hnone : value'?.isNone = value?.isNone := by cases hvalue <;> rfl
  rw [hnone]
  split
  · exact .fail rfl nameSpan
  · cases type? with
    | none =>
      refine .transaction ?_
      cases hvalue with
      | none => exact .fail rfl nameSpan
      | @some v v' h =>
        obtain ⟨valueSpan, value⟩ := v
        obtain ⟨rfl, hvalue⟩ := h
        exact inferredVariable_follows mode hvalue
    | some t =>
      refine .scope_bind fun scope => ?_
      refine .ofExcept_bind (scope.resolveValue_rename t) fun declared => .transaction ?_
      cases hvalue with
      | none => exact typedVariable_follows ⟨mode, declared⟩
      | @some v v' h =>
        obtain ⟨valueSpan, value⟩ := v
        obtain ⟨rfl, hvalue⟩ := h
        -- whether the written type is a function type is the same after renaming
        simp only [Ty.function?_rename, Option.isSome_map]
        split
        · exact recursiveVariable_follows ⟨mode, declared⟩ hvalue
        · exact initialisedVariable_follows ⟨mode, declared⟩ hvalue

/-! ## Returning -/

theorem finishReturn_follows (f : FnType) (value? : Option TypedExpr) :
    Follows ρ z (TypedStmt.rename ρ) (finishReturn f span value?)
      (finishReturn (f.rename ρ) span (value?.map (TypedExpr.rename ρ))) := by
  have hprovided : ((value?.map (TypedExpr.rename ρ)).map fun v : TypedExpr => v.type.type).getD
      .nothing = ((value?.map fun v : TypedExpr => v.type.type).getD .nothing).rename ρ := by
    cases value? with
    | none => exact (Ty.rename_primitive .nothing).symm
    | some v => simp
  have hplace : ((value?.map (TypedExpr.rename ρ)).map fun v : TypedExpr => v.span).getD span =
      (value?.map fun v : TypedExpr => v.span).getD span := by
    cases value? with
    | none => rfl
    | some v => simp
  unfold finishReturn
  simp only [hprovided, hplace, FnType.result_rename, Ty.assignableTo_rename, Ty.name_rename]
  split
  · refine Follows.setReturned.bind fun _ => .pure ?_
    cases value? <;> simp
  · exact .fail rfl _

theorem ret_follows {value? value'? : Option (Check TypedExpr)}
    (hvalue : Option.Rel (Follows ρ z (TypedExpr.rename ρ)) value? value'?) :
    Follows ρ z (TypedStmt.rename ρ) (ctx.ret value? span) ((ctx.rename ρ).ret value'? span) := by
  have hfunction : (ctx.rename ρ).function? = ctx.function?.map (FnType.rename ρ) := rfl
  rw [ret_eq, ret_eq, hfunction]
  cases ctx.function? with
  | none => exact .fail rfl span
  | some f =>
    cases hvalue with
    | none => exact finishReturn_follows f none
    | some hvalue =>
      have hsome : Follows ρ z (Option.map (TypedExpr.rename ρ)) (some <$> _) (some <$> _) :=
        hvalue.map fun v => rfl
      exact hsome.bind fun v? => finishReturn_follows f v?

/-! ## Classes -/

theorem classParameter_follows (c : ClassRef) (p : Parameter) :
    Follows ρ z (DeclId.rename ρ) (ctx.classParameter c p)
      ((ctx.rename ρ).classParameter (c.rename ρ) p) := by
  unfold classParameter
  refine (declareParameter_follows p).bind fun (id, type) => ?_
  refine (Follows.updateClass c fun info => ?_).bind fun _ => .pure rfl
  show ((info.rename ρ).addParameter (type.rename ρ)).addMember p.name
      (Member.rename ρ ⟨type, id⟩) = _
  rw [ClassInfo.addParameter_rename, ClassInfo.addMember_rename]

theorem expectNoParameter_follows (parameters : List Parameter) (member : Stmt) :
    Follows ρ z id (ctx.expectNoParameter parameters member)
      ((ctx.rename ρ).expectNoParameter parameters member) := by
  unfold expectNoParameter
  cases member.memberName? with
  | none => exact .pure rfl
  | some named =>
    dsimp only
    split
    · exact .fail rfl named.2
    · exact .pure rfl

theorem enterVariable_follows (c : ClassRef) (name : String) (decl : DeclId) (scope : Scope) :
    Follows ρ z id
      (match scope.findVariable? name with
      | some b => Check.updateClass c fun info => info.addMember name ⟨b.type, decl⟩
      | none => pure ())
      (match (scope.rename ρ).findVariable? name with
      | some b => Check.updateClass (c.rename ρ) fun info =>
        info.addMember name ⟨b.type, decl.rename ρ⟩
      | none => pure ()) := by
  rw [Scope.findVariable?_rename]
  cases scope.findVariable? name with
  | none => exact .pure rfl
  | some b => exact .updateClass c fun info => info.addMember_rename name ⟨b.type, decl⟩

theorem enterMember_follows (c : ClassRef) (member : Stmt) (typed : TypedStmt) :
    Follows ρ z id (ctx.enterMember c member typed)
      ((ctx.rename ρ).enterMember (c.rename ρ) member (typed.rename ρ)) := by
  unfold enterMember
  rw [TypedStmt.form_rename]
  cases member.memberName? with
  | none => exact .pure rfl
  | some named =>
    cases typed.form with
    | varDecl decl initializer? =>
      cases initializer? with
      | none => exact .scope_bind (enterVariable_follows c named.1 decl)
      | some initializer => exact .scope_bind (enterVariable_follows c named.1 decl)
    | fnDecl decl function parameters body =>
      exact .updateClass c fun info => info.addMethod_rename named.1 ⟨some decl, function⟩
    | ret value? => cases value? <;> exact .pure rfl
    | branch condition thenBody elseBody? => cases elseBody? <;> exact .pure rfl
    | _ => exact .pure rfl

/-- The body of a class whose members follow each other. -/
theorem classBody_follows (ctx : Context) (c : ClassRef) (parameters : List Parameter)
    (hbody : ∀ ctx, Follows ρ z (List.map (TypedStmt.rename ρ)) (body ctx)
      (body' (ctx.rename ρ))) :
    Follows ρ z (Prod.map (List.map (DeclId.rename ρ)) (List.map (TypedStmt.rename ρ)))
      (ctx.classBody c parameters body)
      ((ctx.rename ρ).classBody (c.rename ρ) parameters body') := by
  unfold classBody
  refine .inNewFrame fun ctx => ?_
  refine (Follows.mapM (fun p => classParameter_follows c p) parameters).bind fun ids => ?_
  exact (Follows.inNewFrame hbody).bind fun members => .pure rfl

theorem classDecl_follows (parameters : List Parameter)
    {members members' : ClassRef → Context → Check (List TypedStmt)}
    (hmembers : ∀ c ctx, Follows ρ z (List.map (TypedStmt.rename ρ)) (members c ctx)
      (members' (c.rename ρ) (ctx.rename ρ))) :
    Follows ρ z (TypedStmt.rename ρ) (ctx.classDecl name nameSpan parameters members span)
      ((ctx.rename ρ).classDecl name nameSpan parameters members' span) := by
  rw [classDecl_eq, classDecl_eq]
  refine .scope_bind fun scope => ?_
  rw [Scope.findType?_rename, Option.isSome_map]
  split
  · exact .fail rfl nameSpan
  · refine (Follows.declareClass name).bind fun c => ?_
    have hbody := classBody_follows { ctx with function? := none, className? := some name } c
      parameters (hmembers c)
    exact hbody.transaction.apart.bind fun ((ids, members), returned) => .pure (by simp)

end Context

end Nominal
