import Nominal.Proofs.Typing.Levels.Expressions
import Nominal.Proofs.Typing.Parts

/-!
# Rules for statements under a higher limit

A rule for a declaration is widened when its value or its body is. What was entered into the current
frame before a body failed is taken out in both runs, so they leave the same frame.
-/

namespace Nominal

open Check

namespace Context

variable {scarce : Prop} {ctx : Context} {l : Nat} {name : String}
  {nameSpan valueSpan bodySpan span : Span} {value value' : Check TypedExpr}
  {body : Context → Check (List TypedStmt)}

/-! ## Declarations -/

theorem bind_widens (type : Slot Ty) {refused : Cause} (h : refused.isNesting = false) :
    Widens scarce (Context.bind name type refused span) (Context.bind name type refused span) := by
  unfold Context.bind
  refine .bind (.modifyGet _) fun id => .get_bind fun s => ?_
  split
  · exact .bind (.modifyGet _) fun _ => .pure id
  · exact .fail h span

theorem declareVariable_widens (type : Slot Ty) :
    Widens scarce (ctx.declareVariable name type span)
      ((ctx.allowing l).declareVariable name type span) :=
  bind_widens type (ctx.isNesting_alreadyDefined name)

theorem declareParameter_widens (p : Parameter) :
    Widens scarce (ctx.declareParameter p) ((ctx.allowing l).declareParameter p) := by
  unfold declareParameter
  refine .scope_bind fun scope => ?_
  refine .ofExcept_bind (scope.neverNests_resolveValue p.type) fun type => ?_
  exact .bind (bind_widens _ rfl) fun id => .pure _

theorem parameterHead_widens (parameters : List Parameter) (result : Ty) :
    Widens scarce (ctx.parameterHead parameters result)
      ((ctx.allowing l).parameterHead parameters result) := by
  refine .inNewFrame fun outer function? className? => ?_
  refine .bind (.mapM (fun p => declareParameter_widens p) parameters) fun declared => ?_
  exact .get_bind fun s => .pure _

theorem functionHead_widens (parameters : List Parameter) (result? : Option TypeExpr) :
    Widens scarce (ctx.functionHead parameters result?)
      ((ctx.allowing l).functionHead parameters result?) := by
  rw [functionHead_eq, functionHead_eq]
  cases result? with
  | none => exact parameterHead_widens parameters .nothing
  | some t =>
    exact .scope_bind fun scope => .ofExcept_bind (scope.neverNests_resolve t) fun result =>
      parameterHead_widens parameters result

theorem functionBody_widens (head : FunctionHead) (name? : Option String)
    (hbody : ctx.WidensBody scarce l body) :
    Widens scarce (ctx.functionBody head name? bodySpan body)
      ((ctx.allowing l).functionBody head name? bodySpan body) := by
  have hinside : WidensBody { ctx with function? := some head.function } scarce l body := hbody
  refine (Widens.inFrame head.frame hinside).apart.bind fun (stmts, returned) => ?_
  dsimp only
  split
  · exact .pure stmts
  · exact .fail rfl bodySpan

theorem lambda_widens (parameters : List Parameter) (result? : Option TypeExpr)
    (hbody : ctx.WidensBody scarce l body) :
    Widens scarce (ctx.lambda parameters result? bodySpan body span)
      ((ctx.allowing l).lambda parameters result? bodySpan body span) := by
  refine .transaction <| .bind (functionHead_widens parameters result?) fun head => ?_
  exact .bind (functionBody_widens head none hbody) fun stmts => .pure _

/-! ## Variables -/

theorem valueInto_widens (type : Slot Ty) (hvalue : Widens scarce value value') :
    Widens scarce (valueInto value type valueSpan) (valueInto value' type valueSpan) :=
  hvalue.bind fun value => .expect_bind (.pure value)

theorem recursiveVariable_widens (type : Slot Ty) (hvalue : Widens scarce value value') :
    Widens scarce (ctx.recursiveVariable name nameSpan type value valueSpan span)
      ((ctx.allowing l).recursiveVariable name nameSpan type value' valueSpan span) := by
  rw [recursiveVariable_eq, recursiveVariable_eq]
  refine .bind (declareVariable_widens type) fun id => ?_
  exact .bind (.undoing _ (valueInto_widens type hvalue)) fun value => .pure _

theorem initialisedVariable_widens (type : Slot Ty) (hvalue : Widens scarce value value') :
    Widens scarce (ctx.initialisedVariable name nameSpan type value valueSpan span)
      ((ctx.allowing l).initialisedVariable name nameSpan type value' valueSpan span) := by
  unfold initialisedVariable
  refine hvalue.bind fun value => .expect_bind ?_
  exact .bind (declareVariable_widens type) fun id => .pure _

theorem inferredVariable_widens (mode : Mode) (hvalue : Widens scarce value value') :
    Widens scarce (ctx.inferredVariable name nameSpan mode value valueSpan span)
      ((ctx.allowing l).inferredVariable name nameSpan mode value' valueSpan span) := by
  unfold inferredVariable
  refine hvalue.bind fun value => ?_
  split
  · exact .expect_bind <| .bind (declareVariable_widens _) fun id => .pure _
  · exact .fail rfl valueSpan

/-- A variable without a value. -/
theorem varDecl_none_widens (mode : Mode) (type? : Option TypeExpr) :
    Widens scarce (ctx.varDecl name nameSpan mode type? none span)
      ((ctx.allowing l).varDecl name nameSpan mode type? none span) := by
  unfold varDecl
  split
  · exact .fail rfl nameSpan
  · cases type? with
    | none => exact .transaction (.fail rfl nameSpan)
    | some t =>
      refine .scope_bind fun scope => ?_
      refine .ofExcept_bind (scope.neverNests_resolveValue t) fun type => ?_
      exact .transaction <| .bind (declareVariable_widens _) fun id => .pure _

/-- A variable with a value. -/
theorem varDecl_some_widens (mode : Mode) (type? : Option TypeExpr)
    (hvalue : Widens scarce value value') :
    Widens scarce (ctx.varDecl name nameSpan mode type? (some (valueSpan, value)) span)
      ((ctx.allowing l).varDecl name nameSpan mode type? (some (valueSpan, value')) span) := by
  unfold varDecl
  simp only [Option.isNone_some, Bool.false_and, Bool.false_eq_true, if_false]
  cases type? with
  | none => exact .transaction (inferredVariable_widens mode hvalue)
  | some t =>
    refine .scope_bind fun scope => .ofExcept_bind (scope.neverNests_resolveValue t) fun type => ?_
    refine .transaction ?_
    split
    · exact recursiveVariable_widens _ hvalue
    · exact initialisedVariable_widens _ hvalue

/-! ## Functions -/

theorem fnDecl_widens (parameters : List Parameter) (result? : Option TypeExpr)
    (hbody : ctx.WidensBody scarce l body) :
    Widens scarce (ctx.fnDecl name nameSpan parameters result? bodySpan body span)
      ((ctx.allowing l).fnDecl name nameSpan parameters result? bodySpan body span) := by
  refine .transaction <| .bind (functionHead_widens parameters result?) fun head => ?_
  refine .bind (.modifyGet _) fun id => .get_bind fun s => ?_
  split
  · exact .fail (ctx.isNesting_alreadyDefined name) nameSpan
  · refine .bind (.modifyGet _) fun _ => ?_
    exact .bind (.undoing _ (functionBody_widens head (some name) hbody)) fun stmts => .pure _

theorem finishReturn_widens (f : FnType) (value? : Option TypedExpr) :
    Widens scarce (finishReturn f span value?) (finishReturn f span value?) := by
  unfold finishReturn
  dsimp only
  split
  · exact .bind (.modifyGet _) fun _ => .pure _
  · exact .fail rfl _

theorem ret_none_widens : Widens scarce (ctx.ret none span) ((ctx.allowing l).ret none span) := by
  have hfunction : (ctx.allowing l).function? = ctx.function? := rfl
  rw [ret_eq, ret_eq, hfunction]
  cases ctx.function? with
  | none => exact .fail rfl span
  | some f => exact finishReturn_widens f none

theorem ret_some_widens (hvalue : Widens scarce value value') :
    Widens scarce (ctx.ret (some value) span) ((ctx.allowing l).ret (some value') span) := by
  have hfunction : (ctx.allowing l).function? = ctx.function? := rfl
  rw [ret_eq, ret_eq, hfunction]
  cases ctx.function? with
  | none => exact .fail rfl span
  | some f => exact (hvalue.map some).bind fun value? => finishReturn_widens f value?

/-! ## Classes -/

theorem classParameter_widens (c : ClassRef) (p : Parameter) :
    Widens scarce (ctx.classParameter c p) ((ctx.allowing l).classParameter c p) := by
  unfold classParameter
  exact .bind (declareParameter_widens p) fun (id, type) => .bind (.modifyGet _) fun _ => .pure id

theorem expectNoParameter_widens (parameters : List Parameter) (member : Stmt) :
    Widens scarce (ctx.expectNoParameter parameters member)
      ((ctx.allowing l).expectNoParameter parameters member) := by
  unfold expectNoParameter
  split
  · split
    · exact .fail (ctx.isNesting_alreadyDefined _) _
    · exact .pure ()
  · exact .pure ()

theorem enterMember_widens (c : ClassRef) (member : Stmt) (typed : TypedStmt) :
    Widens scarce (ctx.enterMember c member typed)
      ((ctx.allowing l).enterMember c member typed) := by
  unfold enterMember
  split
  · refine .scope_bind fun scope => ?_
    split
    · exact .modifyGet _
    · exact .pure ()
  · exact .modifyGet _
  · exact .pure ()

theorem classDecl_widens {members : ClassRef → Context → Check (List TypedStmt)}
    (parameters : List Parameter) (hmembers : ∀ c, ctx.WidensBody scarce l (members c)) :
    Widens scarce (ctx.classDecl name nameSpan parameters members span)
      ((ctx.allowing l).classDecl name nameSpan parameters members span) := by
  rw [classDecl_eq, classDecl_eq]
  refine .scope_bind fun scope => ?_
  split
  · exact .fail rfl nameSpan
  · refine .bind (.modifyGet _) fun c => ?_
    refine .bind (.apart (.transaction (.inNewFrame fun outer function? className? => ?_)))
      fun ((ids, members), _) => .pure _
    refine .bind (.mapM (fun p => classParameter_widens c p) parameters) fun ids => ?_
    exact .bind (.inNewFrame (hmembers c)) fun members => .pure _

end Context

end Nominal
