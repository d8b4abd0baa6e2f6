import Nominal.Proofs.Typing.Closed
import Nominal.Proofs.Typing.Records

/-!
# Checked trees and their numbers

Checking a tree records the batches of names that stand in it, and the typed tree introduces exactly
the numbers that were handed out meanwhile. The rules come first, each on the assumption that its
parts do so; `Expr.check_records` and `Stmt.check_records` put them together along the tree.
-/

namespace Nominal

namespace Check

/-- A check of an expression that introduces the numbers handed out for it. -/
abbrev RecordsExpr (c : Check TypedExpr) (batches : List (List String)) : Prop :=
  c.Records batches fun e l => e.introduced.Perm l

abbrev RecordsExprs (c : Check (List TypedExpr)) (batches : List (List String)) : Prop :=
  c.Records batches fun es l => (TypedExpr.allIntroduced es).Perm l

abbrev RecordsTarget (c : Check (Target × Slot Ty)) (batches : List (List String)) : Prop :=
  c.Records batches fun target l => target.1.introduced.Perm l

/-- A check of a statement that introduces the numbers handed out for it. -/
abbrev RecordsStmt (c : Check TypedStmt) (batches : List (List String)) : Prop :=
  c.Records batches fun s l => s.introduced.Perm l

/-- A check of a declaration, which is entered as a whole. -/
abbrev RecordsDeclaration (c : Check TypedStmt) (batch : List String) : Prop :=
  c.RecordsWhole batch fun s l => s.introduced.Perm l

abbrev RecordsStmts (c : Check (List TypedStmt)) (batches : List (List String)) : Prop :=
  c.Records batches fun stmts l => (TypedStmt.allIntroduced stmts).Perm l

end Check

/-- Arguments that are recorded in both ways of checking them. -/
structure Arguments.Record (arguments : Arguments) (batches : List (List String)) : Prop where
  each : arguments.each.RecordsExprs batches
  into : ∀ slots, slots.length = arguments.count → (arguments.into slots).RecordsExprs batches

theorem expectAssignable_records (value : TypedExpr) (target : Slot Ty) (span : Span) :
    (expectAssignable value target span).Records [] fun _ l => l = [] := by
  unfold expectAssignable
  split
  · exact .pure rfl
  · exact .fail _ _

/-- Followed by the demand that the value flows into a slot, which enters nothing. -/
theorem Check.Records.expect_bind {β : Type} {value : TypedExpr} {slot : Slot Ty} {span : Span}
    {batches : List (List String)} {ids : β → List DeclId → Prop} {f : Unit → Check β}
    (hf : (f ()).Records batches ids) :
    (expectAssignable value slot span >>= f).Records batches ids :=
  .nil_bind (expectAssignable_records value slot span) fun _ => hf

namespace Context

open Check

/-! ## Rules for expressions -/

section

variable {ctx : Context} {span : Span} {owner left right callee : Check TypedExpr}
  {first second : List (List String)}

theorem symbol_records (name : String) : (ctx.symbol name span).RecordsExpr [] := by
  unfold symbol
  refine .scope_bind fun scope => ?_
  split
  · exact .pure (.refl _)
  · split
    · exact .pure (.refl _)
    · exact .fail _ _

theorem member_records (name : String) (nameSpan : Span) (howner : owner.RecordsExpr first) :
    (member owner name nameSpan span).RecordsExpr first := by
  unfold member
  refine howner.bind_nil fun o l hl => .get_bind fun s => ?_
  dsimp only
  split
  · exact .pure hl
  · split
    · exact .pure hl
    · exact .fail _ _

theorem variableTarget_records (name : String) :
    (ctx.variableTarget name span).RecordsTarget [] := by
  unfold variableTarget
  refine .scope_bind fun scope => ?_
  split
  · split
    · exact .pure (.refl _)
    · exact .fail _ _
  · split
    · exact .fail _ _
    · exact .fail _ _

theorem memberTarget_records (name : String) (nameSpan : Span) (howner : owner.RecordsExpr first) :
    (memberTarget owner name nameSpan).RecordsTarget first := by
  unfold memberTarget
  refine howner.bind_nil fun o l hl => .get_bind fun s => ?_
  dsimp only
  split
  · split
    · exact .pure hl
    · exact .fail _ _
  · split
    · exact .fail _ _
    · exact .fail _ _

theorem assign_records {target : Check (Target × Slot Ty)} {value : Check TypedExpr}
    (valueSpan : Span) (htarget : target.RecordsTarget first)
    (hvalue : value.RecordsExpr second) :
    (assign target value valueSpan span).RecordsExpr (first ++ second) := by
  unfold assign
  refine htarget.bind fun (target, slot) l hl => ?_
  refine hvalue.bind_nil fun value l' hl' => .expect_bind (.pure ?_)
  exact hl.append hl'

theorem operatorFunction_records (operator : Token) (methods : List Overload)
    (operands : List TypedExpr) (owner : TypedExpr) {l : List DeclId}
    (hl : (TypedExpr.allIntroduced operands).Perm l) :
    (ctx.operatorFunction operator methods operands owner span).Records [] fun e _ =>
      e.introduced.Perm l := by
  unfold operatorFunction
  refine .scope_bind fun scope => ?_
  dsimp only
  split
  · exact .pure hl
  · split
    · exact .fail _ _
    · exact .fail _ _

theorem binary_records (operator : Token) (hleft : left.RecordsExpr first)
    (hright : right.RecordsExpr second) :
    (ctx.binary operator left right span).RecordsExpr (first ++ second) := by
  unfold binary
  refine hleft.bind fun left l hl => hright.bind_nil fun right l' hl' => .get_bind fun s => ?_
  dsimp only
  split
  · exact .pure (hl.append hl')
  · -- the operator is a function of both operands, or there is none
    refine operatorFunction_records _ _ _ _ ?_
    simpa [TypedExpr.allIntroduced] using hl.append hl'

theorem unary_records (operator : Token) (hright : right.RecordsExpr first) :
    (ctx.unary operator right span).RecordsExpr first := by
  unfold unary
  refine hright.bind_nil fun operand l hl => .get_bind fun s => ?_
  dsimp only
  split
  · exact .pure hl
  · refine operatorFunction_records _ _ _ _ ?_
    simpa [TypedExpr.allIntroduced] using hl

theorem callValue_records {callee : TypedExpr} (name : String) {arguments : Arguments}
    (harguments : arguments.Record second) {l : List DeclId} (hl : callee.introduced.Perm l) :
    (callValue callee name arguments span).Records second fun e l' =>
      e.introduced.Perm (l ++ l') := by
  unfold callValue
  split
  · exact .fail _ _
  · split
    · next hcount =>
      refine (harguments.into _ hcount).bind_nil fun typed l' hl' => .pure ?_
      exact hl.append hl'
    · exact .fail _ _

theorem callOverload_records (overloads : List Overload) (name : String) (nameSpan : Span)
    {arguments : Arguments} (harguments : arguments.Record first) :
    (ctx.callOverload overloads name nameSpan arguments span).RecordsExpr first := by
  unfold callOverload
  split
  · exact .fail _ _
  · refine harguments.each.bind_nil fun typed l hl => ?_
    split
    · exact .pure hl
    · exact .throw _

theorem callSymbol_records (name : String) (nameSpan : Span) {arguments : Arguments}
    (harguments : arguments.Record first) :
    (ctx.callSymbol name nameSpan arguments span).RecordsExpr first := by
  unfold callSymbol
  refine .scope_bind fun scope => ?_
  split
  · -- the callee is a reference, which declares nothing
    refine callValue_records (l := []) name harguments ?_
    exact .refl []
  · exact callOverload_records _ name nameSpan harguments

theorem callMember_records (name : String) (nameSpan calleeSpan : Span) {arguments : Arguments}
    (howner : owner.RecordsExpr first) (harguments : arguments.Record second) :
    (callMember owner name nameSpan calleeSpan arguments span).RecordsExpr (first ++ second) := by
  unfold callMember
  refine howner.bind fun receiver l hl => .get_bind fun s => ?_
  dsimp only
  split
  · exact callValue_records name harguments hl
  · split
    · exact .fail _ _
    · refine harguments.each.bind_nil fun typed l' hl' => ?_
      split
      · exact .pure (hl.append hl')
      · exact .throw _

theorem instantiate_records (name : String) {arguments : Arguments}
    (harguments : arguments.Record first) :
    (ctx.instantiate name arguments span).RecordsExpr first := by
  unfold instantiate
  refine .scope_bind fun scope => ?_
  split
  · exact .fail _ _
  · split
    · exact .fail _ _
    · refine .get_bind fun s => ?_
      dsimp only
      split
      · next hcount =>
        exact (harguments.into _ hcount).bind_nil fun typed l hl => .pure hl
      · exact .fail _ _

/-- The parameters of a function, before its body. -/
theorem head_batches (parameters : List Parameter) (batches : List (List String)) :
    ((parameters.map fun p => [p.name]) ++ batches).flatten =
      parameters.map Parameter.name ++ batches.flatten := by
  induction parameters with
  | nil => rfl
  | cons p rest ih => simp [ih]

theorem lambda_records (parameters : List Parameter) (result? : Option TypeExpr) (bodySpan : Span)
    {body : Context → Check (List TypedStmt)} (hbody : ∀ ctx, (body ctx).RecordsStmts first) :
    (ctx.lambda parameters result? bodySpan body span).RecordsExpr
      [parameters.map Parameter.name ++ first.flatten] := by
  unfold lambda
  refine RecordsWhole.records <| .transaction (.of_eq (head_batches parameters first)) ?_
  refine (ctx.functionHead_records parameters result?).bind fun head l hl => ?_
  refine (functionBody_records hbody).bind_nil fun stmts l' hl' => .pure ?_
  rw [hl]
  exact (List.Perm.refl _).append hl'

end

/-! ## Rules for statements -/

section

variable {ctx : Context} {name : String} {nameSpan valueSpan bodySpan span : Span} {type : Slot Ty}
  {mode : Mode} {value : Check TypedExpr} {body : Context → Check (List TypedStmt)}
  {batches : List (List String)}

theorem declareVariable_records (ctx : Context) (name : String) (type : Slot Ty) (span : Span) :
    (ctx.declareVariable name type span).Records [[name]] fun id l => l = [id] :=
  bind_records _ _ _ _

theorem typedVariable_records :
    (ctx.typedVariable name nameSpan type span).RecordsStmt [[name]] := by
  unfold typedVariable
  refine (ctx.declareVariable_records _ _ _).bind_nil fun id l hl => .pure ?_
  rw [hl]
  exact .refl _

theorem initialisedVariable_records (hvalue : value.RecordsExpr batches) :
    (ctx.initialisedVariable name nameSpan type value valueSpan span).RecordsStmt
      (batches ++ [[name]]) := by
  unfold initialisedVariable
  refine hvalue.bind fun initializer l hl => .expect_bind ?_
  refine (ctx.declareVariable_records _ _ _).bind_nil fun id l' hl' => .pure ?_
  -- the variable is numbered after what its value declares
  rw [hl']
  exact (hl.cons id).trans (List.perm_append_singleton id l).symm

theorem valueInto_records (hvalue : value.RecordsExpr batches) :
    (valueInto value type valueSpan).RecordsExpr batches := by
  unfold valueInto
  exact hvalue.bind_nil fun _ _ hl => .expect_bind (.pure hl)

theorem recursiveVariable_records (hvalue : value.RecordsExpr batches) :
    (ctx.recursiveVariable name nameSpan type value valueSpan span).RecordsStmt
      ([[name]] ++ batches) := by
  rw [recursiveVariable_eq]
  refine (ctx.declareVariable_records _ _ _).bind fun id l hl => ?_
  refine (valueInto_records hvalue).undoing.bind_nil fun initializer l' hl' => .pure ?_
  -- here the variable is numbered first
  rw [hl]
  exact hl'.cons id

theorem inferredVariable_records (hvalue : value.RecordsExpr batches) :
    (ctx.inferredVariable name nameSpan mode value valueSpan span).RecordsStmt
      (batches ++ [[name]]) := by
  unfold inferredVariable
  refine hvalue.bind fun initializer l hl => ?_
  split
  · refine .expect_bind ?_
    refine (ctx.declareVariable_records _ _ _).bind_nil fun id l' hl' => .pure ?_
    rw [hl']
    exact (hl.cons id).trans (List.perm_append_singleton id l).symm
  · exact .fail _ _

/-- The name of a variable may be entered before or after what its value declares. -/
theorem variable_batch (name : String) (batches : List (List String)) :
    (batches ++ [[name]]).flatten.Perm (name :: batches.flatten) := by
  rw [List.flatten_append]
  exact List.perm_append_singleton name batches.flatten

theorem varDecl_none_records (type? : Option TypeExpr) :
    (ctx.varDecl name nameSpan mode type? none span).RecordsDeclaration [name] := by
  unfold varDecl
  split
  · exact .fail _ _
  · split
    · refine .scope_bind fun scope => .ofExcept_bind fun declared => ?_
      exact .transaction (.refl _) typedVariable_records
    · exact .transaction (.refl [[name]].flatten) (.fail _ _)

theorem varDecl_some_records (type? : Option TypeExpr) (hvalue : value.RecordsExpr batches) :
    (ctx.varDecl name nameSpan mode type? (some (valueSpan, value)) span).RecordsDeclaration
      (name :: batches.flatten) := by
  unfold varDecl
  split
  · exact .fail _ _
  · split
    · refine .scope_bind fun scope => .ofExcept_bind fun declared => ?_
      dsimp only
      split
      · exact .transaction (.refl _) (recursiveVariable_records hvalue)
      · exact .transaction (variable_batch _ _) (initialisedVariable_records hvalue)
    · exact .transaction (variable_batch _ _) (inferredVariable_records hvalue)

theorem fnDecl_records (parameters : List Parameter) (result? : Option TypeExpr)
    (hbody : ∀ ctx, (body ctx).RecordsStmts batches) :
    (ctx.fnDecl name nameSpan parameters result? bodySpan body span).RecordsDeclaration
      (name :: parameters.map Parameter.name ++ batches.flatten) := by
  unfold fnDecl
  have hbatch : ((parameters.map fun p => [p.name]) ++ ([[name]] ++ batches)).flatten.Perm
      (name :: parameters.map Parameter.name ++ batches.flatten) := by
    rw [head_batches]
    exact List.perm_middle
  refine .transaction hbatch ?_
  refine (ctx.functionHead_records parameters result?).bind fun head l hl => ?_
  refine (Records.insertDeclaration _ _).bind fun id l' hl' => .get_bind fun s => ?_
  split
  · exact .fail _ _
  · refine .nil_bind (.setFrame _) fun _ => ?_
    refine (Records.undoing (functionBody_records hbody)).bind_nil fun stmts l'' hl'' => .pure ?_
    -- the parameters are numbered before the function
    rw [hl, hl']
    exact List.perm_middle.symm.trans ((List.Perm.refl _).append (hl''.cons id))

theorem finishReturn_records (f : FnType) {v? : Option TypedExpr} {l : List DeclId}
    (hl : (TypedStmtForm.ret v?).introduced.Perm l) :
    (finishReturn f span v?).Records [] fun s _ => s.introduced.Perm l := by
  unfold finishReturn
  dsimp only
  split
  · exact .nil_bind (.modify fun _ => rfl) fun _ => .pure hl
  · exact .fail _ _

theorem ret_none_records : (ctx.ret none span).RecordsStmt [] := by
  rw [ret_eq]
  split
  · exact .fail _ _
  · next h => cases h
  · next f _ _ =>
    have hnone : (TypedStmtForm.ret none).introduced.Perm [] := .refl []
    refine (finishReturn_records f hnone).ids_nil.mono ?_
    rintro s l ⟨rfl, h⟩
    exact h

theorem ret_some_records (hvalue : value.RecordsExpr batches) :
    (ctx.ret (some value) span).RecordsStmt batches := by
  rw [ret_eq]
  split
  · exact .fail _ _
  · next f v _ h =>
    cases h
    have hsome : (some <$> value).Records batches fun v? l =>
        (TypedStmtForm.ret v?).introduced.Perm l :=
      hvalue.map fun v l hl => hl
    exact hsome.bind_nil fun v? l hl => finishReturn_records f hl
  · next h => cases h

/-! ## Classes -/

theorem classParameter_records (c : ClassRef) (p : Parameter) :
    (ctx.classParameter c p).Records [[p.name]] fun id l => l = [id] := by
  unfold classParameter
  refine (ctx.declareParameter_records p).bind_nil fun (id, type) l hl => ?_
  exact .nil_bind (.updateClass _ _) fun _ => .pure hl

theorem expectNoParameter_records (parameters : List Parameter) (member : Stmt) :
    (ctx.expectNoParameter parameters member).Records [] fun _ l => l = [] := by
  unfold expectNoParameter
  split
  · split
    · exact .fail _ _
    · exact .pure rfl
  · exact .pure rfl

theorem enterMember_records (c : ClassRef) (member : Stmt) (typed : TypedStmt) :
    (ctx.enterMember c member typed).Records [] fun _ l => l = [] := by
  unfold enterMember
  split
  · refine .scope_bind fun scope => ?_
    split
    · exact .updateClass _ _
    · exact .pure rfl
  · exact .updateClass _ _
  · exact .pure rfl

theorem classBody_records (ctx : Context) (c : ClassRef) (parameters : List Parameter)
    {members : Context → Check (List TypedStmt)}
    (hmembers : ∀ ctx, (members ctx).RecordsStmts batches) :
    (ctx.classBody c parameters members).Records ((parameters.map fun p => [p.name]) ++ batches)
      fun result l => (result.1 ++ TypedStmt.allIntroduced result.2).Perm l := by
  unfold classBody
  refine .inFrame fun ctx => ?_
  refine (mapM_records (ctx.classParameter_records c) parameters).bind fun ids l hl => ?_
  refine (Records.inFrame hmembers).bind_nil fun stmts l' hl' => .pure ?_
  rw [hl, List.map_id_fun']
  exact (List.Perm.refl ids).append hl'

/-- The name of a class has no number. -/
theorem declareClass_bind_records {β : Type} {f : ClassRef → Check β} {batch : List String}
    {ids : β → List DeclId → Prop} (hf : ∀ c, (f c).RecordsWhole batch ids) :
    (declareClass name >>= f).RecordsWhole batch ids :=
  fun s => hf (s.classes.declare name).1 { s with
    classes := (s.classes.declare name).2
    frame := (s.frame.declareType name (.cls (s.classes.declare name).1)).getD s.frame }

theorem classDecl_records (parameters : List Parameter)
    {members : ClassRef → Context → Check (List TypedStmt)}
    (hmembers : ∀ c ctx, (members c ctx).RecordsStmts batches) :
    (ctx.classDecl name nameSpan parameters members span).RecordsDeclaration
      (parameters.map Parameter.name ++ batches.flatten) := by
  rw [classDecl_eq]
  refine .scope_bind fun scope => ?_
  split
  · exact .fail _ _
  · refine declareClass_bind_records fun c => ?_
    have hbody := classBody_records { ctx with function? := none, className? := some name } c
      parameters (hmembers c)
    have hbatch := head_batches parameters batches
    exact (RecordsWhole.transaction (.of_eq hbatch) hbody).apart.map
      fun ((ids, stmts), returned) l hl => hl

end

end Context

/-! ## Along the tree -/

open Check Context

section

variable {e : Expr}
  (howner : e.form.OwnerHas fun owner => ∀ ctx, (owner.check ctx).RecordsExpr owner.batches)
include howner

theorem checkTarget_records {ctx : Context} : (e.checkTarget ctx).RecordsTarget e.batches := by
  obtain ⟨form, span⟩ := e
  cases form with
  | symbol name => exact variableTarget_records name
  | member owner name nameSpan => exact memberTarget_records name nameSpan (howner ctx)
  | _ => exact .fail _ _

theorem checkCall_records (he : ∀ ctx, (e.check ctx).RecordsExpr e.batches) {arguments : Arguments}
    {batches : List (List String)} (harguments : arguments.Record batches) {span : Span}
    {ctx : Context} :
    (e.checkCall arguments span ctx).RecordsExpr (e.batches ++ batches) := by
  obtain ⟨form, calleeSpan⟩ := e
  cases form with
  | symbol name => exact callSymbol_records name calleeSpan harguments
  | member owner name nameSpan =>
    exact callMember_records name nameSpan calleeSpan (howner ctx) harguments
  | _ => exact (he ctx).bind fun callee l hl => callValue_records _ harguments hl

end

mutual

/-- Checking an expression records its batches. -/
theorem Expr.check_records : ∀ (e : Expr) (ctx : Context), (e.check ctx).RecordsExpr e.batches
  | ⟨form, span⟩, ctx => form.check_records span ctx

theorem ExprForm.check_records : ∀ (form : ExprForm) (span : Span) (ctx : Context),
    (form.check span ctx).RecordsExpr form.batches
  | .number _, _, _ => .pure (.refl _)
  | .text _, _, _ => .pure (.refl _)
  | .bool _, _, _ => .pure (.refl _)
  | .symbol name, _, _ => symbol_records name
  | .member owner name nameSpan, _, ctx => member_records name nameSpan (owner.check_records ctx)
  | .assign target value, _, _ =>
    assign_records _ (checkTarget_records target.owner_records) (.nested value.check_records)
  | .binary left operator right, _, ctx =>
    binary_records operator (left.check_records ctx) (.nested right.check_records)
  | .unary operator operand, _, _ => unary_records operator (.nested operand.check_records)
  | .call callee arguments, _, ctx =>
    checkCall_records callee.owner_records callee.check_records
      ⟨Expr.checkEach_records arguments ctx, Expr.checkInto_records arguments ctx⟩
  | .new className arguments, _, ctx =>
    instantiate_records className
      ⟨Expr.checkEach_records arguments ctx, Expr.checkInto_records arguments ctx⟩
  | .lambda ⟨parameters, result?, ⟨body, bodySpan⟩⟩, _, _ =>
    lambda_records parameters result? bodySpan (Stmt.checkAll_records body)
  | .group inner, _, _ => .nested inner.check_records

theorem Expr.owner_records : ∀ e : Expr,
    e.form.OwnerHas fun owner => ∀ ctx, (owner.check ctx).RecordsExpr owner.batches
  | ⟨.member owner _ _, _⟩ => owner.check_records
  | ⟨.number _, _⟩ | ⟨.text _, _⟩ | ⟨.bool _, _⟩ | ⟨.symbol _, _⟩ | ⟨.assign _ _, _⟩
  | ⟨.binary _ _ _, _⟩ | ⟨.unary _ _, _⟩ | ⟨.call _ _, _⟩ | ⟨.new _ _, _⟩ | ⟨.lambda _, _⟩
  | ⟨.group _, _⟩ => trivial

theorem Expr.checkEach_records : ∀ (es : List Expr) (ctx : Context),
    (Expr.checkEach es ctx).RecordsExprs (Expr.allBatches es)
  | [], _ => .pure (.refl _)
  | e :: rest, ctx =>
    (Records.nested e.check_records).bind fun _ _ hl =>
      (Expr.checkEach_records rest ctx).bind_nil fun _ _ hl' => .pure (hl.append hl')

theorem Expr.checkInto_records : ∀ (es : List Expr) (ctx : Context) (slots : List (Slot Ty)),
    slots.length = es.length → (Expr.checkInto es ctx slots).RecordsExprs (Expr.allBatches es)
  | [], _, [], _ => .pure (.refl _)
  | e :: rest, ctx, _ :: slots, hlength =>
    (Records.nested e.check_records).bind fun _ _ hl => .expect_bind <|
      (Expr.checkInto_records rest ctx slots (Nat.succ.inj hlength)).bind_nil fun _ _ hl' =>
        .pure (hl.append hl')

/-- Checking a statement records its batches. -/
theorem Stmt.check_records : ∀ (s : Stmt) (ctx : Context), (s.check ctx).RecordsStmt s.batches
  | ⟨form, span⟩, ctx => form.check_records span ctx

theorem StmtForm.check_records : ∀ (form : StmtForm) (span : Span) (ctx : Context),
    (form.check span ctx).RecordsStmt form.batches
  | .expression e, _, _ => (Records.nested e.check_records).bind_nil fun _ _ hl => .pure hl
  | .varDecl _ _ _ type? (some value), _, _ =>
    (varDecl_some_records type? (.nested value.check_records)).records
  | .varDecl _ _ _ type? none, _, _ => (varDecl_none_records type?).records
  | .classDecl _ _ parameters members, _, _ =>
    (classDecl_records parameters (Stmt.checkMembers_records members parameters)).records
  | .fnDecl _ _ ⟨parameters, result?, ⟨body, _⟩⟩, _, _ =>
    (fnDecl_records parameters result? (Stmt.checkAll_records body)).records
  | .ret (some value), _, _ => ret_some_records (.nested value.check_records)
  | .ret none, _, _ => ret_none_records
  | .block ⟨body, _⟩, _, _ =>
    (Records.inFrame (Stmt.checkAll_records body)).bind_nil fun _ _ hl => .pure hl
  | .branch condition thenBody (some elseBody), _, _ =>
    (Records.nested condition.check_records).bind fun _ _ hl =>
      (Records.inFrame fun _ => .nested thenBody.check_records).bind fun _ _ hl' =>
        (Records.inFrame fun _ => .nested elseBody.check_records).bind_nil fun _ _ hl'' =>
          .pure (hl.append (hl'.append hl''))
  | .branch condition thenBody none, _, _ =>
    (Records.nested condition.check_records).bind fun _ _ hl =>
      (Records.inFrame fun _ => .nested thenBody.check_records).bind_nil fun _ _ hl' =>
        .pure (hl.append hl')
  | .loop condition body, _, _ =>
    (Records.nested condition.check_records).bind fun _ _ hl =>
      (Records.inFrame fun _ => .nested body.check_records).bind_nil fun _ _ hl' =>
        .pure (hl.append hl')
  | .print value, _, _ => (Records.nested value.check_records).bind_nil fun _ _ hl => .pure hl

theorem Stmt.checkAll_records : ∀ (stmts : List Stmt) (ctx : Context),
    (Stmt.checkAll stmts ctx).RecordsStmts (Stmt.allBatches stmts)
  | [], _ => .pure (.refl _)
  | s :: rest, ctx =>
    (Records.nested s.check_records).bind fun _ _ hl =>
      (Stmt.checkAll_records rest ctx).bind_nil fun _ _ hl' => .pure (hl.append hl')

theorem Stmt.checkMembers_records : ∀ (members : List Stmt) (parameters : List Parameter)
    (c : ClassRef) (ctx : Context),
    (Stmt.checkMembers members parameters c ctx).RecordsStmts (Stmt.allBatches members)
  | [], _, _, _ => .pure (.refl _)
  | s :: rest, parameters, c, ctx =>
    .nil_bind (expectNoParameter_records parameters s) fun _ =>
      (Records.nested s.check_records).bind fun typed _ hl =>
        .nil_bind (enterMember_records c s typed) fun _ =>
          (Stmt.checkMembers_records rest parameters c ctx).bind_nil fun _ _ hl' =>
            .pure (hl.append hl')

end

end Nominal
