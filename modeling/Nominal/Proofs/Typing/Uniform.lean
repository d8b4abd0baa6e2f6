import Nominal.Proofs.Typing.Closed
import Nominal.Proofs.Typing.Parts

/-!
# Properties that all checks have

A property of checks that every rule hands on from the parts to the whole (`Check.Uniform`) is a
property of every check of a tree (`Expr.check_uniform`, `Stmt.check_uniform`). Most rules are put
together from a few basic steps, so a property that these steps respect (`Check.Stepwise`) is handed
on by all rules but the one for classes, which changes what is known of a class and is left to the
property (`Check.Stepwise.uniform`).
-/

namespace Nominal

/-- The rules hand the property `P` on from the parts to the whole. -/
structure Check.Uniform (P : (α : Type) → Check α → Prop) : Prop extends Closed P where
  inNewFrame : ∀ {α : Type} {ctx : Context} {body : Context → Check α},
    (∀ ctx, P _ (body ctx)) → P _ (ctx.inNewFrame body)
  lambda : ∀ {ctx : Context} {body : Context → Check (List TypedStmt)} (parameters : List Parameter)
    (result? : Option TypeExpr) (bodySpan span : Span),
    (∀ ctx, P _ (body ctx)) → P _ (ctx.lambda parameters result? bodySpan body span)
  varDecl : ∀ {ctx : Context} {value? : Option (Span × Check TypedExpr)} (name : String)
    (nameSpan : Span) (mode : Mode) (type? : Option TypeExpr) (span : Span),
    (∀ value ∈ value?, P _ value.2) → P _ (ctx.varDecl name nameSpan mode type? value? span)
  fnDecl : ∀ {ctx : Context} {body : Context → Check (List TypedStmt)} (name : String)
    (nameSpan : Span) (parameters : List Parameter) (result? : Option TypeExpr)
    (bodySpan span : Span),
    (∀ ctx, P _ (body ctx)) → P _ (ctx.fnDecl name nameSpan parameters result? bodySpan body span)
  ret : ∀ {ctx : Context} {value? : Option (Check TypedExpr)} (span : Span),
    (∀ value ∈ value?, P _ value) → P _ (ctx.ret value? span)
  classDecl : ∀ {ctx : Context} {members : List Stmt} (name : String) (nameSpan : Span)
    (parameters : List Parameter) (span : Span),
    (∀ member ∈ members, ∀ ctx, P _ (member.check ctx)) →
      P _ (ctx.classDecl name nameSpan parameters (Stmt.checkMembers members parameters) span)

/-- The basic steps respect the property `P`, except for those that change the classes. -/
structure Check.Stepwise (P : (α : Type) → Check α → Prop) : Prop extends Closed P where
  insertDeclaration : ∀ (name : String) (type : Slot Ty), P _ (insertDeclaration name type)
  setFrame : ∀ frame : Frame, P _ (setFrame frame)
  setReturned : P Unit (modify fun s => { s with returned := true })
  transaction : ∀ {α : Type} {c : Check α}, P _ c → P _ c.transaction
  undoing : ∀ {α : Type} {c : Check α} (undo : Frame → Frame), P _ c → P _ (c.undoing undo)
  apart : ∀ {α : Type} {c : Check α}, P _ c → P _ c.apart
  inFrame : ∀ {α : Type} {ctx : Context} {body : Context → Check α} (frame : Frame),
    (∀ ctx, P _ (body ctx)) → P _ (ctx.inFrame frame body)

variable {P : (α : Type) → Check α → Prop}

namespace Check

namespace Closed

variable (hP : Closed P) {α β : Type}
include hP

theorem ofExcept_bind {e : Except Diagnostic α} {f : α → Check β} (hf : ∀ a, P _ (f a)) :
    P _ (Check.ofExcept e >>= f) := by
  cases e with
  | ok a => exact hP.bind (hP.pure a) hf
  | error d => exact hP.bind (hP.throw d) hf

theorem map (f : α → β) {c : Check α} (hc : P _ c) : P _ (f <$> c) := by
  rw [map_eq_pure_bind]
  exact hP.bind hc fun a => hP.pure (f a)

theorem mapM {f : α → Check β} (h : ∀ a, P _ (f a)) (as : List α) : P _ (as.mapM f) := by
  induction as with
  | nil => exact hP.pure []
  | cons a rest ih =>
    rw [List.mapM_cons]
    exact hP.bind (h a) fun b => hP.bind ih fun bs => hP.pure (b :: bs)

theorem expect_bind {value : TypedExpr} {slot : Slot Ty} {span : Span} {f : Unit → Check β}
    (hf : ∀ a, P _ (f a)) : P _ (expectAssignable value slot span >>= f) :=
  hP.bind (expectAssignable_closed hP value slot span) hf

end Closed

/-! ## Rules put together from basic steps -/

namespace Stepwise

open Context

variable (hP : Stepwise P) {ctx : Context} {name : String} {nameSpan valueSpan bodySpan span : Span}
  {value : Check TypedExpr} {body : Context → Check (List TypedStmt)}
include hP

theorem bind_step (type : Slot Ty) (refused : Cause) :
    P _ (Context.bind name type refused span) := by
  unfold Context.bind
  refine hP.bind (hP.insertDeclaration name type) fun id => ?_
  refine hP.get_bind (fun s t hframe _ => by simp only [hframe]) fun s => ?_
  split
  · exact hP.bind (hP.setFrame _) fun _ => hP.pure id
  · exact hP.fail _ _

theorem declareVariable (type : Slot Ty) : P _ (ctx.declareVariable name type span) :=
  hP.bind_step type _

theorem declareParameter (p : Parameter) : P _ (ctx.declareParameter p) := by
  unfold Context.declareParameter
  refine hP.scope_bind fun scope => hP.ofExcept_bind fun type => ?_
  exact hP.bind (hP.bind_step _ _) fun id => hP.pure _

theorem parameterHead (parameters : List Parameter) (result : Ty) :
    P _ (ctx.parameterHead parameters result) := by
  unfold Context.parameterHead
  refine hP.inFrame _ fun ctx => ?_
  refine hP.bind (hP.mapM (fun p => hP.declareParameter p) parameters) fun declared => ?_
  exact hP.get_bind (fun s t hframe _ => by simp only [hframe]) fun s => hP.pure _

theorem functionHead (parameters : List Parameter) (result? : Option TypeExpr) :
    P _ (ctx.functionHead parameters result?) := by
  rw [functionHead_eq]
  cases result? with
  | none => exact hP.parameterHead parameters .nothing
  | some t =>
    exact hP.scope_bind fun scope => hP.ofExcept_bind fun result =>
      hP.parameterHead parameters result

theorem functionBody (head : FunctionHead) (name? : Option String)
    (hbody : ∀ ctx, P _ (body ctx)) : P _ (ctx.functionBody head name? bodySpan body) := by
  unfold Context.functionBody
  refine hP.bind (hP.apart (hP.inFrame _ hbody)) fun (stmts, returned) => ?_
  dsimp only
  split
  · exact hP.pure stmts
  · exact hP.fail _ _

theorem lambda (parameters : List Parameter) (result? : Option TypeExpr)
    (hbody : ∀ ctx, P _ (body ctx)) : P _ (ctx.lambda parameters result? bodySpan body span) := by
  unfold Context.lambda
  refine hP.transaction <| hP.bind (hP.functionHead parameters result?) fun head => ?_
  exact hP.bind (hP.functionBody head none hbody) fun stmts => hP.pure _

theorem fnDecl (parameters : List Parameter) (result? : Option TypeExpr)
    (hbody : ∀ ctx, P _ (body ctx)) :
    P _ (ctx.fnDecl name nameSpan parameters result? bodySpan body span) := by
  unfold Context.fnDecl
  refine hP.transaction <| hP.bind (hP.functionHead parameters result?) fun head => ?_
  refine hP.bind (hP.insertDeclaration _ _) fun id => ?_
  refine hP.get_bind (fun s t hframe _ => by simp only [hframe]) fun s => ?_
  split
  · exact hP.fail _ _
  · refine hP.bind (hP.setFrame _) fun _ => ?_
    exact hP.bind (hP.undoing _ (hP.functionBody head (some name) hbody)) fun stmts => hP.pure _

theorem recursiveVariable (type : Slot Ty) (hvalue : P _ value) :
    P _ (ctx.recursiveVariable name nameSpan type value valueSpan span) := by
  rw [recursiveVariable_eq]
  refine hP.bind (hP.declareVariable type) fun id => ?_
  refine hP.bind (hP.undoing _ ?_) fun initializer => hP.pure _
  exact hP.bind hvalue fun v => hP.expect_bind fun _ => hP.pure v

theorem initialisedVariable (type : Slot Ty) (hvalue : P _ value) :
    P _ (ctx.initialisedVariable name nameSpan type value valueSpan span) := by
  unfold Context.initialisedVariable
  refine hP.bind hvalue fun v => hP.expect_bind fun _ => ?_
  exact hP.bind (hP.declareVariable type) fun id => hP.pure _

theorem inferredVariable (mode : Mode) (hvalue : P _ value) :
    P _ (ctx.inferredVariable name nameSpan mode value valueSpan span) := by
  unfold Context.inferredVariable
  refine hP.bind hvalue fun v => ?_
  split
  · refine hP.expect_bind fun _ => ?_
    exact hP.bind (hP.declareVariable _) fun id => hP.pure _
  · exact hP.fail _ _

theorem varDecl (mode : Mode) (type? : Option TypeExpr)
    {value? : Option (Span × Check TypedExpr)} (hvalue : ∀ value ∈ value?, P _ value.2) :
    P _ (ctx.varDecl name nameSpan mode type? value? span) := by
  unfold Context.varDecl
  split
  · exact hP.fail _ _
  · split
    · refine hP.scope_bind fun scope => hP.ofExcept_bind fun declared => hP.transaction ?_
      split
      · exact hP.bind (hP.declareVariable _) fun id => hP.pure _
      · next valueSpan value =>
        split
        · exact hP.recursiveVariable _ (hvalue _ rfl)
        · exact hP.initialisedVariable _ (hvalue _ rfl)
    · refine hP.transaction ?_
      split
      · exact hP.fail _ _
      · exact hP.inferredVariable mode (hvalue _ rfl)

theorem ret {value? : Option (Check TypedExpr)} (hvalue : ∀ value ∈ value?, P _ value) :
    P _ (ctx.ret value? span) := by
  have hfinish (f : FnType) (v? : Option TypedExpr) : P _ (finishReturn f span v?) := by
    unfold finishReturn
    dsimp only
    split
    · exact hP.bind hP.setReturned fun _ => hP.pure _
    · exact hP.fail _ _
  rw [ret_eq]
  split
  · exact hP.fail _ _
  · next f value _ => exact hP.bind (hP.map some (hvalue value rfl)) (hfinish f)
  · next f _ => exact hfinish f none

theorem expectNoParameter (parameters : List Parameter) (member : Stmt) :
    P _ (ctx.expectNoParameter parameters member) := by
  unfold Context.expectNoParameter
  split
  · split
    · exact hP.fail _ _
    · exact hP.pure ()
  · exact hP.pure ()

theorem enterMember {c : ClassRef} (hupdate : ∀ f, P _ (updateClass c f)) (member : Stmt)
    (typed : TypedStmt) : P _ (ctx.enterMember c member typed) := by
  unfold Context.enterMember
  split
  · refine hP.scope_bind fun scope => ?_
    split
    · exact hupdate _
    · exact hP.pure ()
  · exact hupdate _
  · exact hP.pure ()

theorem checkMembers {c : ClassRef} (hupdate : ∀ f, P _ (updateClass c f))
    (parameters : List Parameter) {members : List Stmt}
    (hmembers : ∀ member ∈ members, ∀ ctx, P _ (member.check ctx)) :
    P _ (Stmt.checkMembers members parameters c ctx) := by
  induction members with
  | nil => exact hP.pure []
  | cons member rest ih =>
    obtain ⟨hmember, hrest⟩ := List.forall_mem_cons.1 hmembers
    refine hP.bind (hP.expectNoParameter parameters member) fun _ => ?_
    refine hP.bind (hP.nested hmember) fun typed => ?_
    refine hP.bind (hP.enterMember hupdate member typed) fun _ => ?_
    exact hP.bind (ih hrest) fun stmts => hP.pure _

/-- The body of a class that may be changed. -/
theorem classBody {c : ClassRef} (hupdate : ∀ f, P _ (updateClass c f)) (parameters : List Parameter)
    {members : List Stmt} (hmembers : ∀ member ∈ members, ∀ ctx, P _ (member.check ctx)) :
    P _ (ctx.classBody c parameters (Stmt.checkMembers members parameters c)) := by
  have hparameter (ctx : Context) (p : Parameter) : P _ (ctx.classParameter c p) := by
    unfold classParameter
    refine hP.bind (hP.declareParameter p) fun (id, type) => ?_
    exact hP.bind (hupdate _) fun _ => hP.pure id
  unfold Context.classBody
  refine hP.inFrame _ fun ctx => ?_
  refine hP.bind (hP.mapM (hparameter ctx) parameters) fun ids => ?_
  exact hP.bind (hP.inFrame _ fun ctx => hP.checkMembers hupdate parameters hmembers) fun stmts =>
    hP.pure _

/-- What is left to do for a class once its name is declared. -/
theorem classRest {c : ClassRef} (hupdate : ∀ f, P _ (updateClass c f)) (parameters : List Parameter)
    {members : List Stmt} (hmembers : ∀ member ∈ members, ∀ ctx, P _ (member.check ctx)) :
    P TypedStmt (do
      let body := ctx.classBody c parameters (Stmt.checkMembers members parameters c)
      let ((ids, members), _) ← body.transaction.apart
      return ⟨.classDecl c ids members, span⟩) :=
  hP.bind (hP.apart (hP.transaction (hP.classBody hupdate parameters hmembers)))
    fun ((_, _), _) => hP.pure _

/-- A property that the basic steps respect is handed on by all rules if the one for classes hands
it on. -/
theorem uniform (hclass : ∀ {ctx : Context} {members : List Stmt} (name : String) (nameSpan : Span)
    (parameters : List Parameter) (span : Span),
    (∀ member ∈ members, ∀ ctx, P _ (member.check ctx)) →
      P _ (ctx.classDecl name nameSpan parameters (Stmt.checkMembers members parameters) span)) :
    Uniform P where
  toClosed := hP.toClosed
  inNewFrame := hP.inFrame .empty
  lambda parameters result? _ _ := hP.lambda parameters result?
  varDecl _ _ mode type? _ := hP.varDecl mode type?
  fnDecl _ _ parameters result? _ _ := hP.fnDecl parameters result?
  ret _ := hP.ret
  classDecl := hclass

end Stepwise

end Check

/-! ## Along the tree -/

mutual

/-- What the rules hand on, all checks of expressions have. -/
theorem Expr.check_uniform (hP : Check.Uniform P) : ∀ (e : Expr) (ctx : Context),
    P _ (e.check ctx)
  | ⟨form, span⟩, ctx => form.check_uniform hP span ctx

theorem ExprForm.check_uniform (hP : Check.Uniform P) : ∀ (form : ExprForm) (span : Span)
    (ctx : Context), P _ (form.check span ctx)
  | .number _, _, _ => hP.pure _
  | .text _, _, _ => hP.pure _
  | .bool _, _, _ => hP.pure _
  | .symbol name, _, _ => Context.symbol_closed hP.toClosed name
  | .member owner name nameSpan, _, ctx =>
    Context.member_closed hP.toClosed name nameSpan (owner.check_uniform hP ctx)
  | .assign target value, _, _ =>
    Context.assign_closed hP.toClosed _ (checkTarget_closed hP.toClosed (target.owner_uniform hP))
      (hP.nested (value.check_uniform hP))
  | .binary left operator right, _, ctx =>
    Context.binary_closed hP.toClosed operator (left.check_uniform hP ctx)
      (hP.nested (right.check_uniform hP))
  | .unary operator operand, _, _ =>
    Context.unary_closed hP.toClosed operator (hP.nested (operand.check_uniform hP))
  | .call callee arguments, _, ctx =>
    checkCall_closed hP.toClosed (callee.owner_uniform hP) (callee.check_uniform hP)
      ⟨Expr.checkEach_uniform hP arguments ctx, Expr.checkInto_uniform hP arguments ctx⟩
  | .new className arguments, _, ctx =>
    Context.instantiate_closed hP.toClosed className
      ⟨Expr.checkEach_uniform hP arguments ctx, Expr.checkInto_uniform hP arguments ctx⟩
  | .lambda ⟨parameters, result?, ⟨body, bodySpan⟩⟩, span, _ =>
    hP.lambda parameters result? bodySpan span (Stmt.checkAll_uniform hP body)
  | .group inner, _, _ => hP.nested (inner.check_uniform hP)

theorem Expr.owner_uniform (hP : Check.Uniform P) : ∀ e : Expr,
    e.form.OwnerHas fun owner => ∀ ctx, P _ (owner.check ctx)
  | ⟨.member owner _ _, _⟩ => owner.check_uniform hP
  | ⟨.number _, _⟩ | ⟨.text _, _⟩ | ⟨.bool _, _⟩ | ⟨.symbol _, _⟩ | ⟨.assign _ _, _⟩
  | ⟨.binary _ _ _, _⟩ | ⟨.unary _ _, _⟩ | ⟨.call _ _, _⟩ | ⟨.new _ _, _⟩ | ⟨.lambda _, _⟩
  | ⟨.group _, _⟩ => trivial

theorem Expr.checkEach_uniform (hP : Check.Uniform P) : ∀ (es : List Expr) (ctx : Context),
    P _ (Expr.checkEach es ctx)
  | [], _ => hP.pure _
  | e :: rest, ctx => hP.bind (hP.nested (e.check_uniform hP)) fun _ =>
      hP.bind (Expr.checkEach_uniform hP rest ctx) fun _ => hP.pure _

theorem Expr.checkInto_uniform (hP : Check.Uniform P) : ∀ (es : List Expr) (ctx : Context)
    (slots : List (Slot Ty)), P _ (Expr.checkInto es ctx slots)
  | [], _, _ => hP.pure _
  | _ :: _, _, [] => hP.pure _
  | e :: rest, ctx, _ :: slots => hP.bind (hP.nested (e.check_uniform hP)) fun _ =>
      hP.expect_bind fun _ =>
        hP.bind (Expr.checkInto_uniform hP rest ctx slots) fun _ => hP.pure _

/-- What the rules hand on, all checks of statements have. -/
theorem Stmt.check_uniform (hP : Check.Uniform P) : ∀ (s : Stmt) (ctx : Context),
    P _ (s.check ctx)
  | ⟨form, span⟩, ctx => form.check_uniform hP span ctx

theorem StmtForm.check_uniform (hP : Check.Uniform P) : ∀ (form : StmtForm) (span : Span)
    (ctx : Context), P _ (form.check span ctx)
  | .expression e, _, _ => hP.bind (hP.nested (e.check_uniform hP)) fun _ => hP.pure _
  | .varDecl name nameSpan mode type? (some value), span, _ =>
    hP.varDecl name nameSpan mode type? span fun _ hvalue =>
      Option.mem_some.1 hvalue ▸ hP.nested (value.check_uniform hP)
  | .varDecl name nameSpan mode type? none, span, _ =>
    hP.varDecl name nameSpan mode type? span fun _ hvalue => nomatch hvalue
  | .classDecl name nameSpan parameters members, span, _ =>
    hP.classDecl name nameSpan parameters span (Stmt.members_uniform hP members)
  | .fnDecl name nameSpan ⟨parameters, result?, ⟨body, bodySpan⟩⟩, span, _ =>
    hP.fnDecl name nameSpan parameters result? bodySpan span (Stmt.checkAll_uniform hP body)
  | .ret (some value), span, _ => hP.ret span fun _ hvalue =>
      Option.mem_some.1 hvalue ▸ hP.nested (value.check_uniform hP)
  | .ret none, span, ctx => show P _ (ctx.ret none span) from hP.ret span (by simp)
  | .block ⟨body, _⟩, _, _ =>
    hP.bind (hP.inNewFrame (Stmt.checkAll_uniform hP body)) fun _ => hP.pure _
  | .branch condition thenBody (some elseBody), _, _ =>
    hP.bind (hP.nested (condition.check_uniform hP)) fun _ =>
      hP.bind (hP.inNewFrame fun _ => hP.nested (thenBody.check_uniform hP)) fun _ =>
        hP.bind (hP.inNewFrame fun _ => hP.nested (elseBody.check_uniform hP)) fun _ => hP.pure _
  | .branch condition thenBody none, _, _ =>
    hP.bind (hP.nested (condition.check_uniform hP)) fun _ =>
      hP.bind (hP.inNewFrame fun _ => hP.nested (thenBody.check_uniform hP)) fun _ => hP.pure _
  | .loop condition body, _, _ =>
    hP.bind (hP.nested (condition.check_uniform hP)) fun _ =>
      hP.bind (hP.inNewFrame fun _ => hP.nested (body.check_uniform hP)) fun _ => hP.pure _
  | .print value, _, _ => hP.bind (hP.nested (value.check_uniform hP)) fun _ => hP.pure _

theorem Stmt.checkAll_uniform (hP : Check.Uniform P) : ∀ (stmts : List Stmt) (ctx : Context),
    P _ (Stmt.checkAll stmts ctx)
  | [], _ => hP.pure _
  | s :: rest, ctx => hP.bind (hP.nested (s.check_uniform hP)) fun _ =>
      hP.bind (Stmt.checkAll_uniform hP rest ctx) fun _ => hP.pure _

theorem Stmt.members_uniform (hP : Check.Uniform P) : ∀ (members : List Stmt),
    ∀ member ∈ members, ∀ ctx, P _ (member.check ctx)
  | [] => by simp
  | s :: rest => List.forall_mem_cons.2 ⟨s.check_uniform hP, Stmt.members_uniform hP rest⟩

end

end Nominal
