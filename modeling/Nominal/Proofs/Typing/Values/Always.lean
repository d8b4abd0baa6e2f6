import Nominal.Proofs.Typing.Always
import Nominal.Proofs.Typing.Values.Trees

/-!
# All states hold values

A check that starts in a valued state goes through valued states only (`Stmt.always_values`). Each
part starts where the parts before it ended, and these ends are valued by what is known of the parts.
-/

namespace Nominal

open Check Context

/-! ## Where parts start -/

namespace CheckState.Valued

variable {s : CheckState} {outer : Scope} {inner : Frame}

theorem staging (h : s.Valued outer) : s.staging.Valued outer :=
  h.begin

theorem atBlock (h : s.Valued outer) : s.atBlock.Valued (s.frame :: outer) :=
  h.inside (.empty _)

theorem atHead (h : s.Valued outer) : s.atHead.Valued (s.frame :: outer) :=
  h.staging.atBlock

theorem atClass (h : s.Valued outer) : s.atClass.Valued (s.frame :: outer) :=
  (h.begin.setReturned false).atBlock

theorem atBody (h : s.Valued outer) (hinner : inner.Valued s.classes.names) :
    (s.atBody inner).Valued (s.frame :: outer) :=
  (h.setReturned false).inside hinner

end CheckState.Valued

section

variable {I : CheckState → Scope → Prop}

theorem Check.ValuesFrom.around {α : Type} {c : Check α} {ctx : Context} {s : CheckState}
    {ok : α → CheckState → Prop} (hI : ∀ s outer, s.Valued outer → I s outer)
    (hs : s.Valued ctx.outer) (hc : c.ValuesFrom s ctx.outer ok) : c.Around I ctx s :=
  ⟨hI _ _ hs, hc.both.mono (fun _ t ht => hI t _ ht) fun _ t ht => hI t _ ht⟩

theorem Check.ValuesFrom.next {α : Type} {c : Check α} {s t : CheckState} {outer : Scope}
    {ok : α → CheckState → Prop} {a : α} (hc : c.ValuesFrom s outer ok) (hrun : c s = .ok a t) :
    s.classes.names ⊆ t.classes.names ∧ t.Valued outer ∧ ok a t :=
  Ends.of_ok hc hrun

/-! ## Declarations -/

section

variable (hI : ∀ s outer, s.Valued outer → I s outer) {ctx : Context} {s t : CheckState}
include hI

theorem alwaysDeclared_values (name : String) (nameSpan : Span) {type : Slot Ty}
    (hs : s.Valued ctx.outer) (htype : type.type.Storable s.classes.names) :
    ctx.AlwaysDeclared I name type (ctx.declareVariable name type nameSpan) s :=
  ⟨(ValuesFrom.insertDeclaration hs htype.isValue).around hI hs,
    (ctx.declareVariable_values name nameSpan hs htype).around hI hs⟩

theorem Parameter.always_values {α : Type} {enter : Context → Parameter → Check α}
    (henter : ∀ p, (enter ctx p).KeepsValues ctx.outer) (parameters : List Parameter)
    (hs : s.Valued ctx.outer) : Parameter.Always I enter parameters ctx s := by
  induction parameters generalizing s with
  | nil => exact hI s _ hs
  | cons p rest ih =>
    have hdeclare := ctx.declareParameter_values p s hs
    refine ⟨fun type htype => ?_, (henter p s hs).around hI hs, fun a t hrun => ?_⟩
    · have hvalue := (hs.resolveValue p.type).of_ok htype
      exact ⟨(ValuesFrom.insertDeclaration hs hvalue.isValue).around hI hs, hdeclare.around hI hs⟩
    · exact ih ((henter p s hs).next hrun).2.1

theorem Parameter.always_head (parameters : List Parameter) (hs : s.Valued ctx.outer) :
    Parameter.Always I declareParameter parameters (ctx.inside s.frame) s.atHead :=
  Parameter.always_values hI (fun p => (declareParameter_values _ p).forget) parameters hs.atHead

end

/-! ## Along the tree -/

section

variable {ctx : Context} {s : CheckState} {e : Expr}
  (howner : e.form.OwnerHas fun owner => ∀ ctx s, s.Valued ctx.outer → owner.Always I ctx s)
  (hs : s.Valued ctx.outer)
include howner hs

theorem alwaysTarget_values : e.AlwaysTarget I ctx s := by
  obtain ⟨form, span⟩ := e
  cases form with
  | member owner name nameSpan => exact howner ctx s hs
  | _ => trivial

theorem alwaysCallee_values (he : e.Always I ctx s) {arguments : CheckState → Prop}
    (harguments : ∀ t, t.Valued ctx.outer → arguments t) : e.AlwaysCallee I ctx s arguments := by
  have hcallee (e : Expr) (callee : TypedExpr) (t : CheckState)
      (hrun : e.check ctx s = .ok callee t) : arguments t :=
    harguments t ((e.check_values ctx s hs).next hrun).2.1
  have hself := hcallee e
  obtain ⟨form, span⟩ := e
  cases form with
  | symbol name => exact harguments s hs
  | member owner name nameSpan => exact ⟨howner ctx s hs, hcallee owner⟩
  | _ => exact ⟨he, hself⟩

end

mutual

/-- All states of the check of an expression are valued. -/
theorem Expr.always_values (hI : ∀ s outer, s.Valued outer → I s outer) :
    ∀ (e : Expr) (ctx : Context) (s : CheckState), s.Valued ctx.outer →
      e.Always I ctx s
  | ⟨form, span⟩, ctx, s, hs =>
    ⟨(form.check_values span ctx s hs).around hI hs, form.always_values hI ctx s hs⟩

theorem ExprForm.always_values (hI : ∀ s outer, s.Valued outer → I s outer) :
    ∀ (form : ExprForm) (ctx : Context) (s : CheckState), s.Valued ctx.outer →
      form.Always I ctx s
  | .number _, _, _, _ => trivial
  | .text _, _, _, _ => trivial
  | .bool _, _, _, _ => trivial
  | .symbol _, _, _, _ => trivial
  | .member owner _ _, ctx, s, hs => owner.always_values hI ctx s hs
  | .assign target value, ctx, s, hs => by
    have htarget : (target.checkTarget ctx).ProperTarget ctx.outer :=
      checkTarget_values target.owner_values
    refine ⟨alwaysTarget_values (target.owner_always_values hI) hs, fun place t hrun => ?_⟩
    obtain ⟨-, ht, -⟩ := (htarget s hs).next hrun
    exact ⟨hI t _ ht, fun _ => value.always_values hI _ t ht⟩
  | .binary left operator right, ctx, s, hs => by
    refine ⟨left.always_values hI ctx s hs, fun l t hrun => ?_⟩
    obtain ⟨-, ht, -⟩ := (left.check_values ctx s hs).next hrun
    exact ⟨hI t _ ht, fun _ => right.always_values hI _ t ht⟩
  | .unary operator operand, ctx, s, hs => ⟨hI s _ hs, fun _ => operand.always_values hI _ s hs⟩
  | .call callee arguments, ctx, s, hs =>
    alwaysCallee_values (callee.owner_always_values hI) hs (callee.always_values hI ctx s hs)
      (Expr.alwaysEach_values hI arguments ctx)
  | .new className arguments, ctx, s, hs => Expr.alwaysEach_values hI arguments ctx s hs
  | .lambda ⟨parameters, result?, ⟨body, bodySpan⟩⟩, ctx, s, hs => by
    have hhead := functionHead_values parameters result? hs.staging
    refine ⟨hhead.around hI hs.staging, Parameter.always_head hI parameters hs,
      fun head t hrun => ?_⟩
    obtain ⟨-, ht, hvalued⟩ := hhead.next hrun
    have hbody : (ctx.functionBody head none bodySpan (Stmt.checkAll body)).ValuesFrom t ctx.outer
        fun _ _ => True := functionBody_values none ht hvalued (Stmt.checkAll_values body)
    exact ⟨hbody.around hI ht, Stmt.alwaysAll_values hI body _ _ (ht.atBody hvalued.frame)⟩
  | .group inner, ctx, s, hs => ⟨hI s _ hs, fun _ => inner.always_values hI _ s hs⟩

theorem Expr.owner_always_values (hI : ∀ s outer, s.Valued outer → I s outer) : ∀ e : Expr,
    e.form.OwnerHas fun owner => ∀ ctx s, s.Valued ctx.outer → owner.Always I ctx s
  | ⟨.member owner _ _, _⟩ => owner.always_values hI
  | ⟨.number _, _⟩ | ⟨.text _, _⟩ | ⟨.bool _, _⟩ | ⟨.symbol _, _⟩ | ⟨.assign _ _, _⟩
  | ⟨.binary _ _ _, _⟩ | ⟨.unary _ _, _⟩ | ⟨.call _ _, _⟩ | ⟨.new _ _, _⟩ | ⟨.lambda _, _⟩
  | ⟨.group _, _⟩ => trivial

theorem Expr.alwaysEach_values (hI : ∀ s outer, s.Valued outer → I s outer) :
    ∀ (es : List Expr) (ctx : Context) (s : CheckState), s.Valued ctx.outer →
      Expr.AlwaysEach I es ctx s
  | [], _, s, hs => hI s _ hs
  | e :: rest, ctx, s, hs => by
    refine ⟨⟨hI s _ hs, fun _ => e.always_values hI _ s hs⟩, fun a t hrun => ?_⟩
    obtain ⟨-, ht, -⟩ := (e.nested_values ctx s hs).next hrun
    exact Expr.alwaysEach_values hI rest ctx t ht

/-- All states of the check of a statement are valued. -/
theorem Stmt.always_values (hI : ∀ s outer, s.Valued outer → I s outer) :
    ∀ (stmt : Stmt) (ctx : Context) (s : CheckState), s.Valued ctx.outer →
      stmt.Always I ctx s
  | ⟨form, span⟩, ctx, s, hs =>
    ⟨(form.check_values span ctx s hs).around hI hs, form.always_values hI ctx s hs⟩

theorem StmtForm.always_values (hI : ∀ s outer, s.Valued outer → I s outer) :
    ∀ (form : StmtForm) (ctx : Context) (s : CheckState), s.Valued ctx.outer →
      form.Always I ctx s
  | .expression e, ctx, s, hs => ⟨hI s _ hs, fun _ => e.always_values hI _ s hs⟩
  | .varDecl name nameSpan mode none (some value), ctx, s, hs => by
    refine ⟨⟨hI _ _ hs.staging, fun _ => value.always_values hI _ _ hs.staging⟩, ?_⟩
    intro v t hrun hvalues _
    obtain ⟨-, ht, hv⟩ := (value.nested_values ctx _ hs.staging).next hrun
    exact alwaysDeclared_values hI name nameSpan ht (hv.storable ht.unclaimed hvalues)
  | .varDecl name nameSpan mode (some t) (some value), ctx, s, hs => by
    intro declared hdeclared
    have htype := (hs.resolveValue t).of_ok hdeclared
    split
    · refine ⟨alwaysDeclared_values hI name nameSpan hs.staging htype, fun id u hrun => ?_⟩
      obtain ⟨-, hu, -⟩ := (declareVariable_values ctx name nameSpan hs.staging htype).next hrun
      have hvalue : (valueInto (ctx.nested value.span value.check) ⟨mode, declared⟩
          value.span).ValuesFrom u ctx.outer fun _ _ => True :=
        valueInto_values (value.nested_values ctx) _ u hu
      -- the variable is taken back when its own value fails
      have hundone := hvalue.undoing (fun h => h.removeVariable name) fun _ => rfl
      exact ⟨hundone.around hI hu, hI u _ hu, fun _ => value.always_values hI _ u hu⟩
    · refine ⟨⟨hI _ _ hs.staging, fun _ => value.always_values hI _ _ hs.staging⟩, ?_⟩
      intro v u hrun _
      obtain ⟨hsu, hu, -⟩ := (value.nested_values ctx _ hs.staging).next hrun
      exact alwaysDeclared_values hI name nameSpan hu (htype.mono hsu)
  | .varDecl name nameSpan mode (some t) none, ctx, s, hs => by
    intro _ declared hdeclared
    have htype := (hs.resolveValue t).of_ok hdeclared
    exact alwaysDeclared_values hI name nameSpan hs.staging htype
  | .varDecl _ _ _ none none, ctx, s, hs => fun _ => hI _ _ hs.staging
  | .classDecl name nameSpan parameters members, ctx, s, hs => by
    intro hnew
    have hdeclare := declareClass_values hs hnew
    refine ⟨hdeclare.around hI hs, fun c t hrun => ?_⟩
    obtain ⟨-, ht, -⟩ := hdeclare.next hrun
    have hstart := ht.staging.setReturned false
    have hbody := classBody_values { ctx with function? := none, className? := some name } c
      parameters (Stmt.check_values_of_mem members) _ hstart
    refine ⟨hbody.around hI hstart,
      Parameter.always_values hI (classParameter_values _ c) parameters ht.atClass, ?_⟩
    intro ids u hparameters
    have hids (body : Context) : (parameters.mapM (body.classParameter c)).KeepsValues body.outer :=
      classParameters_values body c parameters
    obtain ⟨-, hu, -⟩ := (hids _ _ ht.atClass).next hparameters
    exact Stmt.alwaysMembers_values hI members parameters c _ _ hu.atBlock
  | .fnDecl name nameSpan ⟨parameters, result?, ⟨body, bodySpan⟩⟩, ctx, s, hs => by
    have hhead := functionHead_values parameters result? hs.staging
    refine ⟨hhead.around hI hs.staging, Parameter.always_head hI parameters hs,
      fun head t hrun => ?_⟩
    obtain ⟨-, ht, hvalued⟩ := hhead.next hrun
    have hinsert : (insertDeclaration name ⟨.val, head.function.type⟩).ValuesFrom t ctx.outer
        fun _ u => u.frame = t.frame ∧ u.classes = t.classes :=
      .insertDeclaration ht hvalued.isValue
    refine ⟨hinsert.around hI ht, fun id u hentered inner hdeclare => ?_⟩
    obtain ⟨-, hu, hframe, hclasses⟩ := hinsert.next hentered
    rw [← hframe] at hdeclare
    rw [← hclasses] at hvalued
    have hinner := hu.frame.declareFunction hdeclare hvalued.type
    have hdeclared := hu.setFrame hinner (Frame.types_of_declareFunction hdeclare)
    have hbody : (ctx.functionBody head (some name) bodySpan (Stmt.checkAll body)).ValuesFrom
        { u with frame := inner } ctx.outer fun _ _ => True :=
      functionBody_values (some name) hdeclared hvalued (Stmt.checkAll_values body)
    have hundone := hbody.undoing (fun h => h.removeFunction name id) fun f =>
      f.types_removeFunction name id
    refine ⟨hbody.around hI hdeclared, hundone.around hI hdeclared, ?_⟩
    exact Stmt.alwaysAll_values hI body _ _ (hdeclared.atBody hvalued.frame)
  | .ret (some value), ctx, s, hs => ⟨hI s _ hs, fun _ => value.always_values hI _ s hs⟩
  | .ret none, _, _, _ => trivial
  | .block ⟨body, _⟩, ctx, s, hs => Stmt.alwaysAll_values hI body _ _ hs.atBlock
  | .branch condition thenBody (some elseBody), ctx, s, hs => by
    refine ⟨⟨hI s _ hs, fun _ => condition.always_values hI _ s hs⟩, fun c t hrun => ?_⟩
    obtain ⟨-, ht, -⟩ := (condition.nested_values ctx s hs).next hrun
    refine ⟨⟨hI _ _ ht.atBlock, fun _ => thenBody.always_values hI _ _ ht.atBlock⟩,
      fun b u hthen => ?_⟩
    have hbody : (ctx.inNewFrame fun ctx => ctx.nested thenBody.span thenBody.check).KeepsValues
        ctx.outer := .inNewFrame fun ctx => thenBody.nested_values ctx
    obtain ⟨-, hu, -⟩ := (hbody t ht).next hthen
    exact ⟨hI _ _ hu.atBlock, fun _ => elseBody.always_values hI _ _ hu.atBlock⟩
  | .branch condition thenBody none, ctx, s, hs => by
    refine ⟨⟨hI s _ hs, fun _ => condition.always_values hI _ s hs⟩, fun c t hrun => ?_⟩
    obtain ⟨-, ht, -⟩ := (condition.nested_values ctx s hs).next hrun
    exact ⟨hI _ _ ht.atBlock, fun _ => thenBody.always_values hI _ _ ht.atBlock⟩
  | .loop condition body, ctx, s, hs => by
    refine ⟨⟨hI s _ hs, fun _ => condition.always_values hI _ s hs⟩, fun c t hrun => ?_⟩
    obtain ⟨-, ht, -⟩ := (condition.nested_values ctx s hs).next hrun
    exact ⟨hI _ _ ht.atBlock, fun _ => body.always_values hI _ _ ht.atBlock⟩
  | .print value, ctx, s, hs => ⟨hI s _ hs, fun _ => value.always_values hI _ s hs⟩

theorem Stmt.alwaysAll_values (hI : ∀ s outer, s.Valued outer → I s outer) :
    ∀ (stmts : List Stmt) (ctx : Context) (s : CheckState), s.Valued ctx.outer →
      Stmt.AlwaysAll I stmts ctx s
  | [], _, s, hs => hI s _ hs
  | stmt :: rest, ctx, s, hs => by
    refine ⟨⟨hI s _ hs, fun _ => stmt.always_values hI _ s hs⟩, fun typed t hrun => ?_⟩
    obtain ⟨-, ht, -⟩ := (stmt.nested_values ctx s hs).next hrun
    exact Stmt.alwaysAll_values hI rest ctx t ht

theorem Stmt.alwaysMembers_values (hI : ∀ s outer, s.Valued outer → I s outer) :
    ∀ (members : List Stmt) (parameters : List Parameter) (c : ClassRef) (ctx : Context)
      (s : CheckState), s.Valued ctx.outer → Stmt.AlwaysMembers I members parameters c ctx s
  | [], _, _, _, s, hs => hI s _ hs
  | member :: rest, parameters, c, ctx, s, hs => by
    refine ⟨hI s _ hs, fun a t hexpect => ?_⟩
    have hno : (ctx.expectNoParameter parameters member).KeepsValues ctx.outer :=
      ctx.expectNoParameter_values parameters member
    obtain ⟨-, ht, -⟩ := (hno s hs).next hexpect
    refine ⟨⟨hI t _ ht, fun _ => member.always_values hI _ t ht⟩, fun typed u hrun => ?_⟩
    -- the member stands in the frame, so what the class is given holds values
    obtain ⟨-, hu, hdeclares⟩ := (nestedMember_values member.check_values ht).next hrun
    have henter : (ctx.enterMember c member typed).ValuesFrom u ctx.outer fun _ _ => True :=
      enterMember_values hu hdeclares
    refine ⟨henter.around hI hu, fun b v hentered => ?_⟩
    obtain ⟨-, hv, -⟩ := henter.next hentered
    exact Stmt.alwaysMembers_values hI rest parameters c ctx v hv

end

end

end Nominal
