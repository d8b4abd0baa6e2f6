import Nominal.Proofs.Typing.Log
import Nominal.Proofs.Typing.Points

/-!
# All functions that are called by name have numbers

The overloads of a frame may do without a number, as operators of primitive types do, and a call that
picked one of these would fail. It never does: the checker enters each function under a number before
it declares it, so at every point of a check all functions in the frames have one
(`Stmt.throughout_numbered`). What is carried along is that the state has a log.
-/

namespace Nominal

/-- The functions of the frame have numbers. -/
def Frame.Numbered (f : Frame) : Prop :=
  ∀ name, ∀ o ∈ f.functions.get name, ∃ id, o.id? = some id

/-- All functions that can be called by name have numbers. -/
def Point.Numbered (p : Point) : Prop :=
  ∀ f ∈ p.scope, f.Numbered

/-! ## States with a log -/

/-- The state has a log. -/
def CheckState.HasLog (s : CheckState) (outer : Scope) : Prop :=
  ∃ log, s.Logged log outer

namespace CheckState

variable {s t : CheckState} {outer : Scope} {log : List Declaration}

theorem HasLog.begin (h : s.HasLog outer) :
    { s with registry := s.registry.begin }.HasLog outer := by
  obtain ⟨log, hlog⟩ := h
  exact ⟨log, hlog.begin⟩

theorem HasLog.setReturned (h : s.HasLog outer) (returned : Bool) :
    { s with returned }.HasLog outer := by
  obtain ⟨log, hlog⟩ := h
  exact ⟨log, hlog.setReturned returned⟩

theorem HasLog.atBlock (h : s.HasLog outer) : s.atBlock.HasLog (s.frame :: outer) := by
  obtain ⟨log, hlog⟩ := h
  exact ⟨log, hlog.inside (Frame.sound_empty _ _)⟩

theorem HasLog.atHead (h : s.HasLog outer) : s.atHead.HasLog (s.frame :: outer) :=
  h.begin.atBlock

theorem HasLog.atClass (h : s.HasLog outer) : s.atClass.HasLog (s.frame :: outer) :=
  (h.begin.setReturned false).atBlock

theorem Logged.atBody (h : s.Logged log outer) {frame : Frame}
    (hframe : frame.Sound log s.classes.classes.length) :
    (s.atBody frame).HasLog (s.frame :: outer) :=
  ⟨log, (h.setReturned false).inside hframe⟩

end CheckState

section

variable {α : Type} {c : Check α} {s t : CheckState} {outer : Scope} {a : α}

theorem Check.Logs.both (hc : c.Logs) (hs : s.HasLog outer) :
    c.Ends s (fun _ t => t.HasLog outer) (fun _ t => t.HasLog outer) := by
  obtain ⟨log, hlog⟩ := hs
  refine Check.Ends.mono (hc s log outer hlog) ?_ ?_
  · rintro a t ⟨log', -, ht, -⟩
    exact ⟨log', ht⟩
  · rintro d t ⟨log', -, ht⟩
    exact ⟨log', ht⟩

theorem Check.Logs.next (hc : c.Logs) (hs : s.HasLog outer) (hrun : c s = .ok a t) :
    t.HasLog outer :=
  (hc.both hs).of_ok hrun

end

/-! ## Along a check -/

open Check Context

section

variable {I : Point → Prop} (hI : ∀ p : Point, p.Numbered → I p)
include hI

variable {α : Type} {ctx : Context} {s : CheckState} {types : List Ty}

theorem CheckState.HasLog.point (hs : s.HasLog ctx.outer) : I (ctx.point s types) := by
  obtain ⟨log, hlog⟩ := hs
  refine hI _ fun f hf name o ho => ?_
  obtain ⟨id, hid, -⟩ := (hlog.sound.frames f hf).functions name o ho
  exact ⟨id, hid⟩

theorem Check.Logs.atEnds {c : Check α} {checked : α → List Ty} (hc : c.Logs)
    (hs : s.HasLog ctx.outer) : c.AtEnds I checked ctx s types :=
  ⟨hs.point hI, (hc.both hs).mono (fun _ _ ht => ht.point hI) fun _ _ ht => ht.point hI⟩

theorem Parameter.throughout_of_logs {enter : Context → Parameter → Check α}
    (henter : ∀ p, (enter ctx p).Logs) (parameters : List Parameter) (hs : s.HasLog ctx.outer) :
    Parameter.Throughout I enter parameters ctx s := by
  have hdeclare (p : Parameter) : (ctx.declareParameter p).Logs := fun _ _ _ ht =>
    (declareParameter_logs p ht).forget
  induction parameters generalizing s with
  | nil => exact hs.point hI
  | cons p rest ih =>
    exact ⟨(hdeclare p).atEnds hI hs, fun a t hrun => ih ((henter p).next hs hrun)⟩

theorem Parameter.throughout_of_function (parameters : List Parameter) (hs : s.HasLog ctx.outer) :
    Parameter.Throughout I declareParameter parameters (ctx.inside s.frame) s.atHead :=
  Parameter.throughout_of_logs hI (fun p _ _ _ ht => (declareParameter_logs p ht).forget)
    parameters hs.atHead

end

/-- The frame of the parameters, in which the body starts, has a log. -/
theorem exists_log_of_functionHead {ctx : Context} {s t : CheckState} {parameters : List Parameter}
    {result? : Option TypeExpr} {head : FunctionHead} (hs : s.HasLog ctx.outer)
    (hrun : ctx.functionHead parameters result? { s with registry := s.registry.begin } =
      .ok head t) :
    ∃ log, t.Logged log ctx.outer ∧ head.frame.Sound log t.classes.classes.length := by
  obtain ⟨log, hlog⟩ := hs
  obtain ⟨log', -, ht, hframe⟩ := (functionHead_logs parameters result? hlog.begin).of_ok hrun
  exact ⟨log', ht, hframe⟩

/-- The same when the function itself was entered and declared meanwhile. -/
theorem atBody_hasLog_of_declared {s t : CheckState} {outer : Scope} {log : List Declaration}
    {head : FunctionHead} (hs : s.Logged log outer)
    (hhead : head.frame.Sound log s.classes.classes.length) {name : String} {id : DeclId}
    (hinsert : insertDeclaration name ⟨.val, head.function.type⟩ s = .ok id t) {frame : Frame}
    (hdeclare : s.frame.declareFunction name ⟨some id, head.function⟩ = some frame) :
    (t.atBody head.frame).HasLog (frame :: outer) := by
  obtain ⟨log', hlog, ht, hmem, hclasses⟩ := (LogsFrom.insertDeclaration hs name _).of_ok hinsert
  have hframe : t.frame = s.frame := by
    cases hinsert
    rfl
  have hdeclared := ht.frame.declareFunction (hframe ▸ hdeclare) ⟨id, rfl, hmem⟩
  refine (ht.setFrame hdeclared).atBody ?_
  show head.frame.Sound log' t.classes.classes.length
  rw [hclasses]
  exact hhead.mono hlog (Nat.le_refl _)

/-! ### Expressions and statements -/

section

variable {I : Point → Prop} {ctx : Context} {s : CheckState} {types : List Ty} {e : Expr}
  (howner : e.form.OwnerHas fun owner => ∀ ctx s types, s.HasLog ctx.outer →
    owner.Throughout I ctx s types)
  (hs : s.HasLog ctx.outer)
include howner hs

theorem throughoutTarget_of_hasLog : e.ThroughoutTarget I ctx s types := by
  obtain ⟨form, span⟩ := e
  cases form with
  | member owner name nameSpan => exact howner ctx s types hs
  | _ => trivial

theorem throughoutCallee_of_hasLog (he : e.Throughout I ctx s types)
    {arguments : CheckState → List Ty → Prop}
    (harguments : ∀ t types, t.HasLog ctx.outer → arguments t types) :
    e.ThroughoutCallee I ctx s types arguments := by
  have hcallee (e : Expr) (callee : TypedExpr) (t : CheckState)
      (hrun : e.check ctx s = .ok callee t) : arguments t (callee.type.type :: types) :=
    harguments t _ ((e.check_logs ctx).next hs hrun)
  have hself := hcallee e
  obtain ⟨form, span⟩ := e
  cases form with
  | symbol name => exact harguments s types hs
  | member owner name nameSpan => exact ⟨howner ctx s types hs, hcallee owner⟩
  | _ => exact ⟨he, hself⟩

end

section

variable {I : Point → Prop}

mutual

/-- At all points of the check of an expression all functions have numbers. -/
theorem Expr.throughout_numbered (hI : ∀ p : Point, p.Numbered → I p) : ∀ (e : Expr)
    (ctx : Context) (s : CheckState) (types : List Ty), s.HasLog ctx.outer →
      e.Throughout I ctx s types
  | ⟨form, span⟩, ctx, s, types, hs =>
    ⟨Check.Logs.atEnds hI (form.check_uniform Check.Logs.uniform span ctx) hs,
      form.throughout_numbered hI ctx s types hs⟩

theorem ExprForm.throughout_numbered (hI : ∀ p : Point, p.Numbered → I p) : ∀ (form : ExprForm)
    (ctx : Context) (s : CheckState) (types : List Ty), s.HasLog ctx.outer →
      form.Throughout I ctx s types
  | .number _, _, _, _, _ => trivial
  | .text _, _, _, _, _ => trivial
  | .bool _, _, _, _, _ => trivial
  | .symbol _, _, _, _, _ => trivial
  | .member owner _ _, ctx, s, types, hs => owner.throughout_numbered hI ctx s types hs
  | .assign target value, ctx, s, types, hs => by
    refine ⟨throughoutTarget_of_hasLog (target.owner_throughout_numbered hI) hs,
      fun place t hrun => ?_⟩
    have htarget : (target.checkTarget ctx).Logs :=
      checkTarget_closed Check.Logs.closed (target.owner_uniform Check.Logs.uniform)
    have ht := htarget.next hs hrun
    exact ⟨ht.point hI, fun _ => value.throughout_numbered hI _ t _ ht⟩
  | .binary left operator right, ctx, s, types, hs => by
    refine ⟨left.throughout_numbered hI ctx s types hs, fun l t hrun => ?_⟩
    have ht := (left.check_logs ctx).next hs hrun
    exact ⟨ht.point hI, fun _ => right.throughout_numbered hI _ t _ ht⟩
  | .unary operator operand, ctx, s, types, hs =>
    ⟨hs.point hI, fun _ => operand.throughout_numbered hI _ s types hs⟩
  | .call callee arguments, ctx, s, types, hs =>
    throughoutCallee_of_hasLog (callee.owner_throughout_numbered hI) hs
      (callee.throughout_numbered hI ctx s types hs) fun t types ht =>
        Expr.throughoutEach_numbered hI arguments ctx t types ht
  | .new className arguments, ctx, s, types, hs =>
    Expr.throughoutEach_numbered hI arguments ctx s types hs
  | .lambda ⟨parameters, result?, ⟨body, bodySpan⟩⟩, ctx, s, types, hs => by
    refine ⟨Parameter.throughout_of_function hI parameters hs, fun head t hrun => ?_⟩
    obtain ⟨log, ht, hframe⟩ := exists_log_of_functionHead hs hrun
    exact Stmt.throughoutAll_numbered hI body _ _ (ht.atBody hframe)
  | .group inner, ctx, s, types, hs =>
    ⟨hs.point hI, fun _ => inner.throughout_numbered hI _ s types hs⟩

theorem Expr.owner_throughout_numbered (hI : ∀ p : Point, p.Numbered → I p) : ∀ e : Expr,
    e.form.OwnerHas fun owner => ∀ ctx s types, s.HasLog ctx.outer →
      owner.Throughout I ctx s types
  | ⟨.member owner _ _, _⟩ => owner.throughout_numbered hI
  | ⟨.number _, _⟩ | ⟨.text _, _⟩ | ⟨.bool _, _⟩ | ⟨.symbol _, _⟩ | ⟨.assign _ _, _⟩
  | ⟨.binary _ _ _, _⟩ | ⟨.unary _ _, _⟩ | ⟨.call _ _, _⟩ | ⟨.new _ _, _⟩ | ⟨.lambda _, _⟩
  | ⟨.group _, _⟩ => trivial

theorem Expr.throughoutEach_numbered (hI : ∀ p : Point, p.Numbered → I p) : ∀ (es : List Expr)
    (ctx : Context) (s : CheckState) (types : List Ty), s.HasLog ctx.outer →
      Expr.ThroughoutEach I es ctx s types
  | [], _, _, _, hs => hs.point hI
  | e :: rest, ctx, s, types, hs => by
    refine ⟨⟨hs.point hI, fun _ => e.throughout_numbered hI _ s types hs⟩, fun a t hrun => ?_⟩
    exact Expr.throughoutEach_numbered hI rest ctx t _ ((e.nested_logs ctx).next hs hrun)

/-- At all points of the check of a statement all functions have numbers. -/
theorem Stmt.throughout_numbered (hI : ∀ p : Point, p.Numbered → I p) : ∀ (stmt : Stmt)
    (ctx : Context) (s : CheckState), s.HasLog ctx.outer → stmt.Throughout I ctx s
  | ⟨form, span⟩, ctx, s, hs =>
    ⟨Check.Logs.atEnds hI (form.check_uniform Check.Logs.uniform span ctx) hs,
      form.throughout_numbered hI ctx s hs⟩

theorem StmtForm.throughout_numbered (hI : ∀ p : Point, p.Numbered → I p) : ∀ (form : StmtForm)
    (ctx : Context) (s : CheckState), s.HasLog ctx.outer → form.Throughout I ctx s
  | .expression e, ctx, s, hs => ⟨hs.point hI, fun _ => e.throughout_numbered hI _ s [] hs⟩
  | .varDecl name nameSpan mode none (some value), ctx, s, hs =>
    ⟨hs.point hI, fun _ => value.throughout_numbered hI _ _ [] hs.begin⟩
  | .varDecl name nameSpan mode (some t) (some value), ctx, s, hs => by
    intro declared hdeclared
    split
    · intro id u hrun
      -- a function may refer to itself, so it is declared before its value is checked
      have hu := (ctx.declareVariable_logs name ⟨mode, declared⟩ nameSpan).next hs.begin hrun
      exact ⟨hu.point hI, fun _ => value.throughout_numbered hI _ u _ hu⟩
    · exact ⟨hs.point hI, fun _ => value.throughout_numbered hI _ _ _ hs.begin⟩
  | .varDecl _ _ _ none none, _, _, _ => trivial
  | .varDecl _ _ _ (some _) none, _, _, _ => trivial
  | .classDecl name nameSpan parameters members, ctx, s, hs => by
    intro hnew c t hrun
    have ht := ((declareClass_logs name).next hs hrun).atClass
    refine ⟨Parameter.throughout_of_logs hI (classParameter_logs _ c) parameters ht,
      fun ids u hparameters => ?_⟩
    have hids (body : Context) : (parameters.mapM (body.classParameter c)).Logs :=
      Check.Logs.closed.mapM (body.classParameter_logs c) parameters
    have hu := (hids _).next ht hparameters
    exact Stmt.throughoutMembers_numbered hI members parameters c _ _ hu.atBlock
  | .fnDecl name nameSpan ⟨parameters, result?, ⟨body, bodySpan⟩⟩, ctx, s, hs => by
    refine ⟨Parameter.throughout_of_function hI parameters hs, fun head t hrun => ?_⟩
    obtain ⟨log, ht, hframe⟩ := exists_log_of_functionHead hs hrun
    intro id u hinsert frame hdeclare
    have hbody := atBody_hasLog_of_declared ht hframe hinsert hdeclare
    exact Stmt.throughoutAll_numbered hI body _ _ hbody
  | .ret (some value), ctx, s, hs =>
    ⟨hs.point hI, fun _ => value.throughout_numbered hI _ s [] hs⟩
  | .ret none, _, _, _ => trivial
  | .block ⟨body, _⟩, ctx, s, hs => Stmt.throughoutAll_numbered hI body _ _ hs.atBlock
  | .branch condition thenBody (some elseBody), ctx, s, hs => by
    refine ⟨⟨hs.point hI, fun _ => condition.throughout_numbered hI _ s [] hs⟩, fun c t hrun => ?_⟩
    have ht := (condition.nested_logs ctx).next hs hrun
    refine ⟨⟨ht.atBlock.point hI, fun _ => thenBody.throughout_numbered hI _ _ ht.atBlock⟩,
      fun b u hthen => ?_⟩
    have hbody : (ctx.inNewFrame fun ctx => ctx.nested thenBody.span thenBody.check).Logs :=
      .inNewFrame thenBody.nested_logs
    have hu := (hbody.next ht hthen).atBlock
    exact ⟨hu.point hI, fun _ => elseBody.throughout_numbered hI _ _ hu⟩
  | .branch condition thenBody none, ctx, s, hs => by
    refine ⟨⟨hs.point hI, fun _ => condition.throughout_numbered hI _ s [] hs⟩, fun c t hrun => ?_⟩
    have ht := ((condition.nested_logs ctx).next hs hrun).atBlock
    exact ⟨ht.point hI, fun _ => thenBody.throughout_numbered hI _ _ ht⟩
  | .loop condition body, ctx, s, hs => by
    refine ⟨⟨hs.point hI, fun _ => condition.throughout_numbered hI _ s [] hs⟩, fun c t hrun => ?_⟩
    have ht := ((condition.nested_logs ctx).next hs hrun).atBlock
    exact ⟨ht.point hI, fun _ => body.throughout_numbered hI _ _ ht⟩
  | .print value, ctx, s, hs => ⟨hs.point hI, fun _ => value.throughout_numbered hI _ s [] hs⟩

theorem Stmt.throughoutAll_numbered (hI : ∀ p : Point, p.Numbered → I p) : ∀ (stmts : List Stmt)
    (ctx : Context) (s : CheckState), s.HasLog ctx.outer → Stmt.ThroughoutAll I stmts ctx s
  | [], _, _, hs => hs.point hI
  | stmt :: rest, ctx, s, hs => by
    refine ⟨⟨hs.point hI, fun _ => stmt.throughout_numbered hI _ s hs⟩, fun typed t hrun => ?_⟩
    exact Stmt.throughoutAll_numbered hI rest ctx t ((stmt.nested_logs ctx).next hs hrun)

theorem Stmt.throughoutMembers_numbered (hI : ∀ p : Point, p.Numbered → I p) :
    ∀ (members : List Stmt) (parameters : List Parameter) (c : ClassRef) (ctx : Context)
      (s : CheckState), s.HasLog ctx.outer → Stmt.ThroughoutMembers I members parameters c ctx s
  | [], _, _, _, _, hs => hs.point hI
  | member :: rest, parameters, c, ctx, s, hs => by
    refine ⟨hs.point hI, fun a t hexpect => ?_⟩
    have ht := (expectNoParameter_logs parameters member).next hs hexpect
    refine ⟨⟨ht.point hI, fun _ => member.throughout_numbered hI _ t ht⟩,
      fun typed u hrun b v henter => ?_⟩
    -- the member stands in the frame, so it is in the log when the class is given it
    obtain ⟨log, hlog⟩ := ht
    obtain ⟨log', -, hu, hdeclares⟩ := (nestedMember_logs member.check_logs hlog).of_ok hrun
    obtain ⟨last, -, hv, -⟩ := (enterMember_logs hu hdeclares).of_ok henter
    exact Stmt.throughoutMembers_numbered hI rest parameters c ctx v ⟨last, hv⟩

end

end

end Nominal
