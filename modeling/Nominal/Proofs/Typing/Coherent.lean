import Nominal.Proofs.Typing.Confined.Trees
import Nominal.Proofs.Typing.Points

/-!
# All points of a check are coherent

At every point of the check of a tidy tree the types that are at hand are in scope
(`Stmt.throughout`), so whatever type can be come by from there is in scope as well, and a name
belongs to one type (`Point.Fits.coherent`).
-/

namespace Nominal

/-! ## Points that fit -/

/-- The frames fit, and what was just checked is in scope. -/
structure Point.Fits (p : Point) : Prop where
  frames : Scope.Fits p.classes p.scope
  types : ∀ type ∈ p.types, type.InScope p.scope

namespace Point.Fits

variable {p : Point} {type : Ty}

theorem info (h : p.Fits) {c : ClassRef} (hc : (Ty.cls c).InScope p.scope) :
    (p.classes.info c).InScope p.scope := by
  obtain ⟨info, hinfo, -, hscope⟩ := h.frames.info (Ty.over_cls.1 hc)
  rw [ClassTable.info_of_getElem? hinfo]
  exact hscope

/-- Whatever can be come by is in scope. -/
theorem inScope (h : p.Fits) (hreaches : p.Reaches type) : type.InScope p.scope := by
  induction hreaches with
  | binding hf hb =>
    obtain ⟨outer, hfits, hin⟩ := h.frames.of_mem hf
    exact hin _ (hfits.1.bindings _ _ hb)
  | overload hf ho =>
    obtain ⟨outer, hfits, hin⟩ := h.frames.of_mem hf
    exact hin _ (hfits.1.functions _ _ ho)
  | @named f name type hf htype =>
    obtain ⟨outer, hfits, hin⟩ := h.frames.of_mem hf
    have hfound : Scope.findType? (f :: outer) name = some type := by
      rw [Scope.findType?_cons, htype]
    exact hin _ (hfits.inScope hfound)
  | checked htype => exact h.types _ htype
  | parameter _ hq ih => exact (Ty.over_function.1 ih).1 _ hq
  | result _ ih => exact (Ty.over_function.1 ih).2
  | field _ hm ih => exact (h.info ih).members _ _ hm
  | method _ ho ih => exact (h.info ih).methods _ _ ho
  | construction _ hq ih => exact (h.info ih).parameters _ hq
  | function _ _ ihparameters ihresult => exact .function ihparameters ihresult

theorem coherent (h : p.Fits) : p.Coherent where
  classes c d hc hd hname := by
    have hagrees := h.frames.agrees (h.inScope hc) (h.inScope hd) hname
    cases hagrees
    rfl
  types a b ha hb hassignable :=
    h.frames.agrees (h.inScope ha) (h.inScope hb) (beq_iff_eq.1 hassignable)

end Point.Fits

/-! ## States that are ready -/

/-- All types of the state are in scope, and so are those that are at hand. -/
structure CheckState.Ready (s : CheckState) (outer : Scope) (types : List Ty) : Prop
    extends s.Contained outer where
  types : ∀ type ∈ types, type.InScope (s.frame :: outer)

namespace CheckState.Ready

variable {α : Type} {s t : CheckState} {outer : Scope} {types : List Ty} {type : Ty} {c : Check α}
  {ok : α → Prop} {a : α}

/-- Nothing is at hand. -/
theorem of_contained (h : s.Contained outer) : s.Ready outer [] :=
  ⟨h, fun _ ht => nomatch ht⟩

theorem cons (h : s.Ready outer types) (htype : type.InScope (s.frame :: outer)) :
    s.Ready outer (type :: types) :=
  ⟨h.toContained, List.forall_mem_cons.2 ⟨htype, h.types⟩⟩

theorem begin (h : s.Ready outer types) :
    { s with registry := s.registry.begin }.Ready outer types :=
  ⟨h.toContained.begin, h.types⟩

/-- What is at hand stays at hand when the frame stays the same. -/
theorem next (h : s.Ready outer types) (hc : c.Inside s.frame outer ok) (hrun : c s = .ok a t) :
    t.Ready outer types ∧ t.frame = s.frame ∧ ok a := by
  obtain ⟨⟨ht, hframe⟩, ha⟩ := (hc s h.toContained rfl).of_ok hrun
  refine ⟨⟨ht, ?_⟩, hframe, ha⟩
  rw [hframe]
  exact h.types

/-- The type of an expression that was checked is at hand. -/
theorem expr {c : Check TypedExpr} {e : TypedExpr} (h : s.Ready outer types)
    (hc : c.ScopedExpr s.frame outer) (hrun : c s = .ok e t) :
    t.Ready outer (e.type.type :: types) := by
  obtain ⟨ht, hframe, he⟩ := h.next hc hrun
  refine ht.cons ?_
  rw [hframe]
  exact he

end CheckState.Ready

/-! ## Along a check -/

open Check Context

section

variable {I : Point → Prop} (hI : ∀ p : Point, p.Fits → I p)
include hI

variable {α : Type} {ctx : Context} {s : CheckState} {types : List Ty}

theorem CheckState.Ready.point (hs : s.Ready ctx.outer types) : I (ctx.point s types) :=
  hI _ ⟨hs.frames, hs.types⟩

theorem CheckState.Contained.point (hs : s.Contained ctx.outer) : I (ctx.point s []) :=
  (CheckState.Ready.of_contained hs).point hI

/-- Both ends of a check that leaves the frame alone. -/
theorem Check.Inside.atEnds {c : Check α} {checked : α → List Ty} {ok : α → Prop}
    (hs : s.Ready ctx.outer types) (hc : c.Inside s.frame ctx.outer ok)
    (hok : ∀ a, ok a → ∀ type ∈ checked a, type.InScope (s.frame :: ctx.outer)) :
    c.AtEnds I checked ctx s types := by
  refine ⟨hs.point hI, (hc s hs.toContained rfl).mono ?_ ?_⟩
  · rintro a t ⟨⟨ht, hframe⟩, ha⟩
    have hready : t.Ready ctx.outer (checked a ++ types) := by
      refine ⟨ht, ?_⟩
      rw [hframe, List.forall_mem_append]
      exact ⟨hok a ha, hs.types⟩
    exact hready.point hI
  · rintro d t ⟨ht, hframe⟩
    have hready : t.Ready ctx.outer types := by
      refine ⟨ht, ?_⟩
      rw [hframe]
      exact hs.types
    exact hready.point hI

/-- Both ends of the check of an expression. -/
theorem Check.Inside.atEnds_expr {c : Check TypedExpr} (hs : s.Ready ctx.outer types)
    (hc : c.ScopedExpr s.frame ctx.outer) :
    c.AtEnds I (fun e => [e.type.type]) ctx s types :=
  hc.atEnds hI hs fun e he type htype => by rwa [List.mem_singleton.1 htype]

/-- Both ends of a check after which nothing is at hand. -/
theorem Check.ConfinedFrom.atEnds {c : Check α} {checked : α → List Ty}
    (hs : s.Contained ctx.outer)
    (hc : c.ConfinedFrom s ctx.outer fun a t =>
      ∀ type ∈ checked a, type.InScope (t.frame :: ctx.outer)) :
    c.AtEnds I checked ctx s [] := by
  refine ⟨hs.point hI, Ends.mono hc ?_ ?_⟩
  · rintro a t ⟨ht, ha⟩
    have hready : t.Ready ctx.outer (checked a ++ []) := by
      rw [List.append_nil]
      exact ⟨ht, ha⟩
    exact hready.point hI
  · exact fun d t ht => ht.point hI

/-! ### Parameters and bodies -/

/-- Along the declarations of parameters, each of which keeps the types in scope. -/
theorem Parameter.throughout {enter : Context → Parameter → Check α} (kept : CheckState → Prop)
    (hkept : ∀ s, kept s → s.Contained ctx.outer)
    (henter : ∀ p s, kept s → (enter ctx p).Ends s (fun _ t => kept t) (fun _ _ => True))
    (parameters : List Parameter) (hs : kept s) :
    Parameter.Throughout I enter parameters ctx s := by
  induction parameters generalizing s with
  | nil => exact (hkept s hs).point hI
  | cons p rest ih =>
    refine ⟨ConfinedFrom.atEnds hI (hkept s hs) ?_, fun a t hrun => ih ((henter p s hs).of_ok hrun)⟩
    refine (declareParameter_confined p (hkept s hs)).mono ?_
    rintro declared t ⟨htypes, hdeclared⟩ type htype
    rw [List.mem_singleton.1 htype]
    refine hdeclared.mono fun name type hfind => ?_
    rwa [Scope.findType?_of_types_eq htypes]

/-- Along the parameters of a function, in a frame of their own. -/
theorem Parameter.throughout_function (parameters : List Parameter) (hs : s.Contained ctx.outer) :
    Parameter.Throughout I Context.declareParameter parameters (ctx.inside s.frame) s.atHead := by
  refine Parameter.throughout hI (fun t => t.Contained (s.frame :: ctx.outer)) (fun _ h => h)
    (fun p s hs => ?_) parameters (hs.begin.inside (Frame.Fits.empty _ _))
  exact Ends.mono (declareParameter_confined p hs) (fun _ _ ht => ht.1) fun _ _ _ => trivial

/-- Along the parameters of the class `c`, in a frame of their own. -/
theorem Parameter.throughout_class {c : ClassRef} (parameters : List Parameter)
    (hs : s.Forming c ctx.outer) :
    Parameter.Throughout I (fun ctx => ctx.classParameter c) parameters ctx s :=
  Parameter.throughout hI (fun t => t.Forming c ctx.outer) (fun _ h => h.toContained)
    (fun p _ hs => (classParameter_forming p hs).mono (fun _ _ ht => ht) fun _ _ _ => trivial)
    parameters hs

end

/-- A body starts with all types in scope, in the frame of the parameters. -/
theorem Context.HeadFits.atBody {ctx : Context} {head : FunctionHead} {t : CheckState}
    (h : ctx.HeadFits head t) : (t.atBody head.frame).Contained (t.frame :: ctx.outer) :=
  (h.contained.inside h.frame).setReturned false

/-- The same when the function itself was entered and declared meanwhile. -/
theorem Context.HeadFits.atBody_of_declared {ctx : Context} {head : FunctionHead}
    {t u : CheckState} (h : ctx.HeadFits head t) {name : String} {type : Slot Ty} {id : DeclId}
    (hinsert : Check.insertDeclaration name type t = .ok id u) {frame : Frame}
    (hdeclare : t.frame.declareFunction name ⟨some id, head.function⟩ = some frame) :
    (u.atBody head.frame).Contained (frame :: ctx.outer) := by
  cases hinsert
  have hfits := h.contained.frames.1.declareFunction hdeclare h.type
  have htypes := Frame.types_of_declareFunction hdeclare
  have hframe := h.frame.of_outer fun name => Scope.findType?_of_types_eq htypes ctx.outer name
  exact ((h.contained.setFrame hfits htypes).inside hframe).of_eq rfl rfl

theorem CheckState.Contained.atBlock {s : CheckState} {outer : Scope} (hs : s.Contained outer) :
    s.atBlock.Contained (s.frame :: outer) :=
  hs.inside (Frame.Fits.empty _ _)

/-! ### Expressions and statements -/

section

variable {I : Point → Prop} {ctx : Context} {s : CheckState} {types : List Ty} {e : Expr}
  (howner : e.form.OwnerHas fun owner => ∀ ctx s types, s.Ready ctx.outer types →
    owner.Throughout I ctx s types)
  (hs : s.Ready ctx.outer types)
include howner hs

theorem throughoutTarget_of_owner : e.ThroughoutTarget I ctx s types := by
  obtain ⟨form, span⟩ := e
  cases form with
  | member owner name nameSpan => exact howner ctx s types hs
  | _ => trivial

theorem throughoutCallee_of_owner (htidy : e.Tidy) (he : e.Throughout I ctx s types)
    {arguments : CheckState → List Ty → Prop}
    (harguments : ∀ t types, t.Ready ctx.outer types → arguments t types) :
    e.ThroughoutCallee I ctx s types arguments := by
  have hcallee (e : Expr) (htidy : e.Tidy) (callee : TypedExpr) (t : CheckState)
      (hrun : e.check ctx s = .ok callee t) : arguments t (callee.type.type :: types) :=
    harguments t _ (hs.expr (e.check_scoped htidy ctx s.frame) hrun)
  obtain ⟨form, span⟩ := e
  cases form with
  | symbol name => exact harguments s types hs
  | member owner name nameSpan => exact ⟨howner ctx s types hs, hcallee owner htidy⟩
  | _ => exact ⟨he, hcallee _ htidy⟩

end

section

variable {I : Point → Prop}

mutual

/-- At all points of the check of an expression the types that are seen are in scope. -/
theorem Expr.throughout (hI : ∀ p : Point, p.Fits → I p) : ∀ e : Expr, e.Tidy →
    ∀ (ctx : Context) (s : CheckState) (types : List Ty), s.Ready ctx.outer types →
      e.Throughout I ctx s types
  | ⟨form, span⟩, h, ctx, s, types, hs =>
    ⟨(form.check_scoped h span ctx s.frame).atEnds_expr hI hs, form.throughout hI h ctx s types hs⟩

theorem ExprForm.throughout (hI : ∀ p : Point, p.Fits → I p) : ∀ form : ExprForm, form.Tidy →
    ∀ (ctx : Context) (s : CheckState) (types : List Ty), s.Ready ctx.outer types →
      form.Throughout I ctx s types
  | .number _, _, _, _, _, _ => trivial
  | .text _, _, _, _, _, _ => trivial
  | .bool _, _, _, _, _, _ => trivial
  | .symbol _, _, _, _, _, _ => trivial
  | .member owner _ _, h, ctx, s, types, hs => owner.throughout hI h ctx s types hs
  | .assign target value, h, ctx, s, types, hs => by
    refine ⟨throughoutTarget_of_owner (target.owner_throughout hI h.1) hs, fun place t hrun => ?_⟩
    obtain ⟨ht, hframe, hplace⟩ := hs.next (checkTarget_scoped (target.owner_scoped h.1)) hrun
    have hready : t.Ready ctx.outer (place.2.type :: types) := by
      refine ht.cons ?_
      rw [hframe]
      exact hplace
    exact ⟨hready.point hI, fun _ => value.throughout hI h.2 _ t _ hready⟩
  | .binary left operator right, h, ctx, s, types, hs => by
    refine ⟨left.throughout hI h.1 ctx s types hs, fun l t hrun => ?_⟩
    have hready := hs.expr (left.check_scoped h.1 ctx s.frame) hrun
    exact ⟨hready.point hI, fun _ => right.throughout hI h.2 _ t _ hready⟩
  | .unary operator operand, h, ctx, s, types, hs =>
    ⟨hs.point hI, fun _ => operand.throughout hI h _ s types hs⟩
  | .call callee arguments, h, ctx, s, types, hs =>
    throughoutCallee_of_owner (callee.owner_throughout hI h.1) hs h.1
      (callee.throughout hI h.1 ctx s types hs) fun t types ht =>
        Expr.throughoutEach hI arguments h.2 ctx t types ht
  | .new className arguments, h, ctx, s, types, hs =>
    Expr.throughoutEach hI arguments h ctx s types hs
  | .lambda ⟨parameters, result?, ⟨body, bodySpan⟩⟩, h, ctx, s, types, hs => by
    refine ⟨Parameter.throughout_function hI parameters hs.toContained, fun head t hrun => ?_⟩
    obtain ⟨-, hhead⟩ := (functionHead_ends parameters result? hs.toContained.begin).of_ok hrun
    exact Stmt.throughoutAll hI body h _ _ hhead.atBody
  | .group inner, h, ctx, s, types, hs =>
    ⟨hs.point hI, fun _ => inner.throughout hI h _ s types hs⟩

theorem Expr.owner_throughout (hI : ∀ p : Point, p.Fits → I p) : ∀ e : Expr, e.Tidy →
    e.form.OwnerHas fun owner => ∀ ctx s types, s.Ready ctx.outer types →
      owner.Throughout I ctx s types
  | ⟨.member owner _ _, _⟩, h => owner.throughout hI h
  | ⟨.number _, _⟩, _ | ⟨.text _, _⟩, _ | ⟨.bool _, _⟩, _ | ⟨.symbol _, _⟩, _
  | ⟨.assign _ _, _⟩, _ | ⟨.binary _ _ _, _⟩, _ | ⟨.unary _ _, _⟩, _ | ⟨.call _ _, _⟩, _
  | ⟨.new _ _, _⟩, _ | ⟨.lambda _, _⟩, _ | ⟨.group _, _⟩, _ => trivial

theorem Expr.throughoutEach (hI : ∀ p : Point, p.Fits → I p) : ∀ es : List Expr, Expr.AllTidy es →
    ∀ (ctx : Context) (s : CheckState) (types : List Ty), s.Ready ctx.outer types →
      Expr.ThroughoutEach I es ctx s types
  | [], _, _, _, _, hs => hs.point hI
  | e :: rest, h, ctx, s, types, hs => by
    refine ⟨⟨hs.point hI, fun _ => e.throughout hI h.1 _ s types hs⟩, fun a t hrun => ?_⟩
    have hready := hs.expr (.nested (e.check_scoped h.1 _ s.frame)) hrun
    exact Expr.throughoutEach hI rest h.2 ctx t _ hready

/-- At all points of the check of a statement the types that are seen are in scope. -/
theorem Stmt.throughout (hI : ∀ p : Point, p.Fits → I p) : ∀ stmt : Stmt, stmt.Tidy →
    ∀ (ctx : Context) (s : CheckState), s.Contained ctx.outer → stmt.Throughout I ctx s
  | ⟨form, span⟩, h, ctx, s, hs => by
    refine ⟨ConfinedFrom.atEnds hI hs ?_, form.throughout hI h ctx s hs⟩
    exact (form.check_confined h span ctx s hs).mono fun _ _ _ _ htype => nomatch htype

theorem StmtForm.throughout (hI : ∀ p : Point, p.Fits → I p) : ∀ form : StmtForm, form.Tidy →
    ∀ (ctx : Context) (s : CheckState), s.Contained ctx.outer → form.Throughout I ctx s
  | .expression e, h, ctx, s, hs =>
    ⟨hs.point hI, fun _ => e.throughout hI h _ s [] (.of_contained hs)⟩
  | .varDecl name nameSpan mode none (some value), h, ctx, s, hs =>
    ⟨hs.point hI, fun _ => value.throughout hI h _ _ [] (.of_contained hs.begin)⟩
  | .varDecl name nameSpan mode (some t) (some value), h, ctx, s, hs => by
    intro declared hdeclared
    have htype := hs.frames.resolveValue hdeclared
    split
    · intro id u hrun
      -- the variable is in the frame already when its value is checked
      obtain ⟨hu, htypes⟩ := (declareVariable_confined nameSpan hs.begin htype).of_ok hrun
      have hready : u.Ready ctx.outer [declared] := by
        refine (CheckState.Ready.of_contained hu).cons (htype.mono fun name type hfind => ?_)
        rwa [Scope.findType?_of_types_eq htypes]
      exact ⟨hready.point hI, fun _ => value.throughout hI h _ u _ hready⟩
    · have hready : s.Ready ctx.outer [declared] := (CheckState.Ready.of_contained hs).cons htype
      exact ⟨hready.point hI, fun _ => value.throughout hI h _ _ _ hready.begin⟩
  | .varDecl _ _ _ none none, _, _, _, _ => trivial
  | .varDecl _ _ _ (some _) none, _, _, _, _ => trivial
  | .classDecl name nameSpan parameters members, h, ctx, s, hs => by
    intro hnew c t hrun
    obtain ⟨ht, hforms⟩ := (declareClass_confined hs h.1 hnew).of_ok hrun
    have hstart : t.atClass.Forming c (t.frame :: ctx.outer) :=
      ⟨(ht.begin.setReturned false).inside (Frame.Fits.empty _ _), rfl, hforms⟩
    refine ⟨Parameter.throughout_class hI parameters hstart, fun ids u hparameters => ?_⟩
    have hu := (classParameters_forming parameters hstart).of_ok hparameters
    exact Stmt.throughoutMembers hI members h.2.1 h.2.2 parameters c _ _ hu.inNewFrame
  | .fnDecl name nameSpan ⟨parameters, result?, ⟨body, bodySpan⟩⟩, h, ctx, s, hs => by
    refine ⟨Parameter.throughout_function hI parameters hs, fun head t hrun => ?_⟩
    obtain ⟨-, hhead⟩ := (functionHead_ends parameters result? hs.begin).of_ok hrun
    intro id u hinsert frame hdeclare
    have hbody := hhead.atBody_of_declared hinsert hdeclare
    exact Stmt.throughoutAll hI body h _ _ hbody
  | .ret (some value), h, ctx, s, hs =>
    ⟨hs.point hI, fun _ => value.throughout hI h _ s [] (.of_contained hs)⟩
  | .ret none, _, _, _, _ => trivial
  | .block ⟨body, _⟩, h, ctx, s, hs => Stmt.throughoutAll hI body h _ _ hs.atBlock
  | .branch condition thenBody (some elseBody), h, ctx, s, hs => by
    refine ⟨⟨hs.point hI, fun _ => condition.throughout hI h.1 _ s [] (.of_contained hs)⟩,
      fun c t hrun => ?_⟩
    have ht := (condition.nested_confined h.1 ctx s hs).of_ok hrun
    refine ⟨⟨ht.1.atBlock.point hI, fun _ => thenBody.throughout hI h.2.1 _ _ ht.1.atBlock⟩,
      fun b u hthen => ?_⟩
    have hbody : (ctx.inNewFrame fun ctx => ctx.nested thenBody.span thenBody.check).Confined
        ctx.outer := .inNewFrame fun _ => .nested (thenBody.check_confined h.2.1)
    have hu := (hbody t ht.1).of_ok hthen
    exact ⟨hu.1.atBlock.point hI, fun _ => elseBody.throughout hI h.2.2 _ _ hu.1.atBlock⟩
  | .branch condition thenBody none, h, ctx, s, hs => by
    refine ⟨⟨hs.point hI, fun _ => condition.throughout hI h.1 _ s [] (.of_contained hs)⟩,
      fun c t hrun => ?_⟩
    have ht := (condition.nested_confined h.1 ctx s hs).of_ok hrun
    exact ⟨ht.1.atBlock.point hI, fun _ => thenBody.throughout hI h.2 _ _ ht.1.atBlock⟩
  | .loop condition body, h, ctx, s, hs => by
    refine ⟨⟨hs.point hI, fun _ => condition.throughout hI h.1 _ s [] (.of_contained hs)⟩,
      fun c t hrun => ?_⟩
    have ht := (condition.nested_confined h.1 ctx s hs).of_ok hrun
    exact ⟨ht.1.atBlock.point hI, fun _ => body.throughout hI h.2 _ _ ht.1.atBlock⟩
  | .print value, h, ctx, s, hs =>
    ⟨hs.point hI, fun _ => value.throughout hI h _ s [] (.of_contained hs)⟩

theorem Stmt.throughoutAll (hI : ∀ p : Point, p.Fits → I p) : ∀ stmts : List Stmt,
    Stmt.AllTidy stmts → ∀ (ctx : Context) (s : CheckState), s.Contained ctx.outer →
      Stmt.ThroughoutAll I stmts ctx s
  | [], _, _, _, hs => hs.point hI
  | stmt :: rest, h, ctx, s, hs => by
    refine ⟨⟨hs.point hI, fun _ => stmt.throughout hI h.1 _ s hs⟩, fun typed t hrun => ?_⟩
    have hstmt : (ctx.nested stmt.span stmt.check).Confined ctx.outer :=
      .nested (stmt.check_confined h.1)
    have ht := (hstmt s hs).of_ok hrun
    exact Stmt.throughoutAll hI rest h.2 ctx t ht.1

theorem Stmt.throughoutMembers (hI : ∀ p : Point, p.Fits → I p) : ∀ members : List Stmt,
    Stmt.AllTidy members → (∀ member ∈ members, member.memberName?.isSome) →
      ∀ (parameters : List Parameter) (c : ClassRef) (ctx : Context) (s : CheckState),
        s.Forming c ctx.outer → Stmt.ThroughoutMembers I members parameters c ctx s
  | [], _, _, _, _, _, _, hs => hs.toContained.point hI
  | member :: rest, h, hnames, parameters, c, ctx, s, hs => by
    rw [List.forall_mem_cons] at hnames
    refine ⟨hs.toContained.point hI, fun a t hexpect => ?_⟩
    obtain rfl := (expectNoParameter_same parameters member s).of_ok hexpect
    refine ⟨⟨hs.toContained.point hI, fun _ => member.throughout hI h.1 _ t hs.toContained⟩,
      fun typed u hrun b v henter => ?_⟩
    have hmember := nestedMember_forming hnames.1 (member.check_confined h.1) hs
    obtain ⟨hu, hdeclares⟩ := hmember.of_ok hrun
    obtain ⟨hv, -⟩ := (enterMember_forming hu hdeclares).of_ok henter
    exact Stmt.throughoutMembers hI rest h.2 hnames.2 parameters c ctx v hv

end

end

end Nominal
