import Nominal.Proofs.Typing.FrameEffect
import Nominal.Proofs.Typing.Parts
import Nominal.Proofs.Typing.Values.Checks

/-!
# Declarations keep states valued

What is declared has a type that was asked for values before: a written type where it is resolved
(`CheckState.Valued.resolveValue`), and the type of a value where it is inferred. The type of a
function is one of values whatever the function returns. A class is given what its frames declare.
-/

namespace Nominal

namespace Context

open Check

variable {ctx : Context} {name : String} {nameSpan valueSpan bodySpan span : Span} {type : Slot Ty}
  {mode : Mode} {outer : Scope} {s : CheckState} {value : Check TypedExpr}
  {body : Context → Check (List TypedStmt)}

/-! ## Declarations in the current frame -/

theorem bind_values {refused : Cause} (hrefused : refused.isContradictory = false)
    (hs : s.Valued outer) (htype : type.type.Storable s.classes.names) :
    (bind name type refused span).ValuesFrom s outer fun _ _ => True := by
  unfold bind
  refine (ValuesFrom.insertDeclaration hs htype.isValue).bind fun id t _ ht ⟨hframe, hclasses⟩ =>
    .get_bind ?_
  rw [← hclasses] at htype
  split
  · next inner hdeclare =>
    have hinner := ht.frame.declareVariable hdeclare htype
    refine (ValuesFrom.setFrame ht hinner (Frame.types_of_declareVariable hdeclare)).bind ?_
    exact fun _ u _ hu _ => .pure hu trivial
  · exact .fail ht hrefused

theorem declareVariable_values (ctx : Context) (name : String) (nameSpan : Span)
    (hs : s.Valued outer) (htype : type.type.Storable s.classes.names) :
    (ctx.declareVariable name type nameSpan).ValuesFrom s outer fun _ _ => True :=
  bind_values (ctx.isContradictory_alreadyDefined name) hs htype

theorem declareParameter_values (ctx : Context) (p : Parameter) :
    (ctx.declareParameter p).Values ctx.outer fun declared known =>
      declared.2.type.Storable known := by
  intro s hs
  unfold declareParameter
  refine .scope_bind <| (hs.resolveValue p.type).check_bind hs fun type htype => ?_
  exact (bind_values rfl hs htype).bind fun id t hst ht _ => .pure ht (htype.mono hst)

theorem declareParameters_values (ctx : Context) (parameters : List Parameter) :
    (parameters.mapM ctx.declareParameter).Values ctx.outer fun declared known =>
      ∀ d ∈ declared, d.2.type.Storable known := by
  induction parameters with
  | nil => exact .pure fun _ d hd => nomatch hd
  | cons p rest ih =>
    intro s hs
    rw [List.mapM_cons]
    refine (ctx.declareParameter_values p s hs).bind fun first t _ ht hfirst => ?_
    refine (ih t ht).bind fun others u htu hu hothers => .pure hu ?_
    exact List.forall_mem_cons.2 ⟨hfirst.mono htu, hothers⟩

/-! ## Functions -/

/-- The frame of the parameters is valued, and the function takes values. -/
structure HeadValued (head : FunctionHead) (known : List String) : Prop where
  frame : head.frame.Valued known
  type : head.function.type.Proper known

theorem HeadValued.mono {head : FunctionHead} {known known' : List String}
    (h : HeadValued head known) (hknown : known ⊆ known') : HeadValued head known' :=
  ⟨h.frame.mono hknown, h.type.mono hknown⟩

/-- A function is declared with a type that is itself one of values. -/
theorem HeadValued.isValue {head : FunctionHead} {known : List String}
    (h : HeadValued head known) : head.function.type.IsValue :=
  ⟨Ty.name_function_ne (by decide), h.type.takesValues⟩

theorem parameterHead_values (parameters : List Parameter) {result : Ty} (hs : s.Valued ctx.outer)
    (hresult : result.Proper s.classes.names) :
    (ctx.parameterHead parameters result).ValuesFrom s ctx.outer fun head t =>
      HeadValued head t.classes.names := by
  have hinside := hs.inside (.empty s.classes.names)
  unfold parameterHead
  refine .inFrame hs ?_
  refine (declareParameters_values _ parameters _ hinside).bind fun declared t hst ht hdeclared =>
    .get_bind (.pure ht ⟨ht.frame, .function ?_ (hresult.mono hst)⟩)
  intro p hp
  obtain ⟨d, hd, rfl⟩ := List.mem_map.1 hp
  exact hdeclared d hd

theorem functionHead_values (parameters : List Parameter) (result? : Option TypeExpr)
    (hs : s.Valued ctx.outer) :
    (ctx.functionHead parameters result?).ValuesFrom s ctx.outer fun head t =>
      HeadValued head t.classes.names := by
  rw [functionHead_eq]
  cases result? with
  | none => exact parameterHead_values parameters hs (.primitive (by decide))
  | some t =>
    exact .scope_bind <| (hs.resolve t).check_bind hs fun result hresult =>
      parameterHead_values parameters hs hresult

theorem functionBody_values {head : FunctionHead} (name? : Option String)
    (hs : s.Valued ctx.outer) (hhead : HeadValued head s.classes.names)
    (hbody : ∀ ctx, (body ctx).KeepsValues ctx.outer) :
    (ctx.functionBody head name? bodySpan body).ValuesFrom s ctx.outer fun _ _ => True := by
  have hreturned := hs.setReturned false
  have hinside : (inFrame { ctx with function? := some head.function } head.frame body).ValuesFrom
      { s with returned := false } ctx.outer fun _ _ => True :=
    .inFrame_forget hreturned (hbody _ _ (hreturned.inside hhead.frame))
  unfold functionBody
  refine (ValuesFrom.apart hinside).bind ?_
  rintro ⟨stmts, returned⟩ t - ht -
  dsimp only
  split
  · exact .pure ht trivial
  · exact .fail ht rfl

theorem lambda_values (parameters : List Parameter) (result? : Option TypeExpr)
    (hbody : ∀ ctx, (body ctx).KeepsValues ctx.outer) :
    (ctx.lambda parameters result? bodySpan body span).ProperExpr ctx.outer := by
  intro s hs
  unfold lambda
  refine .transaction ?_
  refine (functionHead_values parameters result? hs.begin).bind fun head t _ ht hhead => ?_
  refine (functionBody_values none ht hhead hbody).bind fun stmts u htu hu _ => ?_
  exact .pure hu (hhead.mono htu).type

theorem fnDecl_values (parameters : List Parameter) (result? : Option TypeExpr)
    (hbody : ∀ ctx, (body ctx).KeepsValues ctx.outer) :
    (ctx.fnDecl name nameSpan parameters result? bodySpan body span).KeepsValues ctx.outer := by
  intro s hs
  unfold fnDecl
  refine .transaction ?_
  refine (functionHead_values parameters result? hs.begin).bind fun head t _ ht hhead => ?_
  refine (ValuesFrom.insertDeclaration ht hhead.isValue).bind fun id u htu hu _ => .get_bind ?_
  have hhead := hhead.mono htu
  split
  · exact .fail hu (ctx.isContradictory_alreadyDefined name)
  · next inner hdeclare =>
    have hinner := hu.frame.declareFunction hdeclare hhead.type
    refine (ValuesFrom.setFrame hu hinner (Frame.types_of_declareFunction hdeclare)).bind ?_
    intro _ v huv hv _
    have hstmts : (ctx.functionBody head (some name) bodySpan body).ValuesFrom v ctx.outer
        fun _ _ => True := functionBody_values (some name) hv (hhead.mono huv) hbody
    refine (hstmts.undoing (fun h => h.removeFunction name id) ?_).bind ?_
    · exact fun f => f.types_removeFunction name id
    · exact fun stmts w _ hw _ => .pure hw trivial

/-! ## Variables -/

/-- Declares the variable at the end, when its type is known to be one of values. -/
theorem declareLast_values {initializer? : Option TypedExpr} (hs : s.Valued ctx.outer)
    (htype : type.type.Storable s.classes.names) :
    (ctx.declareVariable name type nameSpan >>= fun id =>
      (return ⟨.varDecl id initializer?, span⟩ : Check TypedStmt)).ValuesFrom s ctx.outer
        fun _ _ => True :=
  (ctx.declareVariable_values name nameSpan hs htype).bind fun _ _ _ ht _ => .pure ht trivial

theorem initialisedVariable_values (hvalue : value.ProperExpr ctx.outer) (hs : s.Valued ctx.outer)
    (htype : type.type.Storable s.classes.names) :
    (ctx.initialisedVariable name nameSpan type value valueSpan span).ValuesFrom s ctx.outer
      fun _ _ => True := by
  unfold initialisedVariable
  refine (hvalue s hs).bind fun v t hst ht _ => .expect_bind ht ?_
  exact declareLast_values ht (htype.mono hst)

/-- The type of the value is asked for values, since it is not written. -/
theorem inferredVariable_values (hvalue : value.ProperExpr ctx.outer) :
    (ctx.inferredVariable name nameSpan mode value valueSpan span).KeepsValues ctx.outer := by
  intro s hs
  unfold inferredVariable
  refine (hvalue s hs).bind fun v t _ ht hv => ?_
  split
  · next hvalues => exact .expect_bind ht (declareLast_values ht (hv.storable ht.unclaimed hvalues))
  · exact .fail ht rfl

theorem valueInto_values (hvalue : value.ProperExpr outer) (type : Slot Ty) :
    (valueInto value type valueSpan).KeepsValues outer := by
  intro s hs
  unfold valueInto
  exact (hvalue s hs).bind fun v t _ ht _ => .expect_bind ht (.pure ht trivial)

theorem recursiveVariable_values (hvalue : value.ProperExpr ctx.outer) (hs : s.Valued ctx.outer)
    (htype : type.type.Storable s.classes.names) :
    (ctx.recursiveVariable name nameSpan type value valueSpan span).ValuesFrom s ctx.outer
      fun _ _ => True := by
  rw [recursiveVariable_eq]
  refine (ctx.declareVariable_values name nameSpan hs htype).bind fun id t _ ht _ => ?_
  refine ((valueInto_values hvalue type t ht).undoing (fun h => h.removeVariable name) ?_).bind ?_
  · exact fun _ => rfl
  · exact fun v u _ hu _ => .pure hu trivial

theorem varDecl_values (type? : Option TypeExpr) {value? : Option (Span × Check TypedExpr)}
    (hvalue : ∀ value ∈ value?, value.2.ProperExpr ctx.outer) :
    (ctx.varDecl name nameSpan mode type? value? span).KeepsValues ctx.outer := by
  intro s hs
  unfold varDecl
  split
  · exact .fail hs rfl
  · split
    · next t =>
      refine .scope_bind <| (hs.resolveValue t).check_bind hs fun declared htype => .transaction ?_
      split
      · exact declareLast_values hs.begin htype
      · next valueSpan value =>
        split
        · exact recursiveVariable_values (hvalue _ rfl) hs.begin htype
        · exact initialisedVariable_values (hvalue _ rfl) hs.begin htype
    · refine .transaction ?_
      split
      · exact .fail hs.begin rfl
      · next valueSpan value => exact inferredVariable_values (hvalue _ rfl) _ hs.begin

/-! ## Returns -/

/-- What is reported is compared by the names that are shown. -/
theorem finishReturn_values (f : FnType) (span : Span) (value? : Option TypedExpr)
    (hs : s.Valued outer) :
    (finishReturn f span value?).ValuesFrom s outer fun _ _ => True := by
  unfold finishReturn
  dsimp only
  split
  · exact ⟨List.Subset.refl _, hs.setReturned true, trivial⟩
  · next hunfit =>
    rw [Bool.not_eq_true, Ty.assignableTo, beq_eq_false_iff_ne] at hunfit
    exact .fail hs (beq_eq_false_iff_ne.2 hunfit.symm)

theorem ret_values (ctx : Context) (value? : Option (Check TypedExpr))
    (hvalue : ∀ value ∈ value?, value.KeepsValues ctx.outer) :
    (ctx.ret value? span).KeepsValues ctx.outer := by
  intro s hs
  rw [ret_eq]
  split
  · exact .fail hs rfl
  · next f value _ =>
    rw [map_eq_pure_bind, bind_assoc]
    refine (hvalue value rfl s hs).bind fun v t _ ht _ => ?_
    exact finishReturn_values f span (some v) ht
  · next f _ => exact finishReturn_values f span none hs

/-! ## Classes -/

theorem declareClass_values (hs : s.Valued outer)
    (hnew : Scope.findType? (s.frame :: outer) name = none) :
    (declareClass name).ValuesFrom s outer fun _ _ => True := by
  have hdeclare := Frame.declareType_of_unknown hnew (.cls (s.classes.declare name).1)
  unfold ValuesFrom declareClass
  rw [ends_modifyGet]
  show s.classes.names ⊆ (s.classes.declare name).2.names ∧ CheckState.Valued { s with
      classes := (s.classes.declare name).2
      frame := (s.frame.declareType name (.cls (s.classes.declare name).1)).getD s.frame } _ ∧ True
  rw [hdeclare, ClassTable.names_declare]
  exact ⟨List.subset_append_left _ _, hs.declareClass hnew hdeclare, trivial⟩

theorem classParameter_values (ctx : Context) (c : ClassRef) (p : Parameter) :
    (ctx.classParameter c p).KeepsValues ctx.outer := by
  intro s hs
  unfold classParameter
  refine (ctx.declareParameter_values p s hs).bind fun (id, type) t _ ht htype => ?_
  have hentered (info : ClassInfo) (hinfo : info.Valued t.classes.names) :
      ((info.addParameter type).addMember p.name ⟨type, id⟩).Valued t.classes.names :=
    (hinfo.addParameter htype).addMember p.name htype
  refine (ValuesFrom.updateClass ht c hentered fun _ => rfl).bind ?_
  exact fun _ u _ hu _ => .pure hu trivial

theorem classParameters_values (ctx : Context) (c : ClassRef) (parameters : List Parameter) :
    (parameters.mapM (ctx.classParameter c)).KeepsValues ctx.outer := by
  induction parameters with
  | nil => exact .pure fun _ => trivial
  | cons p rest ih =>
    rw [List.mapM_cons]
    exact (ctx.classParameter_values c p).bind fun _ => ih.bind fun _ => .pure fun _ => trivial

/-- A member that was checked stands in the current frame, whose declarations hold values. -/
theorem enterMember_values {c : ClassRef} {member : Stmt} {typed : TypedStmt} {before : Frame}
    (hs : s.Valued ctx.outer) (hdeclares : member.Declares typed before s.frame) :
    (ctx.enterMember c member typed).ValuesFrom s ctx.outer fun _ _ => True := by
  obtain ⟨form, span⟩ := member
  obtain ⟨typedForm, typedSpan⟩ := typed
  unfold enterMember
  cases form with
  | varDecl name nameSpan mode type? value? =>
    obtain ⟨decl, initializer?, type, hform, -⟩ := hdeclares
    cases hform
    refine .scope_bind ?_
    split
    · next b hb =>
      have hfield (info : ClassInfo) (hinfo : info.Valued s.classes.names) :
          (info.addMember name ⟨b.type, decl⟩).Valued s.classes.names :=
        hinfo.addMember name (hs.findVariable hb)
      exact .updateClass hs c hfield fun _ => rfl
    · exact .pure hs trivial
  | fnDecl name nameSpan signature =>
    obtain ⟨decl, function, ids, stmts, hform, -, -, hself, -, -⟩ := hdeclares
    cases hform
    have hmem : ⟨some decl, function⟩ ∈ s.frame.functions.get name := by
      rw [hself]
      exact List.mem_append_right _ (List.mem_singleton.2 rfl)
    have hmethod (info : ClassInfo) (hinfo : info.Valued s.classes.names) :
        (info.addMethod name ⟨some decl, function⟩).Valued s.classes.names :=
      hinfo.addMethod name (hs.frame.functions name _ hmem)
    exact .updateClass hs c hmethod fun _ => rfl
  | _ => exact .pure hs trivial

theorem expectNoParameter_values (ctx : Context) (parameters : List Parameter) (member : Stmt) :
    (ctx.expectNoParameter parameters member).KeepsValues outer := by
  intro s hs
  unfold expectNoParameter
  split
  · next name _ _ =>
    split
    · exact .fail hs (ctx.isContradictory_alreadyDefined name)
    · exact .pure hs trivial
  · exact .pure hs trivial

/-- What a member does to the frame is known as well. -/
theorem nestedMember_values {member : Stmt}
    (hmember : ∀ ctx, (member.check ctx).KeepsValues ctx.outer) (hs : s.Valued ctx.outer) :
    (ctx.nested member.span member.check).ValuesFrom s ctx.outer fun typed t =>
      member.Declares typed s.frame t.frame := by
  have hframe : (ctx.nested member.span member.check).Ends s
      (fun typed t => member.Declares typed s.frame t.frame) (fun _ _ => True) := by
    rw [ends_nested]
    split
    · exact (member.check_frame _ s).mono (fun _ _ h => h) fun _ _ _ => trivial
    · trivial
  have hnested : (ctx.nested member.span member.check).KeepsValues ctx.outer :=
    .nested (hmember { ctx with depth := ctx.depth + 1 })
  refine ((hnested s hs).and hframe).mono ?_ fun _ _ h => h.1
  exact fun typed t ⟨⟨hst, ht, _⟩, hdeclares⟩ => ⟨hst, ht, hdeclares⟩

theorem checkMembers_values {c : ClassRef} (parameters : List Parameter) {members : List Stmt}
    (hmembers : ∀ member ∈ members, ∀ ctx, (member.check ctx).KeepsValues ctx.outer)
    (ctx : Context) : (Stmt.checkMembers members parameters c ctx).KeepsValues ctx.outer := by
  induction members with
  | nil => exact .pure fun _ => trivial
  | cons member rest ih =>
    obtain ⟨hmember, hrest⟩ := List.forall_mem_cons.1 hmembers
    intro s hs
    rw [Stmt.checkMembers]
    refine (ctx.expectNoParameter_values parameters member s hs).bind fun _ t _ ht _ => ?_
    refine (nestedMember_values hmember ht).bind fun typed u _ hu hdeclares => ?_
    refine (enterMember_values hu hdeclares).bind fun _ v _ hv _ => ?_
    exact (ih hrest v hv).bind fun stmts w _ hw _ => .pure hw trivial

theorem classBody_values (ctx : Context) (c : ClassRef) (parameters : List Parameter)
    {members : List Stmt}
    (hmembers : ∀ member ∈ members, ∀ ctx, (member.check ctx).KeepsValues ctx.outer) :
    (ctx.classBody c parameters (Stmt.checkMembers members parameters c)).KeepsValues
      ctx.outer := by
  unfold classBody
  refine .inNewFrame fun ctx => (ctx.classParameters_values c parameters).bind fun ids => ?_
  have hinside : (ctx.inNewFrame (Stmt.checkMembers members parameters c)).KeepsValues ctx.outer :=
    .inNewFrame (checkMembers_values parameters hmembers)
  exact hinside.bind fun stmts => .pure fun _ => trivial

theorem classDecl_values (parameters : List Parameter) {members : List Stmt}
    (hmembers : ∀ member ∈ members, ∀ ctx, (member.check ctx).KeepsValues ctx.outer) :
    (ctx.classDecl name nameSpan parameters (Stmt.checkMembers members parameters)
      span).KeepsValues ctx.outer := by
  intro s hs
  rw [classDecl_eq]
  refine .scope_bind ?_
  split
  · exact .fail hs rfl
  · next hunknown =>
    have hnew := Option.not_isSome_iff_eq_none.1 hunknown
    refine (declareClass_values hs hnew).bind fun c t _ ht _ => ?_
    have hbody := classBody_values { ctx with function? := none, className? := some name } c
      parameters hmembers
    exact (hbody.transaction.apart t ht).bind fun result u _ hu _ => .pure hu trivial

end Context

end Nominal
