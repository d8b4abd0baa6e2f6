import Nominal.Proofs.Typing.Confined.Expressions
import Nominal.Proofs.Typing.FrameEffect
import Nominal.Proofs.Typing.Parts

/-!
# Declarations keep types in scope

What a declaration puts into the current frame is of a type in scope: it was written there, or it is
the type of a value that was checked there. A body stands in a frame of its own, so that what it
declares is gone with this frame. A class changes only while its own body is checked, where no frame
declares types but the one that it stands in (`CheckState.Forming`), so that what its members are of
is in scope in that frame as well.
-/

namespace Nominal

namespace Context

open Check

variable {ctx : Context} {name : String} {nameSpan valueSpan bodySpan span : Span} {type : Slot Ty}
  {mode : Mode} {outer : Scope} {s : CheckState} {value : Check TypedExpr}
  {body : Context → Check (List TypedStmt)}

/-- A frame that fits into the current one, as the context of what is checked in it sees it. -/
theorem contained_inside (ctx : Context) {frame : Frame} (hs : s.Contained ctx.outer)
    (hframe : frame.Fits (s.frame :: ctx.outer) s.classes) :
    { s with frame }.Contained { ctx with outer := s.frame :: ctx.outer }.outer :=
  hs.inside hframe

/-! ## Declarations in the current frame -/

theorem bind_confined (refused : Cause) (hs : s.Contained outer)
    (htype : type.type.InScope (s.frame :: outer)) :
    (bind name type refused span).ConfinedFrom s outer fun _ t =>
      t.frame.types = s.frame.types := by
  unfold bind ConfinedFrom
  simp only [ends_bind, ends_insertDeclaration, ends_get]
  have hinsert : { s with registry := (s.registry.insert name type).2 }.Contained outer :=
    hs.of_eq rfl rfl
  split
  · next frame hdeclare =>
    have htypes := Frame.types_of_declareVariable hdeclare
    exact ⟨hinsert.setFrame (hs.frames.1.declareVariable hdeclare htype) htypes, htypes⟩
  · exact hinsert

theorem declareParameter_confined (p : Parameter) (hs : s.Contained ctx.outer) :
    (ctx.declareParameter p).ConfinedFrom s ctx.outer fun declared t =>
      t.frame.types = s.frame.types ∧ declared.2.type.InScope (s.frame :: ctx.outer) := by
  unfold declareParameter ConfinedFrom
  rw [ends_bind, ends_scope, ends_bind, ends_ofExcept]
  refine ⟨fun type htype => ?_, fun _ _ => hs⟩
  have hscope := hs.frames.resolveValue htype
  rw [ends_bind]
  exact (bind_confined _ hs hscope).mono fun id t ht => ⟨ht, hscope⟩

theorem declareParameters_confined (parameters : List Parameter) (hs : s.Contained ctx.outer) :
    (parameters.mapM ctx.declareParameter).ConfinedFrom s ctx.outer fun declared t =>
      t.frame.types = s.frame.types ∧
        ∀ d ∈ declared, d.2.type.InScope (s.frame :: ctx.outer) := by
  induction parameters generalizing s with
  | nil => exact .pure hs ⟨rfl, fun d hd => nomatch hd⟩
  | cons p rest ih =>
    rw [List.mapM_cons]
    refine (declareParameter_confined p hs).bind fun first t ht ⟨htypes, hfirst⟩ => ?_
    refine (ih ht).bind fun others u hu ⟨htypes', hothers⟩ => .pure hu ⟨htypes'.trans htypes, ?_⟩
    rw [List.forall_mem_cons]
    refine ⟨hfirst, fun d hd => (hothers d hd).mono fun name type hfind => ?_⟩
    -- the parameters before it are no types
    rwa [Scope.findType?_of_types_eq htypes] at hfind

/-! ## Functions -/

/-- The head of a function is over: the frame of its parameters fits into the current one, and the
function is of a type in scope. -/
structure HeadFits (ctx : Context) (head : FunctionHead) (t : CheckState) : Prop where
  contained : t.Contained ctx.outer
  frame : head.frame.Fits (t.frame :: ctx.outer) t.classes
  type : head.function.type.InScope (t.frame :: ctx.outer)

theorem parameterHead_ends (parameters : List Parameter) {result : Ty} (hs : s.Contained ctx.outer)
    (hresult : result.InScope (s.frame :: ctx.outer)) :
    (ctx.parameterHead parameters result).Ends s
      (fun head t => t.frame = s.frame ∧ ctx.HeadFits head t)
      (fun _ t => t.Contained ctx.outer ∧ t.frame = s.frame) := by
  unfold parameterHead inNewFrame
  rw [ends_inFrame, ends_bind]
  have hdeclared := declareParameters_confined parameters
    (ctx.contained_inside hs (Frame.Fits.empty _ _))
  refine Ends.mono hdeclared ?_ fun d t ht => ⟨hs.outside ht, rfl⟩
  rintro declared t ⟨ht, -, hdeclared⟩
  refine ⟨rfl, hs.outside ht, ht.frames.1, .function (fun p hp => ?_) hresult⟩
  obtain ⟨d, hd, rfl⟩ := List.mem_map.1 hp
  -- the frame of the parameters began without types
  exact (hdeclared d hd).mono fun name type hfind =>
    (Scope.findType?_of_untyped rfl _ name).symm.trans hfind

theorem functionHead_ends (parameters : List Parameter) (result? : Option TypeExpr)
    (hs : s.Contained ctx.outer) :
    (ctx.functionHead parameters result?).Ends s
      (fun head t => t.frame = s.frame ∧ ctx.HeadFits head t)
      (fun _ t => t.Contained ctx.outer ∧ t.frame = s.frame) := by
  rw [functionHead_eq]
  cases result? with
  | none => exact parameterHead_ends parameters hs (hs.builtin (by decide))
  | some t =>
    show (ctx.scope >>= _).Ends s _ _
    rw [ends_bind, ends_scope, ends_bind, ends_ofExcept]
    exact ⟨fun result hresult => parameterHead_ends parameters hs (hs.frames.resolve hresult),
      fun _ _ => ⟨hs, rfl⟩⟩

theorem functionBody_confined {head : FunctionHead} (name? : Option String)
    (hs : s.Contained ctx.outer) (hframe : head.frame.Fits (s.frame :: ctx.outer) s.classes)
    (hbody : ∀ ctx, (body ctx).Confined ctx.outer) :
    (ctx.functionBody head name? bodySpan body).Ends s
      (fun _ t => t.Contained ctx.outer ∧ t.frame = s.frame)
      (fun _ t => t.Contained ctx.outer ∧ t.frame = s.frame) := by
  unfold functionBody
  rw [ends_bind, ends_apart, ends_inFrame]
  have hstart := (hs.setReturned false).inside hframe
  refine Ends.mono (hbody _ _ hstart) ?_ fun d t ht => ⟨(hs.outside ht).of_eq rfl rfl, rfl⟩
  rintro stmts t ⟨ht, -⟩
  have hafter := (hs.outside ht).setReturned s.returned
  dsimp only
  split
  · exact ⟨hafter, rfl⟩
  · exact ⟨hafter, rfl⟩

theorem lambda_scoped {frame : Frame} (parameters : List Parameter) (result? : Option TypeExpr)
    (hbody : ∀ ctx, (body ctx).Confined ctx.outer) :
    (ctx.lambda parameters result? bodySpan body span).ScopedExpr frame ctx.outer := by
  rintro s hs rfl
  unfold lambda
  rw [ends_transaction, ends_bind]
  refine (functionHead_ends parameters result? hs.begin).mono ?_
    fun d t ht => ⟨ht.1.of_eq rfl rfl, ht.2⟩
  rintro head t ⟨hframe, hhead⟩
  rw [ends_bind]
  refine (functionBody_confined none hhead.contained hhead.frame hbody).mono ?_ ?_
  · rintro stmts u ⟨hu, hsame⟩
    refine ⟨⟨hu.of_eq rfl rfl, hsame.trans hframe⟩, ?_⟩
    have htype := hhead.type
    rw [hframe] at htype
    exact htype
  · exact fun d u hu => ⟨hu.1.of_eq rfl rfl, hu.2.trans hframe⟩

theorem fnDecl_confined (parameters : List Parameter) (result? : Option TypeExpr)
    (hbody : ∀ ctx, (body ctx).Confined ctx.outer) :
    (ctx.fnDecl name nameSpan parameters result? bodySpan body span).Confined ctx.outer := by
  intro s hs
  unfold fnDecl ConfinedFrom
  rw [ends_transaction, ends_bind]
  refine (functionHead_ends parameters result? hs.begin).mono ?_ fun d t ht => ht.1.of_eq rfl rfl
  rintro head t ⟨hframe, hhead⟩
  simp only [ends_bind, ends_insertDeclaration, ends_get]
  have hinsert : { t with registry := (t.registry.insert name ⟨.val, head.function.type⟩).2
      }.Contained ctx.outer := hhead.contained.of_eq rfl rfl
  split
  · exact hinsert.of_eq rfl rfl
  · next frame hdeclare =>
    have htypes := Frame.types_of_declareFunction hdeclare
    have hfunction := hhead.contained.frames.1.declareFunction hdeclare hhead.type
    rw [ends_bind, ends_setFrame, ends_bind, ends_undoing]
    -- the frame of the parameters fits into the one that has the function as well
    have hparameters : head.frame.Fits (frame :: ctx.outer) t.classes :=
      hhead.frame.of_outer fun name => Scope.findType?_of_types_eq htypes _ name
    refine (functionBody_confined (some name) (hinsert.setFrame hfunction htypes) hparameters
      hbody).mono ?_ ?_
    · exact fun stmts u hu => ⟨hu.1.of_eq rfl rfl, trivial⟩
    · rintro d u ⟨hu, hsame⟩
      have hremoved := hu.frames.1.removeFunction name
        (t.registry.insert name ⟨.val, head.function.type⟩).1
      exact (hu.setFrame hremoved (Frame.types_removeFunction _ _ _)).of_eq rfl rfl

/-! ## Variables -/

theorem declareVariable_confined (span : Span) (hs : s.Contained ctx.outer)
    (htype : type.type.InScope (s.frame :: ctx.outer)) :
    (ctx.declareVariable name type span).ConfinedFrom s ctx.outer fun _ t =>
      t.frame.types = s.frame.types :=
  bind_confined _ hs htype

theorem typedVariable_confined (hs : s.Contained ctx.outer)
    (htype : type.type.InScope (s.frame :: ctx.outer)) :
    (ctx.typedVariable name nameSpan type span).ConfinedFrom s ctx.outer fun _ _ => True := by
  unfold typedVariable
  exact (declareVariable_confined _ hs htype).bind fun id t ht _ => .pure ht trivial

theorem valueInto_scoped {frame : Frame} (hvalue : value.ScopedExpr frame outer) (type : Slot Ty) :
    (valueInto value type valueSpan).ScopedExpr frame outer := by
  unfold valueInto
  exact hvalue.bind fun v hv => .expect_bind (.pure hv)

theorem initialisedVariable_confined (hvalue : ∀ frame, value.ScopedExpr frame ctx.outer)
    (hs : s.Contained ctx.outer) (htype : type.type.InScope (s.frame :: ctx.outer)) :
    (ctx.initialisedVariable name nameSpan type value valueSpan span).ConfinedFrom s ctx.outer
      fun _ _ => True := by
  unfold initialisedVariable
  refine ((hvalue s.frame).from hs).bind fun v t ht ⟨hframe, _⟩ => .expect_bind ht ?_
  rw [← hframe] at htype
  exact (declareVariable_confined _ ht htype).bind fun id u hu _ => .pure hu trivial

theorem inferredVariable_confined (hvalue : ∀ frame, value.ScopedExpr frame ctx.outer)
    (hs : s.Contained ctx.outer) :
    (ctx.inferredVariable name nameSpan mode value valueSpan span).ConfinedFrom s ctx.outer
      fun _ _ => True := by
  unfold inferredVariable
  refine ((hvalue s.frame).from hs).bind fun v t ht ⟨hframe, hv⟩ => ?_
  rw [← hframe] at hv
  split
  · have hdeclare (nameSpan : Span) :
        (ctx.declareVariable name ⟨mode, v.type.type⟩ nameSpan).ConfinedFrom t ctx.outer
          fun _ u => u.frame.types = t.frame.types := declareVariable_confined nameSpan ht hv
    exact .expect_bind ht ((hdeclare nameSpan).bind fun id u hu _ => .pure hu trivial)
  · exact .fail ht _ _

theorem recursiveVariable_confined (hvalue : ∀ frame, value.ScopedExpr frame ctx.outer)
    (hs : s.Contained ctx.outer) (htype : type.type.InScope (s.frame :: ctx.outer)) :
    (ctx.recursiveVariable name nameSpan type value valueSpan span).ConfinedFrom s ctx.outer
      fun _ _ => True := by
  rw [recursiveVariable_eq]
  refine (declareVariable_confined _ hs htype).bind fun id t ht _ => ?_
  unfold ConfinedFrom
  rw [ends_bind, ends_undoing]
  refine (valueInto_scoped (hvalue t.frame) type t ht rfl).mono ?_ ?_
  · exact fun v u hu => ⟨hu.1.1, trivial⟩
  · intro d u ⟨hu, hframe⟩
    exact hu.setFrame (hu.frames.1.removeVariable name) rfl

theorem varDecl_confined (type? : Option TypeExpr) {value? : Option (Span × Check TypedExpr)}
    (hvalue : ∀ value ∈ value?, ∀ frame, value.2.ScopedExpr frame ctx.outer) :
    (ctx.varDecl name nameSpan mode type? value? span).Confined ctx.outer := by
  intro s hs
  unfold varDecl
  split
  · exact .fail hs _ _
  · split
    · next t =>
      unfold ConfinedFrom
      rw [ends_bind, ends_scope, ends_bind, ends_ofExcept]
      refine ⟨fun declared hdeclared => ?_, fun _ _ => hs⟩
      have htype := hs.frames.resolveValue hdeclared
      refine ConfinedFrom.transaction ?_
      split
      · exact typedVariable_confined hs.begin htype
      · next valueSpan value =>
        split
        · exact recursiveVariable_confined (hvalue _ rfl) hs.begin htype
        · exact initialisedVariable_confined (hvalue _ rfl) hs.begin htype
    · refine ConfinedFrom.transaction ?_
      split
      · exact .fail hs.begin _ _
      · next valueSpan value => exact inferredVariable_confined (hvalue _ rfl) hs.begin

/-! ## Returns -/

theorem ret_confined (ctx : Context) (value? : Option (Check TypedExpr))
    (hvalue : ∀ value ∈ value?, ∀ frame, value.ScopedExpr frame ctx.outer) :
    (ctx.ret value? span).Confined ctx.outer := by
  have hfinish (f : FnType) (v? : Option TypedExpr) (t : CheckState) (ht : t.Contained ctx.outer) :
      (finishReturn f span v?).ConfinedFrom t ctx.outer fun _ _ => True := by
    unfold finishReturn
    dsimp only
    split
    · exact ⟨ht.setReturned true, trivial⟩
    · exact .fail ht _ _
  intro s hs
  rw [ret_eq]
  split
  · exact .fail hs _ _
  · next f value _ =>
    have hsome : (some <$> value).ConfinedFrom s ctx.outer fun _ _ => True := by
      unfold ConfinedFrom
      rw [ends_map]
      exact ((hvalue value rfl s.frame).from hs).forget
    exact hsome.bind fun v? t ht _ => hfinish f v? t ht
  · next f _ => exact hfinish f none s hs

end Context

end Nominal
