import Nominal.Proofs.Typing.Parts
import Nominal.Proofs.Typing.Soundness.Expressions

/-!
# Functions, variables and returns are well typed

What a declaration puts into the current frame was entered into the registry before, so the frame
stays sound. The frame with the parameters of a function is sound when it is made, and still is when
the body is checked in it; lambdas, functions and their bodies rest on this.
-/

namespace Nominal

namespace Check

/-- A check of a statement that is well typed afterwards, in the function that it stands in. -/
abbrev ChecksStmt (c : Check TypedStmt) (outer : Scope) (function? : Option FnType) : Prop :=
  c.Typed outer fun s w => s.WellTyped w function?

abbrev ChecksStmts (c : Check (List TypedStmt)) (outer : Scope) (function? : Option FnType) :
    Prop :=
  c.Typed outer fun stmts w => TypedStmt.AllWellTyped w stmts function?

end Check

/-- A declaration is registered once it was entered. -/
theorem CheckState.Sound.insert {s : CheckState} {outer : Scope} (hs : s.Sound outer)
    (name : String) (type : Slot Ty) :
    { s with registry := (s.registry.insert name type).2 }.Sound outer :=
  hs.of_entries_eq rfl rfl (by simp [Registry.entries_insert])

theorem CheckState.evolves_insert (s : CheckState) (name : String) (type : Slot Ty) :
    s.Evolves { s with registry := (s.registry.insert name type).2 } :=
  ⟨by simp [Registry.entries_insert], List.prefix_refl _⟩

namespace Context

open Check

variable {ctx : Context} {name : String} {nameSpan valueSpan bodySpan span : Span} {type : Slot Ty}
  {mode : Mode} {outer : Scope} {value : Check TypedExpr} {body : Context → Check (List TypedStmt)}

/-! ## Declarations in the current frame -/

/-- The declaration is entered and stands in the current frame. -/
theorem bind_ends (refused : Cause) {s : CheckState} (hs : s.Sound outer) :
    (bind name type refused span).Ends s
      (fun id t => t.Sound outer ∧ s.Evolves t ∧ ⟨id, name, type⟩ ∈ t.registry.entries)
      (fun _ _ => True) := by
  have hmem : ⟨(s.registry.insert name type).1, name, type⟩ ∈
      (s.registry.insert name type).2.entries := by
    simp [Registry.entries_insert]
  unfold bind
  simp only [ends_bind, ends_insertDeclaration, ends_get]
  split
  · next frame hdeclare =>
    have hinsert := hs.insert name type
    have hframe := hinsert.frame.declareVariable hdeclare hmem
    have hentries := (s.evolves_insert name type).entries
    exact ⟨hinsert.setFrame hframe, ⟨hentries, List.prefix_refl _⟩, hmem⟩
  · trivial

theorem declareVariable_typed (span : Span) :
    (ctx.declareVariable name type span).Typed outer fun id w => w.Registers id name type := by
  intro s hs
  refine (bind_ends _ hs).mono ?_ fun _ _ _ => trivial
  rintro id t ⟨ht, hevolves, hmem⟩
  exact ⟨ht, hevolves, fun w hw => hw.registers hmem⟩

theorem declareParameter_ends (p : Parameter) {s : CheckState} (hs : s.Sound ctx.outer) :
    (ctx.declareParameter p).Ends s
      (fun declared t => t.Sound ctx.outer ∧ s.Evolves t ∧
        ⟨declared.1, p.name, declared.2⟩ ∈ t.registry.entries)
      (fun _ _ => True) := by
  unfold declareParameter
  rw [ends_bind, ends_scope, ends_bind, ends_ofExcept]
  refine ⟨fun type _ => ?_, fun _ _ => trivial⟩
  rw [ends_bind]
  exact bind_ends _ hs

theorem declareParameter_typed (p : Parameter) :
    (ctx.declareParameter p).Typed ctx.outer fun declared w =>
      w.Registers declared.1 p.name declared.2 := by
  intro s hs
  refine (declareParameter_ends p hs).mono ?_ fun _ _ _ => trivial
  rintro declared t ⟨ht, hevolves, hmem⟩
  exact ⟨ht, hevolves, fun w hw => hw.registers hmem⟩

/-- Parameters that are declared one after the other. -/
theorem mapM_typed {α : Type} {f : Parameter → Check α} {ok : α → Setting → Prop}
    (h : ∀ p, (f p).Typed outer ok) (parameters : List Parameter) :
    (parameters.mapM f).Typed outer fun declared w => ∀ a ∈ declared, ok a w := by
  induction parameters with
  | nil => exact .pure fun w a ha => nomatch ha
  | cons p rest ih =>
    rw [List.mapM_cons]
    refine (h p).bind fun first => ih.bind fun others => .pure fun w hothers hfirst a ha => ?_
    rcases List.mem_cons.1 ha with rfl | hrest
    · exact hfirst
    · exact hothers a hrest

theorem registersAll_of_declared {w : Setting} {declared : List (DeclId × Slot Ty)}
    (h : ∀ d ∈ declared, ∃ name, w.Registers d.1 name d.2) :
    w.RegistersAll (declared.map Prod.fst) (declared.map Prod.snd) := by
  unfold Setting.RegistersAll
  rw [List.forall₂_map_left_iff, List.forall₂_map_right_iff, List.forall₂_same]
  exact h

/-! ## Functions -/

/-- A check of the head of a function: its frame is sound, and its parameters are registered. -/
abbrev ChecksHead (c : Check FunctionHead) (s : CheckState) (outer : Scope) : Prop :=
  c.Ends s
    (fun head t => t.Sound outer ∧ s.Evolves t ∧
      head.frame.Sound t.registry.entries t.classes.classes.length ∧
      ∀ w, t.Within w → w.RegistersAll head.parameters head.function.parameters)
    (fun _ _ => True)

theorem parameterHead_typed (parameters : List Parameter) (result : Ty) {s : CheckState}
    (hs : s.Sound ctx.outer) : ChecksHead (ctx.parameterHead parameters result) s ctx.outer := by
  unfold ChecksHead parameterHead inNewFrame
  rw [ends_inFrame, ends_bind]
  have hdeclared : (parameters.mapM
      { ctx with outer := s.frame :: ctx.outer }.declareParameter).Typed (s.frame :: ctx.outer)
      fun declared w => ∀ d ∈ declared, ∃ name, w.Registers d.1 name d.2 :=
    mapM_typed (fun p => (declareParameter_typed p).mono fun d w hd => ⟨p.name, hd⟩) parameters
  refine Ends.mono (hdeclared _ (hs.inside (Frame.sound_empty _ _))) ?_ fun _ _ _ => trivial
  rintro declared t ⟨ht, hevolves, hregistered⟩
  -- the head takes the frame along, and the one around is the current one again
  refine ⟨ht.outside, ⟨hevolves.entries, hevolves.classes⟩, ht.frame, ?_⟩
  intro w hw
  exact registersAll_of_declared (hregistered w ⟨hw.registry, hw.classes⟩)

theorem functionHead_typed (parameters : List Parameter) (result? : Option TypeExpr)
    {s : CheckState} (hs : s.Sound ctx.outer) :
    ChecksHead (ctx.functionHead parameters result?) s ctx.outer := by
  rw [functionHead_eq]
  cases result? with
  | none => exact parameterHead_typed parameters .nothing hs
  | some t =>
    show (ctx.scope >>= _).Ends s _ _
    rw [ends_bind, ends_scope, ends_bind, ends_ofExcept]
    exact ⟨fun result _ => parameterHead_typed parameters result hs, fun _ _ => trivial⟩

theorem functionBody_typed {head : FunctionHead} {name? : Option String} {s : CheckState}
    (hs : s.Sound ctx.outer)
    (hframe : head.frame.Sound s.registry.entries s.classes.classes.length)
    (hbody : ∀ ctx, (body ctx).ChecksStmts ctx.outer ctx.function?) :
    (ctx.functionBody head name? bodySpan body).TypedFrom s ctx.outer fun stmts w =>
      TypedStmt.AllWellTyped w stmts (some head.function) := by
  unfold functionBody
  -- the body starts as if nothing had returned yet
  have hstart := hs.setReturned false
  refine TypedFrom.bind (.apart (.inFrame hstart hframe (hbody _))) ?_
  rintro ⟨stmts, returned⟩
  dsimp only
  split
  · exact .pure fun w hstmts => hstmts
  · exact .fail _ _

theorem lambda_typed (parameters : List Parameter) (result? : Option TypeExpr)
    (hbody : ∀ ctx, (body ctx).ChecksStmts ctx.outer ctx.function?) :
    (ctx.lambda parameters result? bodySpan body span).ChecksExpr ctx.outer := by
  unfold lambda
  refine .transaction fun s hs => ?_
  refine .bind_of_ends (functionHead_typed parameters result? hs) ?_
  intro head t ht _ ⟨hframe, hids⟩
  refine ((functionBody_typed ht hframe hbody).mono fun stmts w hw hstmts => ?_).bind
    fun stmts => .pure fun w h => h
  exact ⟨rfl, hids w hw, hstmts⟩

theorem fnDecl_typed (parameters : List Parameter) (result? : Option TypeExpr)
    (hbody : ∀ ctx, (body ctx).ChecksStmts ctx.outer ctx.function?) :
    (ctx.fnDecl name nameSpan parameters result? bodySpan body span).ChecksStmt ctx.outer
      ctx.function? := by
  unfold fnDecl
  refine .transaction fun s hs => ?_
  refine .bind_of_ends (functionHead_typed parameters result? hs) ?_
  intro head t ht _ ⟨hframe, hids⟩
  -- the function is registered and enters the frame, both before its body
  have hevolves := t.evolves_insert name ⟨.val, head.function.type⟩
  have hinsert := ht.insert name ⟨.val, head.function.type⟩
  have hmem : (⟨(t.registry.insert name ⟨.val, head.function.type⟩).1, name,
      ⟨.val, head.function.type⟩⟩ : Declaration) ∈
        (t.registry.insert name ⟨.val, head.function.type⟩).2.entries := by
    simp [Registry.entries_insert]
  unfold TypedFrom
  simp only [ends_bind, ends_insertDeclaration, ends_get]
  split
  · trivial
  · next frame hdeclare =>
    simp only [ends_bind, ends_setFrame]
    have hfunction := hinsert.frame.declareFunction hdeclare ⟨_, rfl, hmem⟩
    have hdeclared := hinsert.setFrame hfunction
    -- the frame of the parameters is sound there as well
    have hhead := hevolves.frame hframe
    refine Ends.mono (TypedFrom.undoing (functionBody_typed hdeclared hhead hbody)) ?_
      fun _ _ _ => trivial
    rintro stmts u ⟨hu, hlater, hstmts⟩
    have hlater' : t.Evolves u := ⟨fun _ h => hlater.entries (hevolves.entries h), hlater.classes⟩
    refine ⟨hu, hlater', fun w hw => ?_⟩
    have hname := hw.registers (hlater.entries hmem)
    have hparameters := hids w (hw.of_evolves hlater')
    exact ⟨⟨name, hname⟩, hparameters, hstmts w hw⟩

/-! ## Variables -/

theorem initialisedVariable_typed {function? : Option FnType}
    (hvalue : value.ChecksExpr ctx.outer) :
    (ctx.initialisedVariable name nameSpan type value valueSpan span).ChecksStmt ctx.outer
      function? := by
  unfold initialisedVariable
  refine hvalue.bind fun initializer => .expect_bind fun hfits => ?_
  exact (declareVariable_typed _).bind fun id => .pure fun w hid hv => ⟨hv, name, type, hid, hfits⟩

theorem inferredVariable_typed {function? : Option FnType} (hvalue : value.ChecksExpr ctx.outer) :
    (ctx.inferredVariable name nameSpan mode value valueSpan span).ChecksStmt ctx.outer
      function? := by
  unfold inferredVariable
  refine hvalue.bind fun initializer => ?_
  split
  · refine .expect_bind fun hfits => ?_
    exact (declareVariable_typed _).bind fun id => .pure fun w hid hv => ⟨hv, name, _, hid, hfits⟩
  · exact .fail _ _

theorem valueInto_typed (hvalue : value.ChecksExpr outer) :
    (valueInto value type valueSpan).Typed outer fun v w =>
      v.WellTyped w ∧ v.type.assignableTo type = true := by
  unfold valueInto
  refine hvalue.bind fun v => .expect_bind fun hfits => ?_
  exact .pure fun w hv => ⟨hv, hfits⟩

theorem recursiveVariable_typed {function? : Option FnType} (hvalue : value.ChecksExpr ctx.outer) :
    (ctx.recursiveVariable name nameSpan type value valueSpan span).ChecksStmt ctx.outer
      function? := by
  rw [recursiveVariable_eq]
  refine (declareVariable_typed _).bind fun id =>
    (Typed.undoing (valueInto_typed hvalue)).bind fun initializer => ?_
  exact .pure fun w hv hid => ⟨hv.1, name, type, hid, hv.2⟩

theorem varDecl_typed {function? : Option FnType} (type? : Option TypeExpr)
    {value? : Option (Span × Check TypedExpr)}
    (hvalue : ∀ value ∈ value?, value.2.ChecksExpr ctx.outer) :
    (ctx.varDecl name nameSpan mode type? value? span).ChecksStmt ctx.outer function? := by
  unfold varDecl
  split
  · exact .fail _ _
  · split
    · refine .scope_bind fun s hs => .ofExcept_bind fun declared _ => ?_
      dsimp only
      refine Typed.mono (.transaction ?_) fun stmt w hstmt _ => hstmt
      split
      · exact (declareVariable_typed _).bind fun id => .pure fun w hid => ⟨name, _, hid⟩
      · next valueSpan value =>
        split
        · exact recursiveVariable_typed (hvalue _ rfl)
        · exact initialisedVariable_typed (hvalue _ rfl)
    · refine .transaction ?_
      split
      · exact .fail _ _
      · next valueSpan value => exact inferredVariable_typed (hvalue _ rfl)

/-! ## Returns -/

theorem finishReturn_typed (f : FnType) (v? : Option TypedExpr) :
    (finishReturn f span v?).Typed outer fun stmt w =>
      (∀ v ∈ v?, v.WellTyped w) → stmt.WellTyped w (some f) := by
  unfold finishReturn
  dsimp only
  split
  · next hresult =>
    intro s hs
    refine ⟨hs.setReturned true, ⟨List.Subset.refl _, List.prefix_refl _⟩, fun w _ hv => ?_⟩
    have hname := beq_iff_eq.1 hresult
    cases v? with
    | none => exact hname
    | some v => exact ⟨hv v rfl, hname⟩
  · exact .fail _ _

theorem ret_none_typed : (ctx.ret none span).ChecksStmt ctx.outer ctx.function? := by
  rw [ret_eq]
  split
  · exact .fail _ _
  · next h => cases h
  · next f hf _ =>
    rw [hf]
    exact (finishReturn_typed f none).mono fun stmt w hstmt => hstmt fun _ hv => nomatch hv

theorem ret_some_typed (hvalue : value.ChecksExpr ctx.outer) :
    (ctx.ret (some value) span).ChecksStmt ctx.outer ctx.function? := by
  rw [ret_eq]
  split
  · exact .fail _ _
  · next f _ hf h =>
    cases h
    rw [hf]
    have hsome : (some <$> value).Typed ctx.outer fun v? w => ∀ v ∈ v?, v.WellTyped w :=
      hvalue.map fun v w hv v' hv' => Option.mem_some.1 hv' ▸ hv
    exact hsome.bind (finishReturn_typed f)
  · next h => cases h

/-! ## Statements inside of others -/

/-- A statement one level further in stands in the same function. -/
theorem nested_typed {body : Context → Check TypedStmt}
    (hbody : ∀ ctx, (body ctx).ChecksStmt ctx.outer ctx.function?) :
    (ctx.nested span body).ChecksStmt ctx.outer ctx.function? := by
  refine .nested fun ctx' hfunction => ?_
  rw [← hfunction]
  exact hbody ctx'

theorem newFrame_typed (hbody : ∀ ctx, (body ctx).ChecksStmts ctx.outer ctx.function?) :
    (ctx.inNewFrame body).ChecksStmts ctx.outer ctx.function? := by
  refine .inNewFrame fun ctx' hfunction => ?_
  rw [← hfunction]
  exact hbody ctx'

theorem newFrame_nested_typed {body : Context → Check TypedStmt}
    (hbody : ∀ ctx, (body ctx).ChecksStmt ctx.outer ctx.function?) :
    (ctx.inNewFrame fun ctx => ctx.nested span body).ChecksStmt ctx.outer ctx.function? := by
  refine .inNewFrame fun ctx' hfunction => ?_
  rw [← hfunction]
  exact nested_typed hbody

end Context

end Nominal
