import Nominal.Proofs.Typing.Mirrors.Expressions

/-!
# Rules for statements mirror them

What is declared enters the registry under the name that is written, and a function has one number
for each of its parameters. A declaration fails at its name, at a written type, or at a part that was
checked.
-/

namespace Nominal

/-! ## Written types -/

section

variable {place : Span → Prop} {scope : Scope}

theorem TypeExpr.place_span {t : TypeExpr} (h : t.layout.All place) : place t.span := by
  cases t with
  | named name span => exact h.1
  | function parameters result span => exact h.1

/-- A type without values is at fault as a whole. -/
theorem TypeExpr.place_of_valueType {t : TypeExpr} (h : t.layout.All place) {type : Ty}
    {d : Diagnostic} (herror : t.valueType type = .error d) : place d.span := by
  unfold valueType at herror
  split at herror
  · cases herror
  · cases herror
    exact t.place_span h

mutual

theorem Scope.place_of_resolve : ∀ (t : TypeExpr) {d : Diagnostic}, t.layout.All place →
    scope.resolve t = .error d → place d.span
  | .named name span, d, h, herror => by
    rw [Scope.resolve] at herror
    split at herror
    · cases herror
    · cases herror
      exact h.1
  | .function parameters result span, d, h, herror => by
    have hparts : (∀ t ∈ parameters, t.layout.All place) ∧ result.layout.All place := by
      have hall := h.2
      simpa using hall
    rw [Scope.resolve] at herror
    cases hparameters : scope.resolveParameters parameters with
    | error d' =>
      rw [hparameters] at herror
      cases herror
      exact Scope.place_of_resolveParameters parameters hparts.1 hparameters
    | ok types =>
      rw [hparameters] at herror
      cases hresult : scope.resolve result with
      | error d' =>
        simp only [hresult, bind, Except.bind] at herror
        cases herror
        exact Scope.place_of_resolve result hparts.2 hresult
      | ok type =>
        simp only [hresult, bind, Except.bind] at herror
        cases herror

theorem Scope.place_of_resolveParameters : ∀ (ts : List TypeExpr) {d : Diagnostic},
    (∀ t ∈ ts, t.layout.All place) → scope.resolveParameters ts = .error d → place d.span
  | [], d, h, herror => by
    rw [Scope.resolveParameters] at herror
    cases herror
  | t :: ts, d, h, herror => by
    have hfirst := h t List.mem_cons_self
    rw [Scope.resolveParameters] at herror
    cases hresolve : scope.resolve t with
    | error d' =>
      rw [hresolve] at herror
      cases herror
      exact Scope.place_of_resolve t hfirst hresolve
    | ok type =>
      simp only [hresolve, bind, Except.bind] at herror
      cases hvalue : t.valueType type with
      | error d' =>
        simp only [hvalue] at herror
        cases herror
        exact t.place_of_valueType hfirst hvalue
      | ok valueType =>
        simp only [hvalue] at herror
        cases hrest : scope.resolveParameters ts with
        | error d' =>
          simp only [hrest] at herror
          cases herror
          exact Scope.place_of_resolveParameters ts (fun t ht => h t (List.mem_cons_of_mem _ ht))
            hrest
        | ok types =>
          simp only [hrest] at herror
          cases herror

end

theorem Scope.place_of_resolveValue {t : TypeExpr} (h : t.layout.All place) {d : Diagnostic}
    (herror : scope.resolveValue t = .error d) : place d.span := by
  unfold Scope.resolveValue at herror
  cases hresolve : scope.resolve t with
  | error d' =>
    rw [hresolve] at herror
    cases herror
    exact Scope.place_of_resolve t h hresolve
  | ok type =>
    rw [hresolve] at herror
    exact t.place_of_valueType h herror

end

/-! ## Declarations -/

theorem CheckState.Named.insert {s : CheckState} {outer : Scope} (hs : s.Named outer)
    (name : String) (type : Slot Ty) :
    { s with registry := (s.registry.insert name type).2 }.Named outer :=
  hs.of_frame_eq rfl (s.evolves_insert name type).entries

namespace Context

open Check

variable {ctx : Context} {name : String} {nameSpan valueSpan bodySpan span : Span} {type : Slot Ty}
  {mode : Mode} {outer : Scope} {place : Span → Prop} {value : Check TypedExpr}
  {writtenValue : Expr} {body : Context → Check (List TypedStmt)} {written : List Stmt}
  {parameters : List Parameter} {result? : Option TypeExpr}

theorem bind_renders (refused : Cause) (hspan : place span) :
    (bind name type refused span).Renders outer (fun id known => known id name) place := by
  intro s hs
  have hmem : ⟨(s.registry.insert name type).1, name, type⟩ ∈
      (s.registry.insert name type).2.entries := by
    simp [Registry.entries_insert]
  unfold bind RendersFrom
  simp only [ends_bind, ends_insertDeclaration, ends_get]
  split
  · next frame hdeclare =>
    have hinsert := hs.insert name type
    have hframe := hinsert.frame.declareVariable hdeclare hmem
    have hentries := (s.evolves_insert name type).entries
    exact ⟨hinsert.setFrame hframe, hentries, fun known hknown => hknown _ hmem⟩
  · exact ⟨hspan, hs.frame.titled⟩

theorem declareVariable_renders (hspan : place span) :
    (ctx.declareVariable name type span).Renders outer (fun id known => known id name) place :=
  bind_renders _ hspan

theorem declareParameter_renders {p : Parameter} (hp : p.layout.All place) :
    (ctx.declareParameter p).Renders ctx.outer (fun declared known => known declared.1 p.name)
      place := by
  have hparts : place p.span ∧ p.type.layout.All place := by
    simpa [Parameter.layout] using hp
  unfold declareParameter
  refine .scope_bind fun s hs => .ofExcept_bind ?_ fun type => ?_
  · intro d herror
    exact Scope.place_of_resolveValue hparts.2 herror
  · exact (bind_renders _ hparts.1).bind fun id _ => .pure fun known hid _ => hid

/-- Parameters that are declared one after the other have numbers one after the other. -/
theorem mapM_renders {α : Type} {f : Parameter → Check α} {ok : Parameter → α → Naming → Prop}
    (h : ∀ p ∈ parameters, (f p).Renders outer (ok p) place) :
    (parameters.mapM f).Renders outer
      (fun declared known => List.Forall₂ (fun p a => ok p a known) parameters declared) place := by
  induction parameters with
  | nil => exact .pure fun known => .nil
  | cons p rest ih =>
    rw [List.mapM_cons]
    have hfirst := h p List.mem_cons_self
    have hrest := ih fun q hq => h q (List.mem_cons_of_mem p hq)
    refine hfirst.bind fun first _ => hrest.bind fun others _ => .pure fun known hothers ha => ?_
    exact .cons ha hothers

/-! ## Functions -/

/-- A check of the head of a function: its frame has its names, and there is one number for each
parameter. -/
abbrev RendersHead (c : Check FunctionHead) (s : CheckState) (outer : Scope)
    (parameters : List Parameter) (place : Span → Prop) : Prop :=
  c.Ends s
    (fun head t => t.Named outer ∧ s.registry.entries ⊆ t.registry.entries ∧
      head.frame.Named t.registry.entries ∧
      ∀ known, t.Tells known →
        List.Forall₂ (fun p id => known id p.name) parameters head.parameters)
    (FailsAt place)

theorem parameterHead_renders (hparameters : ∀ p ∈ parameters, p.layout.All place) (result : Ty)
    {s : CheckState} (hs : s.Named ctx.outer) :
    RendersHead (ctx.parameterHead parameters result) s ctx.outer parameters place := by
  unfold RendersHead parameterHead inNewFrame
  rw [ends_inFrame, ends_bind]
  have hdeclared := mapM_renders (f := { ctx with outer := s.frame :: ctx.outer }.declareParameter)
    fun p hp => declareParameter_renders (hparameters p hp)
  refine Ends.mono (hdeclared _ (hs.inside (Frame.named_empty _))) ?_
    fun _ _ hfails => ⟨hfails.1, hs.frame.titled⟩
  rintro declared t ⟨ht, hentries, hnames⟩
  -- the head takes the frame along, and the one around is the current one again
  refine ⟨ht.outside, hentries, ht.frame, ?_⟩
  intro known hknown
  rw [List.forall₂_map_right_iff]
  exact hnames known hknown

theorem functionHead_renders (hparameters : ∀ p ∈ parameters, p.layout.All place)
    (hresult : ∀ t ∈ result?, t.layout.All place) {s : CheckState} (hs : s.Named ctx.outer) :
    RendersHead (ctx.functionHead parameters result?) s ctx.outer parameters place := by
  rw [functionHead_eq]
  cases result? with
  | none => exact parameterHead_renders hparameters .nothing hs
  | some t =>
    show (ctx.scope >>= _).Ends s _ _
    rw [ends_bind, ends_scope, ends_bind, ends_ofExcept]
    refine ⟨fun result _ => parameterHead_renders hparameters result hs, fun d herror => ?_⟩
    exact ⟨Scope.place_of_resolve t (hresult t rfl) herror, hs.frame.titled⟩

theorem functionBody_renders {head : FunctionHead} (name? : Option String) {s : CheckState}
    (hs : s.Named ctx.outer) (hframe : head.frame.Named s.registry.entries)
    (hbody : ∀ ctx, (body ctx).RendersStmts ctx.outer written place) (hbodySpan : place bodySpan) :
    (ctx.functionBody head name? bodySpan body).RendersFrom s ctx.outer
      (fun stmts known => List.Forall₂ (Stmt.Mirrors known) written stmts) place := by
  unfold functionBody
  have hstart := hs.setReturned false
  refine RendersFrom.bind (.apart (.inFrame hstart hframe (hbody _))) ?_
  rintro ⟨stmts, returned⟩ -
  dsimp only
  split
  · exact .pure fun known hstmts => hstmts
  · exact .fail _ hbodySpan

theorem lambda_renders (hparameters : ∀ p ∈ parameters, p.layout.All place)
    (hresult : ∀ t ∈ result?, t.layout.All place)
    (hbody : ∀ ctx, (body ctx).RendersStmts ctx.outer written place) (hbodySpan : place bodySpan)
    (hspan : place span) :
    (ctx.lambda parameters result? bodySpan body span).RendersExpr ctx.outer
      ⟨.lambda ⟨parameters, result?, ⟨written, bodySpan⟩⟩, span⟩ place := by
  unfold lambda
  refine .transaction fun s hs => ?_
  refine .bind_of_ends (functionHead_renders hparameters hresult hs) ?_
  intro head t ht ⟨hframe, hids⟩
  have hstmts : (ctx.functionBody head none bodySpan body).RendersFrom t ctx.outer
      (fun stmts known => List.Forall₂ (fun p id => known id p.name) parameters head.parameters ∧
        List.Forall₂ (Stmt.Mirrors known) written stmts) place :=
    (functionBody_renders none ht hframe hbody hbodySpan).mono fun stmts known hknown h =>
      ⟨hids known hknown, h⟩
  refine hstmts.bind fun stmts _ => .pure fun known h => ?_
  exact ⟨.form (.lambda h.1 h.2), hspan⟩

theorem fnDecl_renders (hparameters : ∀ p ∈ parameters, p.layout.All place)
    (hresult : ∀ t ∈ result?, t.layout.All place)
    (hbody : ∀ ctx, (body ctx).RendersStmts ctx.outer written place) (hbodySpan : place bodySpan)
    (hnameSpan : place nameSpan) :
    (ctx.fnDecl name nameSpan parameters result? bodySpan body span).RendersStmt ctx.outer
      ⟨.fnDecl name nameSpan ⟨parameters, result?, ⟨written, bodySpan⟩⟩, span⟩ place := by
  unfold fnDecl
  refine .transaction fun s hs => ?_
  refine .bind_of_ends (functionHead_renders hparameters hresult hs) ?_
  intro head t ht ⟨hframe, hids⟩
  -- the function is registered and enters the frame, both before its body
  have hentries := (t.evolves_insert name ⟨.val, head.function.type⟩).entries
  have hinsert := ht.insert name ⟨.val, head.function.type⟩
  have hmem : (⟨(t.registry.insert name ⟨.val, head.function.type⟩).1, name,
      ⟨.val, head.function.type⟩⟩ : Declaration) ∈
        (t.registry.insert name ⟨.val, head.function.type⟩).2.entries := by
    simp [Registry.entries_insert]
  unfold RendersFrom
  simp only [ends_bind, ends_insertDeclaration, ends_get]
  split
  · exact ⟨hnameSpan, ht.frame.titled⟩
  · next frame hdeclare =>
    simp only [ends_bind, ends_setFrame]
    have hfunction := hinsert.frame.declareFunction hdeclare ⟨_, rfl, hmem⟩
    have hdeclared := hinsert.setFrame hfunction
    have hhead := hframe.mono hentries
    have hstmts := functionBody_renders (some name) hdeclared hhead hbody hbodySpan
    refine Ends.mono (RendersFrom.undoing (fun f => f.types_removeFunction name _) hstmts) ?_
      fun _ _ hfails => hfails
    rintro stmts u ⟨hu, hlater, hstmts⟩
    refine ⟨hu, fun _ h => hlater (hentries h), fun known hknown => ?_⟩
    have hname := hknown _ (hlater hmem)
    have hparameters := hids known fun d hd => hknown d (hlater (hentries hd))
    exact .form (.fnDecl hname hparameters (hstmts known hknown))

/-! ## Variables -/

theorem initialisedVariable_renders {type? : Option TypeExpr}
    (hvalue : value.RendersExpr ctx.outer writtenValue place) (hvalueSpan : place valueSpan)
    (hnameSpan : place nameSpan) :
    (ctx.initialisedVariable name nameSpan type value valueSpan span).RendersStmt ctx.outer
      ⟨.varDecl name nameSpan mode type? (some writtenValue), span⟩ place := by
  unfold initialisedVariable
  refine hvalue.bind fun initializer _ => .expect_bind hvalueSpan ?_
  refine (declareVariable_renders hnameSpan).bind fun id _ => .pure fun known hid hv => ?_
  exact .form (.varDecl hid (.some hv.1))

theorem inferredVariable_renders {type? : Option TypeExpr}
    (hvalue : value.RendersExpr ctx.outer writtenValue place) (hvalueSpan : place valueSpan)
    (hnameSpan : place nameSpan) :
    (ctx.inferredVariable name nameSpan mode value valueSpan span).RendersStmt ctx.outer
      ⟨.varDecl name nameSpan mode type? (some writtenValue), span⟩ place := by
  unfold inferredVariable
  refine hvalue.bind fun initializer _ => ?_
  split
  · refine .expect_bind hvalueSpan ?_
    refine (declareVariable_renders hnameSpan).bind fun id _ => .pure fun known hid hv => ?_
    exact .form (.varDecl hid (.some hv.1))
  · exact .fail _ hvalueSpan

theorem valueInto_renders (hvalue : value.RendersExpr outer writtenValue place)
    (hvalueSpan : place valueSpan) :
    (valueInto value type valueSpan).RendersExpr outer writtenValue place := by
  unfold valueInto
  exact hvalue.bind fun v _ => .expect_bind hvalueSpan (.pure fun known hv => hv)

theorem recursiveVariable_renders {type? : Option TypeExpr}
    (hvalue : value.RendersExpr ctx.outer writtenValue place) (hvalueSpan : place valueSpan)
    (hnameSpan : place nameSpan) :
    (ctx.recursiveVariable name nameSpan type value valueSpan span).RendersStmt ctx.outer
      ⟨.varDecl name nameSpan mode type? (some writtenValue), span⟩ place := by
  rw [recursiveVariable_eq]
  have hinto : ((valueInto value type valueSpan).undoing fun frame =>
      frame.removeVariable name).RendersExpr ctx.outer writtenValue place :=
    .undoing (fun _ => rfl) (valueInto_renders hvalue hvalueSpan)
  refine (declareVariable_renders hnameSpan).bind fun id _ => hinto.bind fun initializer _ => ?_
  exact .pure fun known hv hid => .form (.varDecl hid (.some hv.1))

/-- A written value with its check, if there is one. -/
abbrev RendersValue (outer : Scope) (place : Span → Prop) :
    Option Expr → Option (Span × Check TypedExpr) → Prop :=
  Option.Rel fun written value => value.2.RendersExpr outer written place ∧ place value.1

theorem varDecl_renders {type? : Option TypeExpr} {writtenValue? : Option Expr}
    {value? : Option (Span × Check TypedExpr)}
    (hvalue : RendersValue ctx.outer place writtenValue? value?)
    (htype : ∀ t ∈ type?, t.layout.All place) (hnameSpan : place nameSpan) :
    (ctx.varDecl name nameSpan mode type? value? span).RendersStmt ctx.outer
      ⟨.varDecl name nameSpan mode type? writtenValue?, span⟩ place := by
  unfold varDecl
  split
  · exact .fail _ hnameSpan
  · split
    · next t =>
      refine .scope_bind fun s hs => .ofExcept_bind ?_ fun declared => ?_
      · intro d herror
        exact Scope.place_of_resolveValue (htype t rfl) herror
      · dsimp only
        refine Renders.mono (.transaction ?_) fun stmt known hstmt _ => hstmt
        cases hvalue with
        | none =>
          refine (declareVariable_renders hnameSpan).bind fun id _ => .pure fun known hid => ?_
          exact .form (.varDecl hid .none)
        | @some written check hvalue =>
          obtain ⟨valueSpan, value⟩ := check
          dsimp only
          split
          · exact recursiveVariable_renders hvalue.1 hvalue.2 hnameSpan
          · exact initialisedVariable_renders hvalue.1 hvalue.2 hnameSpan
    · refine .transaction ?_
      cases hvalue with
      | none => exact .fail _ hnameSpan
      | some hvalue => exact inferredVariable_renders hvalue.1 hvalue.2 hnameSpan

/-! ## Returns -/

theorem finishReturn_renders (f : FnType) {typed? : Option TypedExpr}
    (htyped : ∀ v ∈ typed?, place v.span) (hspan : place span) :
    (finishReturn f span typed?).Renders outer (fun stmt _ => stmt = ⟨.ret typed?, span⟩)
      place := by
  unfold finishReturn
  dsimp only
  split
  · intro s hs
    exact ⟨hs.setReturned true, List.Subset.refl _, fun _ _ => rfl⟩
  · refine .fail _ ?_
    cases typed? with
    | none => exact hspan
    | some v => exact htyped v rfl

theorem ret_none_renders (hspan : place span) :
    (ctx.ret none span).RendersStmt ctx.outer ⟨.ret none, span⟩ place := by
  rw [ret_eq]
  split
  · exact .fail _ hspan
  · next h => cases h
  · next f hf _ =>
    refine (finishReturn_renders f (fun _ hv => nomatch hv) hspan).mono ?_
    rintro stmt known rfl
    exact .form (.ret .none)

theorem ret_some_renders (hvalue : value.RendersExpr ctx.outer writtenValue place)
    (hspan : place span) :
    (ctx.ret (some value) span).RendersStmt ctx.outer ⟨.ret (some writtenValue), span⟩ place := by
  rw [ret_eq]
  split
  · exact .fail _ hspan
  · next f _ hf h =>
    cases h
    rw [bind_map_left]
    refine hvalue.bind fun v hv => ?_
    have htyped : ∀ v' ∈ some v, place v'.span := fun v' hv' => Option.mem_some.1 hv' ▸ hv.2
    refine (finishReturn_renders f htyped hspan).mono ?_
    rintro stmt known rfl hmirrors
    exact .form (.ret (.some hmirrors.1))
  · next h => cases h

/-! ## Classes -/

theorem declareClass_renders {α : Type} {f : ClassRef → Check α} {ok : α → Naming → Prop}
    (hf : ∀ c, c.name = name → (f c).Renders outer ok place) :
    (declareClass name >>= f).Renders outer ok place := by
  intro s hs
  unfold declareClass RendersFrom
  rw [ends_bind, ends_modifyGet]
  refine hf _ rfl _ ?_
  dsimp only
  cases hdeclare : s.frame.declareType name (.cls (s.classes.declare name).1) with
  | none => exact hs.of_frame_eq rfl (List.Subset.refl _)
  | some frame =>
    have hframe : frame.Named s.registry.entries :=
      hs.frame.declareClass (c := (s.classes.declare name).1) hdeclare
    exact (hs.setFrame hframe).of_frame_eq rfl (List.Subset.refl _)

theorem updateClass_bind_renders {α : Type} {c : ClassRef} {change : ClassInfo → ClassInfo}
    {f : Unit → Check α} {ok : α → Naming → Prop} (hf : (f ()).Renders outer ok place) :
    (updateClass c change >>= f).Renders outer ok place := by
  intro s hs
  unfold RendersFrom
  rw [ends_bind, ends_updateClass]
  exact hf _ (hs.of_frame_eq rfl (List.Subset.refl _))

theorem classParameter_renders {c : ClassRef} {p : Parameter} (hp : p.layout.All place) :
    (ctx.classParameter c p).Renders ctx.outer (fun id known => known id p.name) place := by
  unfold classParameter
  refine (declareParameter_renders hp).bind fun (id, type) _ => updateClass_bind_renders ?_
  exact .pure fun known hid => hid

/-- The name that a statement declares is kept with its span. -/
theorem place_of_memberName? {stmt : Stmt} (h : stmt.layout.All place)
    (hname : stmt.memberName? = some (name, nameSpan)) : place nameSpan := by
  obtain ⟨form, span⟩ := stmt
  cases form with
  | varDecl name' nameSpan' mode type? value? =>
    cases hname
    have hparts := h.2
    rw [StmtForm.layouts_varDecl] at hparts
    simp only [Layout.allParts_append, Layout.allParts_cons, Layout.all_word] at hparts
    exact hparts.1.1.1.2.1
  | fnDecl name' nameSpan' signature =>
    obtain ⟨parameters, result?, ⟨body, bodySpan⟩⟩ := signature
    cases hname
    exact h.2.2.1
  | _ => cases hname

theorem expectNoParameter_renders {stmt : Stmt} (h : stmt.layout.All place) :
    (ctx.expectNoParameter parameters stmt).Renders outer (fun _ _ => True) place := by
  unfold expectNoParameter
  split
  · next name nameSpan hname =>
    split
    · exact .fail _ (place_of_memberName? h hname)
    · exact .pure fun _ => trivial
  · exact .pure fun _ => trivial

/-- Entering a member changes nothing but the class. -/
theorem enterMember_renders {c : ClassRef} {stmt : Stmt} {typed : TypedStmt} :
    (ctx.enterMember c stmt typed).Renders ctx.outer (fun _ _ => True) place := by
  have hupdate (change : ClassInfo → ClassInfo) :
      (updateClass c change).Renders ctx.outer (fun _ _ => True) place :=
    fun s hs => ⟨hs.of_frame_eq rfl (List.Subset.refl _), List.Subset.refl _, fun _ _ => trivial⟩
  unfold enterMember
  split
  · refine .scope_bind_forget fun scope => ?_
    split
    · exact hupdate _
    · exact .pure fun _ => trivial
  · exact hupdate _
  · exact .pure fun _ => trivial

theorem classBody_renders {c : ClassRef} {members : Context → Check (List TypedStmt)}
    (hparameters : ∀ p ∈ parameters, p.layout.All place)
    (hmembers : ∀ ctx, (members ctx).RendersStmts ctx.outer written place) :
    (ctx.classBody c parameters members).Renders ctx.outer
      (fun body known => List.Forall₂ (fun p id => known id p.name) parameters body.1 ∧
        List.Forall₂ (Stmt.Mirrors known) written body.2) place := by
  unfold classBody
  refine .inNewFrame fun ctx => ?_
  have hids := mapM_renders (f := ctx.classParameter c) fun p hp =>
    classParameter_renders (hparameters p hp)
  refine hids.bind fun ids _ => (Renders.inNewFrame hmembers).bind fun stmts _ => ?_
  exact .pure fun known hstmts hids => ⟨hids, hstmts⟩

theorem classDecl_renders {members : ClassRef → Context → Check (List TypedStmt)}
    (hparameters : ∀ p ∈ parameters, p.layout.All place)
    (hmembers : ∀ c ctx, (members c ctx).RendersStmts ctx.outer written place)
    (hnameSpan : place nameSpan) :
    (ctx.classDecl name nameSpan parameters members span).RendersStmt ctx.outer
      ⟨.classDecl name nameSpan parameters written, span⟩ place := by
  rw [classDecl_eq]
  refine .scope_bind_forget fun scope => ?_
  split
  · exact .fail _ hnameSpan
  · refine declareClass_renders fun c hc => ?_
    subst hc
    have hbody : (Check.apart (Check.transaction
        ({ ctx with function? := none, className? := some c.name }.classBody c parameters
          (members c)))).Renders ctx.outer _ place :=
      .apart (.transaction (classBody_renders hparameters (hmembers c)))
    refine hbody.bind fun ((ids, stmts), returned) _ => .pure fun known h => ?_
    exact .form (.classDecl h.1 h.2)

end Context

end Nominal
