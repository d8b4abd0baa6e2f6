import Nominal.Proofs.Ty.Assignable
import Nominal.Proofs.Typing.Names
import Nominal.Proofs.Typing.Numbered
import Nominal.Proofs.Typing.Runs

/-!
# Calls of overloads

Which overload a call goes to is found by one scan of the set, and why there is none by another. What
comes of the two together is a `Resolution`: the last overload that takes the arguments is called,
and a call that is rejected is explained by an overload that indeed does not take them, so the
explanation that no overload matches is never needed. A callee names overloads as a function or as a
method (`Expr.NamesOverloads`), and both kinds of call are resolved in this way where all functions
have numbers (`Point.Numbered.resolvesCalls`).
-/

namespace Nominal

/-! ## The last of a list -/

/-- `a` is the last of the list that has the property. -/
def LastWith {α : Type} (P : α → Prop) (as : List α) (a : α) : Prop :=
  ∃ before after, as = before ++ a :: after ∧ P a ∧ ∀ b ∈ after, ¬P b

/-- A scan from the end finds the last. -/
theorem lastWith_of_find?_reverse {α : Type} {p : α → Bool} {as : List α} {a : α}
    (h : as.reverse.find? p = some a) : LastWith (fun a => p a = true) as a := by
  obtain ⟨ha, after, before, hsplit, hafter⟩ := List.find?_eq_some_iff_append.1 h
  refine ⟨before.reverse, after.reverse, ?_, ha, ?_⟩
  · rw [← List.reverse_reverse as, hsplit]
    simp
  · intro b hb
    simpa using hafter b (List.mem_reverse.1 hb)

theorem LastWith.mono {α : Type} {P Q : α → Prop} {as : List α} {a : α} (h : LastWith P as a)
    (hPQ : ∀ a, P a ↔ Q a) : LastWith Q as a := by
  obtain ⟨before, after, hsplit, ha, hafter⟩ := h
  exact ⟨before, after, hsplit, (hPQ a).1 ha, fun b hb hQ => hafter b hb ((hPQ b).2 hQ)⟩

theorem LastWith.holds {α : Type} {P : α → Prop} {as : List α} {a : α} (h : LastWith P as a) :
    a ∈ as ∧ P a := by
  obtain ⟨before, after, rfl, ha, -⟩ := h
  exact ⟨by simp, ha⟩

/-! ## Resolutions -/

/-- The overload can be called with the arguments. -/
def Overload.Takes (o : Overload) (arguments : List TypedExpr) : Prop :=
  o.signature.accepts (arguments.map fun a => a.type) = true

/-- The argument is the first that may not flow into the parameter in its place. -/
inductive FirstMisfit (argument : TypedExpr) (parameter : Slot Ty) :
    List TypedExpr → List (Slot Ty) → Prop
  | here {arguments : List TypedExpr} {parameters : List (Slot Ty)}
    (h : argument.type.assignableTo parameter = false) :
    FirstMisfit argument parameter (argument :: arguments) (parameter :: parameters)
  | later {first : TypedExpr} {slot : Slot Ty} {arguments : List TypedExpr}
    {parameters : List (Slot Ty)} (hfits : first.type.assignableTo slot = true)
    (hrest : FirstMisfit argument parameter arguments parameters) :
    FirstMisfit argument parameter (first :: arguments) (slot :: parameters)

/-- What comes of a call of one of the `overloads` of `name` with `arguments`: an overload to call or
a diagnostic. -/
structure Resolution (overloads : List Overload) (name : String) (arguments : List TypedExpr)
    (span : Span) (outcome : Except Diagnostic Overload) : Prop where
  /-- The call is accepted when some overload takes the arguments, and only then. -/
  accepted : (∃ o, outcome = .ok o) ↔ ∃ o ∈ overloads, o.Takes arguments
  /-- It goes to the last of these. -/
  last : ∀ o, outcome = .ok o → LastWith (fun o => o.Takes arguments) overloads o
  /-- With an overload of the number of arguments, the diagnostic is on the first argument that the
  last such overload does not take. -/
  wrongType : ∀ d, outcome = .error d →
    (∃ o ∈ overloads, o.signature.arity = arguments.length) →
    ∃ o argument parameter, LastWith (fun o => o.signature.arity = arguments.length) overloads o ∧
      FirstMisfit argument parameter arguments o.signature.parameters ∧
      d = ⟨Nominal.wrongType parameter argument.type, argument.span⟩
  /-- Otherwise it is on the number of arguments, which is not that of the last overload. -/
  arity : ∀ d, outcome = .error d → (∀ o ∈ overloads, o.signature.arity ≠ arguments.length) →
    ∃ o, overloads.getLast? = some o ∧ o.signature.arity ≠ arguments.length ∧
      d = ⟨.arity name o.signature.arity arguments.length, span⟩
  /-- It is never that no overload matches. -/
  explained : ∀ d, outcome = .error d →
    ∀ other types, d.cause ≠ .typing (.noOverload other types)

section

variable {overloads : List Overload} {name : String} {arguments : List TypedExpr} {span : Span}
  {o : Overload}

/-- As many arguments as parameters, which do not fit, have a first that does not. -/
theorem exists_firstMisfit {parameters : List (Slot Ty)}
    (hlength : parameters.length = arguments.length)
    (h : ¬Fit (arguments.map fun a => a.type) parameters) :
    ∃ argument parameter,
      ((arguments.zip parameters).find? fun (argument, parameter) =>
        !argument.type.assignableTo parameter) = some (argument, parameter) ∧
      FirstMisfit argument parameter arguments parameters := by
  induction arguments generalizing parameters with
  | nil =>
    obtain rfl := List.length_eq_zero_iff.1 hlength
    exact absurd .nil h
  | cons first rest ih =>
    cases parameters with
    | nil => cases hlength
    | cons slot slots =>
      rw [List.zip_cons_cons]
      cases hfits : first.type.assignableTo slot with
      | false => exact ⟨first, slot, by simp [hfits], .here hfits⟩
      | true =>
        have hrest : ¬Fit (rest.map fun a => a.type) slots := fun hfit => h (.cons hfits hfit)
        obtain ⟨argument, parameter, hfind, hmisfit⟩ := ih (Nat.succ.inj hlength) hrest
        refine ⟨argument, parameter, ?_, .later hfits hmisfit⟩
        rw [List.find?_cons_of_neg (by simp [hfits]), hfind]

theorem resolution_of_resolved
    (h : resolveOverload overloads (arguments.map fun a => a.type) = some o) :
    Resolution overloads name arguments span (.ok o) := by
  have hlast : LastWith (fun o => o.Takes arguments) overloads o := lastWith_of_find?_reverse h
  refine ⟨⟨fun _ => ⟨o, hlast.holds⟩, fun _ => ⟨o, rfl⟩⟩, ?_, nofun, nofun, nofun⟩
  rintro _ ⟨⟩
  exact hlast

/-- The explanation when nothing is resolved. Both scans are for the same arguments, so an overload
of their number has one that it does not take. -/
theorem overloadMismatch_spec (name : String) (span : Span) (hne : overloads ≠ [])
    (hnone : ∀ o ∈ overloads, ¬o.Takes arguments) :
    (∃ o argument parameter, LastWith (fun o => o.signature.arity = arguments.length) overloads o ∧
      FirstMisfit argument parameter arguments o.signature.parameters ∧
      overloadMismatch name overloads arguments span =
        ⟨wrongType parameter argument.type, argument.span⟩) ∨
    (∀ o ∈ overloads, o.signature.arity ≠ arguments.length) ∧
      ∃ o, overloads.getLast? = some o ∧
        overloadMismatch name overloads arguments span =
          ⟨.arity name o.signature.arity arguments.length, span⟩ := by
  unfold overloadMismatch
  cases hfind : overloads.reverse.find? fun o => o.signature.arity == arguments.length with
  | some o =>
    have hlast : LastWith (fun o => o.signature.arity = arguments.length) overloads o :=
      (lastWith_of_find?_reverse hfind).mono fun o => beq_iff_eq
    obtain ⟨hmem, harity⟩ := hlast.holds
    -- else it would have been resolved
    have hrefused : ¬Fit (arguments.map fun a => a.type) o.signature.parameters := fun hfit =>
      hnone o hmem (FnType.accepts_iff_fit.2 hfit)
    obtain ⟨argument, parameter, hmisfit, hfirst⟩ := exists_firstMisfit harity hrefused
    refine .inl ⟨o, argument, parameter, hlast, hfirst, ?_⟩
    dsimp only
    rw [hmisfit]
  | none =>
    have hall : ∀ o ∈ overloads, o.signature.arity ≠ arguments.length := by
      simpa using List.find?_eq_none.1 hfind
    have ho := List.getLast?_eq_some_getLast hne
    refine .inr ⟨hall, _, ho, ?_⟩
    rw [ho]
    rfl

theorem resolution_of_mismatch (hne : overloads ≠ [])
    (h : resolveOverload overloads (arguments.map fun a => a.type) = none) :
    Resolution overloads name arguments span
      (.error (overloadMismatch name overloads arguments span)) := by
  have hnone : ∀ o ∈ overloads, ¬o.Takes arguments := by
    simpa [resolveOverload, Overload.Takes] using h
  obtain ⟨o, argument, parameter, hlast, hfirst, heq⟩ | ⟨hall, o, ho, heq⟩ :=
    overloadMismatch_spec name span hne hnone
  · obtain ⟨hmem, harity⟩ := hlast.holds
    rw [heq]
    refine ⟨⟨nofun, fun ⟨o, ho, htakes⟩ => absurd htakes (hnone o ho)⟩, nofun, ?_, ?_, ?_⟩
    · rintro _ ⟨⟩ -
      exact ⟨o, argument, parameter, hlast, hfirst, rfl⟩
    · exact fun _ _ hall => absurd harity (hall o hmem)
    · rintro _ ⟨⟩ other types
      unfold wrongType
      split
      · nofun
      · nofun
  · rw [heq]
    refine ⟨⟨nofun, fun ⟨o, ho, htakes⟩ => absurd htakes (hnone o ho)⟩, nofun, ?_, ?_, ?_⟩
    · exact fun _ _ ⟨o, ho, harity⟩ => absurd harity (hall o ho)
    · rintro _ ⟨⟩ -
      exact ⟨o, ho, hall o (List.mem_of_getLast? ho), rfl⟩
    · rintro _ ⟨⟩ other types
      nofun

/-- The outcome of a call that runs to the overload that is resolved, or to the explanation. -/
theorem exists_resolution (hne : overloads ≠ []) {ends : Except Diagnostic Overload → Prop}
    (hresolved : ∀ o ∈ overloads,
      resolveOverload overloads (arguments.map fun a => a.type) = some o → ends (.ok o))
    (hmismatch : resolveOverload overloads (arguments.map fun a => a.type) = none →
      ends (.error (overloadMismatch name overloads arguments span))) :
    ∃ outcome, Resolution overloads name arguments span outcome ∧ ends outcome := by
  cases hresolve : resolveOverload overloads (arguments.map fun a => a.type) with
  | some o =>
    have hmem := (mem_of_resolveOverload hresolve).1
    exact ⟨.ok o, resolution_of_resolved hresolve, hresolved o hmem hresolve⟩
  | none => exact ⟨_, resolution_of_mismatch hne hresolve, hmismatch hresolve⟩

end

/-! ## Calls -/

/-- The nearest frame that has functions of the name decides. -/
theorem Scope.findFunctions_of_nearest {scope inner outer : Scope} {f : Frame} {name : String}
    (hscope : scope = inner ++ f :: outer) (hinner : ∀ g ∈ inner, g.functions.get name = [])
    (hfunctions : f.functions.get name ≠ []) :
    scope.findFunctions name = f.functions.get name := by
  subst hscope
  induction inner with
  | nil =>
    unfold findFunctions
    rw [List.nil_append, List.findSome?_cons]
    cases hget : f.functions.get name with
    | nil => exact absurd hget hfunctions
    | cons o others => rfl
  | cons g rest ih =>
    obtain ⟨hg, hrest⟩ := List.forall_mem_cons.1 hinner
    have hfound := ih hrest
    unfold findFunctions at hfound ⊢
    rw [List.cons_append, List.findSome?_cons, hg]
    exact hfound

/-- The callee stands for `overloads` of `name`, as a function that no variable hides or as a method
that no field hides. It is checked from the state `s`, and the arguments from the state `t`. The
overload that is picked is called as one of the `calls`. -/
inductive Expr.NamesOverloads (ctx : Context) (s : CheckState) :
    Expr → String → List Overload → CheckState → (Overload → Callee → Prop) → Prop
  | function {name : String} {span : Span} {inner outer : Scope} {f : Frame}
    (hscope : s.frame :: ctx.outer = inner ++ f :: outer)
    (hinner : ∀ g ∈ inner, g.functions.get name = []) (hfunctions : f.functions.get name ≠ [])
    (hvariable : ∀ g ∈ s.frame :: ctx.outer, g.bindings.find? name = none) :
    NamesOverloads ctx s ⟨.symbol name, span⟩ name (f.functions.get name) s
      fun o callee => ∃ id, o.id? = some id ∧ callee = .function id
  | method {owner : Expr} {name : String} {nameSpan span : Span} {receiver : TypedExpr}
    {t : CheckState} (howner : owner.check ctx s = .ok receiver t)
    (hfield : t.classes.member? receiver.type.type name = none)
    (hmethods : t.classes.methods receiver.type.type name ≠ []) :
    NamesOverloads ctx s ⟨.member owner name nameSpan, span⟩ name
      (t.classes.methods receiver.type.type name) t
      fun o callee => callee = .method receiver name o.id?

/-- The call ends as it is resolved. -/
def Expr.CallEnds (ctx : Context) (s u : CheckState) (callee : Expr) (es : List Expr) (span : Span)
    (arguments : List TypedExpr) (calls : Overload → Callee → Prop) :
    Except Diagnostic Overload → Prop
  | .ok o => ∃ typedCallee, calls o typedCallee ∧
      Expr.check ⟨.call callee es, span⟩ ctx s =
        .ok ⟨.call typedCallee arguments, ⟨.var, o.signature.result⟩, span⟩ u
  | .error d => Expr.check ⟨.call callee es, span⟩ ctx s = .error d u

/-- Where overloads of a name are called and the arguments can be checked, the call is resolved. -/
def Point.ResolvesCalls (p : Point) : Prop :=
  ∀ (ctx : Context) (s : CheckState), s.frame :: ctx.outer = p.scope →
    ∀ callee name overloads t calls, Expr.NamesOverloads ctx s callee name overloads t calls →
      ∀ es arguments u, Expr.checkEach es ctx t = .ok arguments u →
        ∀ span, ∃ outcome, Resolution overloads name arguments span outcome ∧
          Expr.CallEnds ctx s u callee es span arguments calls outcome

/-- A call of a function whose arguments were checked. -/
theorem Context.run_callOverload {ctx : Context} {overloads : List Overload} {name : String}
    {nameSpan span : Span} {arguments : Arguments} {typed : List TypedExpr} {s t : CheckState}
    (hne : overloads ≠ []) (heach : arguments.each s = .ok typed t) :
    ctx.callOverload overloads name nameSpan arguments span s =
      match resolveOverload overloads (typed.map fun a => a.type) with
      | some ⟨some id, f⟩ => .ok ⟨.call (.function id) typed, ⟨.var, f.result⟩, span⟩ t
      | _ => .error (overloadMismatch name overloads typed span) t := by
  have hnonempty : ¬overloads.isEmpty = true := by simpa using hne
  rw [callOverload, if_neg hnonempty, Check.run_bind_of_ok heach]
  cases resolveOverload overloads (typed.map fun a => a.type) with
  | none => rfl
  | some o =>
    obtain ⟨id?, f⟩ := o
    cases id? with
    | none => rfl
    | some id => rfl

/-- A call of a method whose receiver and arguments were checked. -/
theorem Context.run_callMember {owner : Check TypedExpr} {name : String}
    {nameSpan calleeSpan span : Span} {arguments : Arguments} {receiver : TypedExpr}
    {typed : List TypedExpr} {s t u : CheckState} (howner : owner s = .ok receiver t)
    (hfield : t.classes.member? receiver.type.type name = none)
    (hmethods : t.classes.methods receiver.type.type name ≠ [])
    (heach : arguments.each t = .ok typed u) :
    callMember owner name nameSpan calleeSpan arguments span s =
      match resolveOverload (t.classes.methods receiver.type.type name)
        (typed.map fun a => a.type) with
      | some o =>
        .ok ⟨.call (.method receiver name o.id?) typed, ⟨.var, o.signature.result⟩, span⟩ u
      | none =>
        .error (overloadMismatch name (t.classes.methods receiver.type.type name) typed span)
          u := by
  have hnonempty : ¬(t.classes.methods receiver.type.type name).isEmpty = true := by
    simpa using hmethods
  have hget : (get : Check CheckState) t = .ok t t := rfl
  rw [callMember, Check.run_bind_of_ok howner, Check.run_bind_of_ok hget]
  simp only [hfield, if_neg hnonempty]
  rw [Check.run_bind_of_ok heach]
  cases resolveOverload (t.classes.methods receiver.type.type name) (typed.map fun a => a.type) with
  | none => rfl
  | some o => rfl

theorem Point.Numbered.resolvesCalls {p : Point} (h : p.Numbered) : p.ResolvesCalls := by
  intro ctx s hscope callee name overloads t calls hnames es arguments u harguments span
  cases hnames with
  | @function _ nameSpan inner outer f hsplit hinner hfunctions hvariable =>
    have hnone : Scope.findVariable? (s.frame :: ctx.outer) name = none :=
      List.findSome?_eq_none_iff.2 hvariable
    have hfound := Scope.findFunctions_of_nearest hsplit hinner hfunctions
    have hf : f ∈ p.scope := by
      rw [← hscope, hsplit]
      simp
    have hrun : Expr.check ⟨.call ⟨.symbol name, nameSpan⟩ es, span⟩ ctx s =
        ctx.callOverload (f.functions.get name) name nameSpan
          ⟨es.length, Expr.checkEach es ctx, Expr.checkInto es ctx⟩ span s := by
      show ctx.callSymbol name nameSpan _ span s = _
      rw [Context.callSymbol, Context.run_scope_bind, hnone, hfound]
    rw [Context.run_callOverload hfunctions harguments] at hrun
    apply exists_resolution hfunctions
    · intro o ho hresolve
      -- the overload stands in a frame of the point, so it has a number to be called by
      obtain ⟨id, hid⟩ := h f hf name o ho
      obtain ⟨id?, signature⟩ := o
      cases hid
      rw [hresolve] at hrun
      exact ⟨.function id, ⟨id, rfl, rfl⟩, hrun⟩
    · intro hresolve
      rw [hresolve] at hrun
      exact hrun
  | @method owner _ nameSpan calleeSpan receiver _ howner hfield hmethods =>
    have hrun : Expr.check ⟨.call ⟨.member owner name nameSpan, calleeSpan⟩ es, span⟩ ctx s =
        Context.callMember (owner.check ctx) name nameSpan calleeSpan
          ⟨es.length, Expr.checkEach es ctx, Expr.checkInto es ctx⟩ span s := rfl
    rw [Context.run_callMember howner hfield hmethods harguments] at hrun
    apply exists_resolution hmethods
    · intro o _ hresolve
      rw [hresolve] at hrun
      exact ⟨.method receiver name o.id?, rfl, hrun⟩
    · intro hresolve
      rw [hresolve] at hrun
      exact hrun

end Nominal
