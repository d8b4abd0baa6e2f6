import Nominal.Proofs.Session.Coherent
import Nominal.Proofs.Ty.Assignable
import Nominal.Proofs.Typing.Runs

/-!
# Functions that pass under another type

A function may be bound or passed under a function type of the same name. What can be called then,
and how that differs from a call of the function itself, is `FnType.PassesAs`: the modes of the
parameters are all that the other type can hide. That holds of all function types of plain names
(`functionValues_pass`), and programs that were parsed have no others.
-/

namespace Nominal

/-! ## Calls of values -/

theorem Expr.length_of_checkEach {ctx : Context} {es : List Expr} {s t : CheckState}
    {arguments : List TypedExpr} (h : Expr.checkEach es ctx s = .ok arguments t) :
    arguments.length = es.length := by
  induction es generalizing s arguments with
  | nil =>
    obtain ⟨rfl, -⟩ := Check.pure_eq_ok.1 h
    rfl
  | cons e rest ih =>
    simp only [Expr.checkEach, Check.bind_eq_ok, Check.pure_eq_ok] at h
    obtain ⟨_, _, -, later, _, hrest, rfl, rfl⟩ := h
    rw [List.length_cons, List.length_cons, ih hrest]

/-- Arguments that are checked against slots are checked each for itself, and fit. -/
theorem Expr.checkInto_eq_ok {ctx : Context} {es : List Expr} {slots : List (Slot Ty)}
    {s t : CheckState} {arguments : List TypedExpr} (hlength : slots.length = es.length) :
    Expr.checkInto es ctx slots s = .ok arguments t ↔
      Expr.checkEach es ctx s = .ok arguments t ∧ Fit (arguments.map fun a => a.type) slots := by
  induction es generalizing slots s t arguments with
  | nil =>
    obtain rfl := List.length_eq_zero_iff.1 hlength
    show (pure [] : Check (List TypedExpr)) s = _ ↔ (pure [] : Check (List TypedExpr)) s = _ ∧ _
    rw [Check.pure_eq_ok]
    refine ⟨fun h => ⟨h, ?_⟩, fun h => h.1⟩
    rw [← h.1]
    exact .nil
  | cons e rest ih =>
    cases slots with
    | nil => cases hlength
    | cons slot slots =>
      have hlater {u v : CheckState} {later : List TypedExpr} :
          Expr.checkInto rest ctx slots u = .ok later v ↔
            Expr.checkEach rest ctx u = .ok later v ∧
              Fit (later.map fun a => a.type) slots := ih (Nat.succ.inj hlength)
      simp only [Expr.checkInto, Expr.checkEach, Check.bind_eq_ok, Check.pure_eq_ok,
        expectAssignable_eq_ok]
      constructor
      · rintro ⟨typed, u, hfirst, _, _, ⟨hassignable, rfl⟩, later, v, hrest, rfl, rfl⟩
        obtain ⟨heach, hfit⟩ := hlater.1 hrest
        exact ⟨⟨typed, u, hfirst, later, v, heach, rfl, rfl⟩, .cons hassignable hfit⟩
      · rintro ⟨⟨typed, u, hfirst, later, v, heach, rfl, rfl⟩, hfit⟩
        cases hfit with
        | cons hassignable hfit =>
          exact ⟨typed, u, hfirst, (), u, ⟨hassignable, rfl⟩, later, v, hlater.2 ⟨heach, hfit⟩,
            rfl, rfl⟩

/-- The arguments of a call, along the tree. -/
def Expr.arguments (es : List Expr) (ctx : Context) : Arguments :=
  ⟨es.length, Expr.checkEach es ctx, Expr.checkInto es ctx⟩

/-- A call of a function value goes through when the arguments can be checked, and fit. -/
theorem Context.callValue_eq_ok {callee e : TypedExpr} {name : String} {es : List Expr}
    {ctx : Context} {span : Span} {s t : CheckState} {f : FnType}
    (hcallee : callee.type.type = f.type) :
    callValue callee name (Expr.arguments es ctx) span s = .ok e t ↔
      ∃ arguments, Expr.checkEach es ctx s = .ok arguments t ∧
        f.accepts (arguments.map fun a => a.type) = true ∧
        e = ⟨.call (.value callee) arguments, ⟨.var, f.result⟩, span⟩ := by
  have hcall : callValue callee name (Expr.arguments es ctx) span =
      if f.arity = es.length then do
        let arguments ← Expr.checkInto es ctx f.parameters
        return ⟨.call (.value callee) arguments, ⟨.var, f.result⟩, span⟩
      else .fail (.arity name f.arity es.length) span := by
    unfold callValue
    rw [hcallee]
    rfl
  rw [hcall]
  by_cases harity : f.arity = es.length
  · rw [if_pos harity]
    simp only [Check.bind_eq_ok, Check.pure_eq_ok, Expr.checkInto_eq_ok harity,
      FnType.accepts_iff_fit]
    constructor
    · rintro ⟨arguments, u, ⟨heach, hfit⟩, rfl, rfl⟩
      exact ⟨arguments, heach, hfit, rfl⟩
    · rintro ⟨arguments, heach, hfit, rfl⟩
      exact ⟨arguments, t, ⟨heach, hfit⟩, rfl, rfl⟩
  · rw [if_neg harity]
    constructor
    · intro hrun
      cases hrun
    · rintro ⟨arguments, heach, haccepts, -⟩
      have hfit := (FnType.accepts_iff_fit.1 haccepts).length_eq
      rw [List.length_map, Expr.length_of_checkEach heach] at hfit
      exact absurd hfit.symm harity

/-- A call of a function by its name, which no other function has, goes through on the same terms. -/
theorem Context.callOverload_eq_ok {ctx ctx' : Context} {id : DeclId} {e : TypedExpr}
    {name : String} {es : List Expr} {nameSpan span : Span} {s t : CheckState} {f : FnType} :
    ctx.callOverload [⟨some id, f⟩] name nameSpan (Expr.arguments es ctx') span s = .ok e t ↔
      ∃ arguments, Expr.checkEach es ctx' s = .ok arguments t ∧
        f.accepts (arguments.map fun a => a.type) = true ∧
        e = ⟨.call (.function id) arguments, ⟨.var, f.result⟩, span⟩ := by
  have hresolve (arguments : List (Slot Ty)) : resolveOverload [⟨some id, f⟩] arguments =
      if f.accepts arguments = true then some ⟨some id, f⟩ else none := by
    rw [resolveOverload, List.reverse_singleton, List.find?_singleton]
  have heach : (Expr.arguments es ctx').each = Expr.checkEach es ctx' := rfl
  have hnonempty : ¬[Overload.mk (some id) f].isEmpty = true := by simp
  simp only [callOverload, if_neg hnonempty, heach, Check.bind_eq_ok, hresolve]
  refine exists_congr fun arguments => ?_
  by_cases haccepts : f.accepts (arguments.map fun a => a.type) = true
  · simp only [if_pos haccepts, Check.pure_eq_ok]
    constructor
    · rintro ⟨u, heach, rfl, rfl⟩
      exact ⟨heach, haccepts, rfl⟩
    · rintro ⟨heach, -, rfl⟩
      exact ⟨t, heach, rfl, rfl⟩
  · simp only [if_neg haccepts]
    constructor
    · rintro ⟨u, -, hrun⟩
      cases hrun
    · rintro ⟨-, htaken, -⟩
      exact absurd htaken haccepts

/-! ## Another type of the same name -/

/-- How calls of an `f` change when it passes as a `g`. The number of arguments and the names of
types are still looked at, so what is taken now and was refused before is only what can be read and
stands for a `var`. -/
structure FnType.PassesAs (f g : FnType) : Prop where
  arity : f.arity = g.arity
  result : f.result.name = g.result.name
  accepts : ∀ arguments, g.accepts arguments = true →
    (f.accepts arguments = true ↔ NoReadOnly arguments f.parameters)
  accepts_all : (∀ arguments, g.accepts arguments = true → f.accepts arguments = true) ↔
    NoReadOnly g.parameters f.parameters
  /-- A call that goes through under the type `g` goes through for the function itself, whether it
  is a value or called by its name, with the same arguments and to the same end, unless one that can
  only be read stands for a `var`. -/
  calls : ∀ (callee own e : TypedExpr) (id : DeclId) (name name' : String) (es : List Expr)
    (ctx : Context) (nameSpan span : Span) (s t : CheckState),
    callee.type.type = g.type → own.type.type = f.type →
    Context.callValue callee name (Expr.arguments es ctx) span s = .ok e t →
    ∃ arguments, e = ⟨.call (.value callee) arguments, ⟨.var, g.result⟩, span⟩ ∧
      (NoReadOnly (arguments.map fun a => a.type) f.parameters ↔
        Context.callValue own name' (Expr.arguments es ctx) span s =
          .ok ⟨.call (.value own) arguments, ⟨.var, f.result⟩, span⟩ t) ∧
      (NoReadOnly (arguments.map fun a => a.type) f.parameters ↔
        ctx.callOverload [⟨some id, f⟩] name' nameSpan (Expr.arguments es ctx) span s =
          .ok ⟨.call (.function id) arguments, ⟨.var, f.result⟩, span⟩ t)

theorem FnType.passesAs {f g : FnType} (hf : f.type.Plain) (hg : g.type.Plain)
    (h : f.type.assignableTo g.type = true) : f.PassesAs g := by
  obtain ⟨hnames, hresult⟩ := forall₂_name_of_assignable hf hg h
  refine ⟨hnames.length_eq, hresult, fun arguments => accepts_iff_noReadOnly hnames,
    accepts_all_iff hnames, ?_⟩
  intro callee own e id name name' es ctx nameSpan span s t hcallee hown hrun
  obtain ⟨arguments, heach, haccepts, rfl⟩ := (Context.callValue_eq_ok hcallee).1 hrun
  -- the arguments are checked in the same way, so all depends on whether `f` takes them
  have hsame : ∀ callee : Callee, f.accepts (arguments.map fun a => a.type) = true ↔
      ∃ arguments', Expr.checkEach es ctx s = .ok arguments' t ∧
        f.accepts (arguments'.map fun a => a.type) = true ∧
        TypedExpr.mk (.call callee arguments) ⟨.var, f.result⟩ span =
          ⟨.call callee arguments', ⟨.var, f.result⟩, span⟩ := by
    intro callee
    constructor
    · intro htakes
      exact ⟨arguments, heach, htakes, rfl⟩
    · rintro ⟨arguments', heach', htakes, -⟩
      rw [heach] at heach'
      cases heach'
      exact htakes
  refine ⟨arguments, rfl, ?_, ?_⟩
  · rw [Context.callValue_eq_ok hown, ← accepts_iff_noReadOnly hnames haccepts, ← hsame]
  · rw [Context.callOverload_eq_ok, ← accepts_iff_noReadOnly hnames haccepts, ← hsame]

/-- The function that takes an `Int` and gives one. -/
def FnType.onInt (mode : Mode) : FnType :=
  ⟨[⟨mode, .int⟩], .int⟩

/-- The name of a function type does not tell all that a call asks for: a `var` passes as a `val`,
and a class of a name that is not plain as two parameters. -/
theorem FnType.name_hides_parameters :
    let awkward : FnType := ⟨[⟨.val, .cls ⟨0, "Int, Int"⟩⟩], .int⟩
    let pair : FnType := ⟨[⟨.val, .int⟩, ⟨.val, .int⟩], .int⟩
    ((onInt .var).type.assignableTo (onInt .val).type = true ∧
      (onInt .val).accepts [⟨.val, .int⟩] = true ∧ (onInt .var).accepts [⟨.val, .int⟩] = false) ∧
    awkward.type.assignableTo pair.type = true ∧
      pair.accepts [⟨.val, .int⟩, ⟨.val, .int⟩] = true ∧
      awkward.accepts [⟨.val, .int⟩, ⟨.val, .int⟩] = false := by
  decide +kernel

theorem FnType.plain_onInt (mode : Mode) : (onInt mode).type.Plain := by
  have hint : Ty.int.Plain := .primitive (by simp [Ty.IsPlain, Ty.isMark, Ty.name, Primitive.name])
  refine .function (fun p hp => ?_) hint
  rw [List.mem_singleton.1 hp]
  exact hint

/-! ## In programs -/

/-- All types that can be come by are made of plain names. -/
def Point.Plain (p : Point) : Prop :=
  ∀ type, p.Reaches type → type.Plain

theorem Point.Fits.plain {p : Point} (h : p.Fits) : p.Plain := by
  intro type hreaches
  exact Ty.Over.mono (h.inScope hreaches) fun t hknown => h.frames.isPlain hknown

namespace Session

/-- Function types of plain names that are assignable pass as each other, and at every point of a
session over parsed programs all types are made of plain names. -/
theorem functionValues_pass :
    (∀ f g : FnType, f.type.Plain → g.type.Plain → f.type.assignableTo g.type = true →
      f.PassesAs g) ∧
    ∀ (limit : Nat) (programs : List Block), (∀ program ∈ programs, program.IsParsed) →
      (new limit).ThroughoutEach Point.Plain programs := by
  refine ⟨fun f g hf hg h => FnType.passesAs hf hg h, fun limit programs hparsed => ?_⟩
  have htidy : ∀ program ∈ programs, program.Tidy := fun program hprogram =>
    (hparsed program hprogram).tidy
  exact throughoutEach (fun _ hp => hp.plain) (contained_new limit) htidy

/-- A function that asks for a `var` passes as one that does not, and is called with a `val`. -/
def launderingSources : List String :=
  ["fun twice(var a: Int): Int \x7b return a + a; \x7d val f: Function(Int) -> Int = twice;",
    "val x: Int = 1; f(x);"]

theorem functionValues_pass_onInt :
    (FnType.onInt .var).type.assignableTo (FnType.onInt .val).type = true ∧
      (FnType.onInt .var).PassesAs (FnType.onInt .val) ∧
    ∃ programs, launderingSources.mapM parseSource = .ok programs ∧
      ((new defaultNestingLimit).checkEach programs).2.report.isEmpty = true ∧
      (∀ program ∈ programs, program.IsParsed) ∧
      (new defaultNestingLimit).ThroughoutEach Point.Plain programs := by
  have hassignable : (FnType.onInt .var).type.assignableTo (FnType.onInt .val).type = true := by
    decide +kernel
  have haccepted : (match launderingSources.mapM parseSource with
      | .error _ => false
      | .ok programs => ((new defaultNestingLimit).checkEach programs).2.report.isEmpty) = true := by
    decide +kernel
  refine ⟨hassignable, functionValues_pass.1 _ _ (FnType.plain_onInt .var) (FnType.plain_onInt .val)
    hassignable, ?_⟩
  cases hparse : launderingSources.mapM parseSource with
  | error d =>
    rw [hparse] at haccepted
    cases haccepted
  | ok programs =>
    rw [hparse] at haccepted
    have hparsed := isParsed_of_mapM_parseSource hparse
    exact ⟨programs, rfl, haccepted, hparsed,
      functionValues_pass.2 defaultNestingLimit programs hparsed⟩

end Session

end Nominal
