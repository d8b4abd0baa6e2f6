import Nominal.Proofs.Session.Reachable

/-!
# What a name stands for

Variables and functions share the names of a frame, but the chain of frames is searched for a
variable first and for functions only then. `Scope.referent?` is what the two searches amount to:
the innermost frame that declares a name decides, except that functions give way to a variable of a
frame further out. `Context.name_referent` says that this is what a name stands for wherever it is
used: as a value, as what a call calls, and as the place of an assignment.
-/

namespace Nominal

/-- What a name stands for. -/
inductive Referent where
  | binding (b : Binding)
  | functions (overloads : List Overload)

/-- The declaration that a referent is as a value, with its slot. Of several functions it is the one
declared last. -/
def Referent.value? : Referent → Option (DeclId × Slot Ty)
  | binding b => some (b.id, b.type)
  | functions overloads =>
    match overloads.getLast? with
    | some ⟨some id, f⟩ => some (id, ⟨.val, f.type⟩)
    | _ => none

/-- What a frame declares `name` as. -/
def Frame.referent? (f : Frame) (name : String) : Option Referent :=
  match f.bindings.find? name, f.functions.get name with
  | some b, _ => some (.binding b)
  | none, [] => none
  | none, overloads => some (.functions overloads)

namespace Scope

/-- What the innermost frame that declares `name` at all declares it as. -/
def innermost? (scope : Scope) (name : String) : Option Referent :=
  scope.findSome? fun f => f.referent? name

/-- What `name` stands for. -/
def referent? : Scope → String → Option Referent
  | [], _ => none
  | f :: outer, name =>
    match f.referent? name with
    | none => referent? outer name
    | some (.binding b) => some (.binding b)
    | some (.functions overloads) =>
      match Scope.findVariable? outer name with
      | some b => some (.binding b)
      | none => some (.functions overloads)

variable {scope : Scope} {name : String}

/-- The innermost frame that declares the name decides, unless it declares functions and a frame
further out declares a variable. -/
theorem referent?_eq_innermost? (scope : Scope) (name : String) :
    scope.referent? name = scope.innermost? name ∨
      ∃ inner f outer overloads b, scope = inner ++ f :: outer ∧
        (∀ g ∈ inner, g.referent? name = none) ∧ f.referent? name = some (.functions overloads) ∧
        Scope.findVariable? outer name = some b ∧ scope.referent? name = some (.binding b) := by
  induction scope with
  | nil => exact .inl rfl
  | cons f outer ih =>
    simp only [referent?, innermost?, List.findSome?_cons]
    cases hf : f.referent? name with
    | none =>
      obtain heq | ⟨inner, g, rest, overloads, b, rfl, hinner, hg, hvariable, hb⟩ := ih
      · exact .inl heq
      · exact .inr ⟨f :: inner, g, rest, overloads, b, rfl,
          List.forall_mem_cons.2 ⟨hf, hinner⟩, hg, hvariable, hb⟩
    | some r =>
      cases r with
      | binding b => exact .inl rfl
      | functions overloads =>
        cases hvariable : Scope.findVariable? outer name with
        | none => exact .inl rfl
        | some b => exact .inr ⟨[], f, outer, overloads, b, rfl, by simp, hf, hvariable, rfl⟩

/-- What the two searches along the chain find, by what the name stands for. -/
theorem searches_of_referent? (scope : Scope) (name : String) :
    match scope.referent? name with
    | some (.binding b) => scope.findVariable? name = some b
    | some (.functions overloads) =>
      scope.findVariable? name = none ∧ scope.findFunctions name = overloads ∧ overloads ≠ []
    | none => scope.findVariable? name = none ∧ scope.findFunctions name = [] := by
  induction scope with
  | nil => exact ⟨rfl, rfl⟩
  | cons f outer ih =>
    simp only [referent?, findVariable?, findFunctions, List.findSome?_cons] at ih ⊢
    cases hb : f.bindings.find? name with
    | some b => simp [Frame.referent?, hb]
    | none =>
      cases hg : f.functions.get name with
      | nil => simpa [Frame.referent?, hb, hg] using ih
      | cons o os =>
        simp only [Frame.referent?, hb, hg]
        cases outer.findSome? fun f => f.bindings.find? name with
        | some b => rfl
        | none => exact ⟨rfl, rfl, by simp⟩

end Scope

namespace Context

variable (ctx : Context) (s : CheckState) (name : String) (span : Span)

theorem run_scope_bind {α : Type} (f : Scope → Check α) :
    (ctx.scope >>= f) s = f (s.frame :: ctx.outer) s :=
  rfl

/-- A name that is used as a value. -/
theorem symbol_referent :
    ctx.symbol name span s =
      match (Scope.referent? (s.frame :: ctx.outer) name).bind Referent.value? with
      | some (id, slot) => .ok ⟨.reference name id, slot, span⟩ s
      | none => .error ⟨ctx.undefined name, span⟩ s := by
  have hsearches := Scope.searches_of_referent? (s.frame :: ctx.outer) name
  rw [symbol, run_scope_bind]
  cases hr : Scope.referent? (s.frame :: ctx.outer) name with
  | none =>
    rw [hr] at hsearches
    rw [hsearches.1, hsearches.2]
    rfl
  | some r =>
    rw [hr] at hsearches
    cases r with
    | binding b =>
      rw [hsearches]
      rfl
    | functions overloads =>
      rw [hsearches.1, hsearches.2.1, Option.bind_some, Referent.value?]
      cases overloads.getLast? with
      | none => rfl
      | some o =>
        obtain ⟨id?, f⟩ := o
        cases id? <;> rfl

/-- A name that is called. -/
theorem callSymbol_referent (arguments : Arguments) (callSpan : Span) :
    ctx.callSymbol name span arguments callSpan s =
      match Scope.referent? (s.frame :: ctx.outer) name with
      | some (.binding b) =>
        callValue ⟨.reference name b.id, b.type, span⟩ name arguments callSpan s
      | some (.functions overloads) => ctx.callOverload overloads name span arguments callSpan s
      | none => .error ⟨ctx.undefined name, span⟩ s := by
  have hsearches := Scope.searches_of_referent? (s.frame :: ctx.outer) name
  rw [callSymbol, run_scope_bind]
  cases hr : Scope.referent? (s.frame :: ctx.outer) name with
  | none =>
    rw [hr] at hsearches
    rw [hsearches.1, hsearches.2]
    rfl
  | some r =>
    rw [hr] at hsearches
    cases r with
    | binding b => rw [hsearches]
    | functions overloads => rw [hsearches.1, hsearches.2.1]

/-- A name that is assigned to. -/
theorem variableTarget_referent :
    ctx.variableTarget name span s =
      match Scope.referent? (s.frame :: ctx.outer) name with
      | some (.binding b) =>
        if b.type.mode = .var then .ok (.binding b.id, b.type) s
        else .error ⟨.assignmentToConst name, span⟩ s
      | some (.functions _) => .error ⟨.assignmentToConst name, span⟩ s
      | none => .error ⟨ctx.undefined name, span⟩ s := by
  have hsearches := Scope.searches_of_referent? (s.frame :: ctx.outer) name
  rw [variableTarget, run_scope_bind]
  cases hr : Scope.referent? (s.frame :: ctx.outer) name with
  | none =>
    rw [hr] at hsearches
    rw [hsearches.1, hsearches.2]
    rfl
  | some r =>
    rw [hr] at hsearches
    cases r with
    | binding b =>
      rw [hsearches]
      by_cases hmode : b.type.mode = .var
      · simp only [hmode, if_true]
        rfl
      · simp only [hmode, if_false]
        rfl
    | functions overloads =>
      obtain ⟨hvariable, hfunctions, hne⟩ := hsearches
      rw [hvariable, hfunctions]
      cases overloads with
      | nil => exact absurd rfl hne
      | cons o os => rfl

end Context

/-- Wherever a name is used, it stands for its referent in the chain of frames: as a value for the
declaration that the referent is, as a callee for the variable or for the overloads, and as the
place of an assignment for the variable. The referent is what the innermost frame that declares the
name declares it as, unless these are functions and a frame further out declares a variable. -/
theorem Context.name_referent (ctx : Context) (s : CheckState) (name : String) (span : Span)
    (arguments : Arguments) (callSpan : Span) :
    let scope : Scope := s.frame :: ctx.outer
    let e : Expr := ⟨.symbol name, span⟩
    (scope.referent? name = scope.innermost? name ∨
      ∃ inner f outer overloads b, scope = inner ++ f :: outer ∧
        (∀ g ∈ inner, g.referent? name = none) ∧ f.referent? name = some (.functions overloads) ∧
        Scope.findVariable? outer name = some b ∧ scope.referent? name = some (.binding b)) ∧
    (e.check ctx s = match (scope.referent? name).bind Referent.value? with
      | some (id, slot) => .ok ⟨.reference name id, slot, span⟩ s
      | none => .error ⟨ctx.undefined name, span⟩ s) ∧
    (e.checkCall arguments callSpan ctx s = match scope.referent? name with
      | some (.binding b) => callValue ⟨.reference name b.id, b.type, span⟩ name arguments callSpan s
      | some (.functions overloads) => ctx.callOverload overloads name span arguments callSpan s
      | none => .error ⟨ctx.undefined name, span⟩ s) ∧
    (e.checkTarget ctx s = match scope.referent? name with
      | some (.binding b) =>
        if b.type.mode = .var then .ok (.binding b.id, b.type) s
        else .error ⟨.assignmentToConst name, span⟩ s
      | some (.functions _) => .error ⟨.assignmentToConst name, span⟩ s
      | none => .error ⟨ctx.undefined name, span⟩ s) := by
  exact ⟨Scope.referent?_eq_innermost? _ name, ctx.symbol_referent s name span,
    ctx.callSymbol_referent s name span arguments callSpan,
    ctx.variableTarget_referent s name span⟩

/-! ## Functions give way to variables further out -/

namespace Session

/-- The surroundings of the statements of a block. -/
def inBlock (s : Session) : Context :=
  { s.context with outer := [s.state.frame], depth := 2 }

/-- `var x: Int = 1;` -/
def outerVariable : Stmt :=
  ⟨.varDecl "x" .nowhere .var (some (.named "Int" .nowhere)) (some ⟨.number 1, .nowhere⟩), .nowhere⟩

/-- `fun x(): Int { return 2; }` -/
def innerFunction : Stmt :=
  ⟨.fnDecl "x" .nowhere ⟨[], some (.named "Int" .nowhere),
    ⟨[⟨.ret (some ⟨.number 2, .nowhere⟩), .nowhere⟩], .nowhere⟩⟩, .nowhere⟩

/-- The number that a name was found to refer to. -/
def referredTo (result : EStateM.Result Diagnostic CheckState TypedExpr) : Option Nat :=
  match result with
  | .ok ⟨.reference _ id, _, _⟩ _ => some id.number
  | _ => none

/-- The number that a name refers to after a statement of a block, and the number of the innermost
declaration of the name that is visible there. -/
def referents (s : Session) (name : String)
    (result : EStateM.Result Diagnostic CheckState TypedStmt) : Option Nat × Option Nat :=
  match result with
  | .ok _ t => (referredTo ((Expr.mk (.symbol name) .nowhere).check s.inBlock t),
      ((Scope.innermost? (t.frame :: s.inBlock.outer) name).bind Referent.value?).map
        fun found => found.1.number)
  | .error _ _ => (none, none)

/-- In a block after the declaration of the function, the name still stands for the variable around
the block. -/
theorem innermost_function_is_not_meant : ¬ ∀ (s : Session) (stmt : Stmt) (typed : TypedStmt)
    (t : CheckState), s.Reachable →
      stmt.check s.inBlock { s.state with frame := .empty } = .ok typed t → ∀ (name : String),
        (Expr.mk (.symbol name) .nowhere).check s.inBlock t =
          match (Scope.innermost? (t.frame :: s.inBlock.outer) name).bind Referent.value? with
          | some (id, slot) => .ok ⟨.reference name id, slot, .nowhere⟩ t
          | none => .error ⟨s.inBlock.undefined name, .nowhere⟩ t := by
  intro h
  let s := ((Session.new 128).check ⟨[outerVariable], .nowhere⟩).2
  have hs : s.Reachable := .check _ (.new 128)
  let run := innerFunction.check s.inBlock { s.state with frame := .empty }
  -- the name refers to the variable, declaration 1, and the innermost frame declares declaration 2
  have hids : referents s "x" run = (some 1, some 2) := by decide +kernel
  cases hrun : run with
  | error d t =>
    rw [hrun] at hids
    cases hids
  | ok typed t =>
    rw [hrun] at hids
    obtain ⟨hmeant, hinnermost⟩ := Prod.mk.inj hids
    rw [h s innerFunction typed t hs hrun "x"] at hmeant
    cases hfound : (Scope.innermost? (t.frame :: s.inBlock.outer) "x").bind Referent.value? with
    | none =>
      rw [hfound] at hmeant
      cases hmeant
    | some found =>
      rw [hfound] at hmeant hinnermost
      exact absurd (hmeant.symm.trans hinnermost) (by decide)

end Session

end Nominal
