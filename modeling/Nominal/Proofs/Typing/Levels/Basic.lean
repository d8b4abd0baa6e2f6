import Nominal.Proofs.Syntax.Nesting
import Nominal.Proofs.Typing.Runs

/-!
# Checking with more levels

As with reading, the nesting limit has no say in a check, except that the check stops where the
limit is reached. `Check.Widens` compares a check with the same one under a higher limit: from every
state both end alike, in the same state, unless the first stops for want of levels. It also says
whether that can happen at all, so that one walk along the tree gives two results: what a higher
limit changes, and that a limit which is high enough is never reached.

There is one lemma for each way to put checks together. A transaction, a frame or a body that is
left with a diagnostic passes the diagnostic on, so none of them hides that levels were missing.
-/

namespace Nominal

/-! ## What rules report -/

theorem isNesting_wrongType (expected provided : Slot Ty) :
    (wrongType expected provided).isNesting = false := by
  unfold wrongType
  split <;> rfl

theorem Context.isNesting_undefined (ctx : Context) (name : String) :
    (ctx.undefined name).isNesting = false := by
  unfold undefined
  split <;> rfl

theorem Context.isNesting_alreadyDefined (ctx : Context) (name : String) :
    (ctx.alreadyDefined name).isNesting = false := by
  unfold alreadyDefined
  split <;> rfl

theorem not_isNesting_overloadMismatch (name : String) (overloads : List Overload)
    (arguments : List TypedExpr) (span : Span) :
    ¬ (overloadMismatch name overloads arguments span).IsNesting := by
  rw [Diagnostic.isNesting_iff, Bool.not_eq_true]
  unfold overloadMismatch
  split
  · dsimp only
    split
    · exact isNesting_wrongType _ _
    · rfl
  · rfl

/-- What is there instead of a value is not about levels. -/
def NeverNests {α : Type} (e : Except Diagnostic α) : Prop :=
  ∀ d, e = .error d → ¬ d.IsNesting

theorem NeverNests.bind {α β : Type} {e : Except Diagnostic α} {f : α → Except Diagnostic β}
    (he : NeverNests e) (hf : ∀ a, NeverNests (f a)) : NeverNests (e >>= f) := by
  cases e with
  | ok a => exact hf a
  | error d =>
    rintro _ ⟨⟩
    exact he d rfl

theorem neverNests_ok {α : Type} (a : α) : NeverNests (.ok a : Except Diagnostic α) :=
  fun _ h => nomatch h

theorem TypeExpr.neverNests_valueType (t : TypeExpr) (type : Ty) :
    NeverNests (t.valueType type) := by
  unfold valueType
  split
  · exact neverNests_ok type
  · rintro _ ⟨⟩
    simp [Diagnostic.isNesting_iff, Cause.isNesting]

namespace Scope

mutual

theorem neverNests_resolve (scope : Scope) : ∀ t : TypeExpr, NeverNests (scope.resolve t)
  | .named name span => by
    rw [resolve]
    split
    · exact neverNests_ok _
    · rintro _ ⟨⟩
      simp [Diagnostic.isNesting_iff, Cause.isNesting]
  | .function parameters result _ => by
    rw [resolve]
    exact (neverNests_resolveParameters scope parameters).bind fun slots =>
      (neverNests_resolve scope result).bind fun type => neverNests_ok _

theorem neverNests_resolveParameters (scope : Scope) :
    ∀ ts : List TypeExpr, NeverNests (scope.resolveParameters ts)
  | [] => neverNests_ok []
  | t :: ts => by
    rw [resolveParameters]
    exact (neverNests_resolve scope t).bind fun type =>
      (t.neverNests_valueType type).bind fun type =>
        (neverNests_resolveParameters scope ts).bind fun slots => neverNests_ok _

end

theorem neverNests_resolveValue (scope : Scope) (t : TypeExpr) :
    NeverNests (scope.resolveValue t) :=
  (scope.neverNests_resolve t).bind fun type => t.neverNests_valueType type

end Scope

namespace Check

variable {α β : Type} {scarce : Prop}

/-- From every state `c'` ends as `c` does, unless `c` stops for want of levels. It does so only if
they are `scarce`. -/
def Widens (scarce : Prop) (c c' : Check α) : Prop :=
  ∀ s, c.Ends s (fun a t => c' s = .ok a t) fun d t =>
    (d.IsNesting ∧ scarce) ∨ (¬ d.IsNesting ∧ c' s = .error d t)

namespace Widens

/-! ## Putting checks together -/

theorem pure (a : α) : Widens scarce (Pure.pure a) (Pure.pure a) :=
  fun _ => rfl

theorem throw {d : Diagnostic} (hd : ¬ d.IsNesting) :
    Widens scarce (MonadExcept.throw d : Check α) (MonadExcept.throw d) :=
  fun _ => .inr ⟨hd, rfl⟩

theorem fail {cause : Cause} (h : cause.isNesting = false) (span : Span) :
    Widens scarce (Check.fail cause span : Check α) (Check.fail cause span) :=
  throw (by simp [Diagnostic.isNesting_iff, h])

theorem modifyGet (f : CheckState → α × CheckState) :
    Widens scarce (MonadStateOf.modifyGet f : Check α) (MonadStateOf.modifyGet f) :=
  fun _ => rfl

theorem bind {c c' : Check α} {f f' : α → Check β} (hc : Widens scarce c c')
    (hf : ∀ a, Widens scarce (f a) (f' a)) : Widens scarce (c >>= f) (c' >>= f') := by
  intro s
  rw [ends_bind]
  refine (hc s).mono (fun a t hrun => ?_) fun d t => Or.imp_right fun ⟨hd, hrun⟩ => ?_
  · rw [run_bind_of_ok hrun]
    exact hf a t
  · exact ⟨hd, run_bind_of_error hrun⟩

/-- Going on after reading the state. -/
theorem get_bind {f f' : CheckState → Check β} (hf : ∀ s, Widens scarce (f s) (f' s)) :
    Widens scarce (get >>= f) (get >>= f') :=
  fun s => hf s s

theorem ofExcept_bind {e : Except Diagnostic α} {f f' : α → Check β}
    (he : NeverNests e) (hf : ∀ a, Widens scarce (f a) (f' a)) :
    Widens scarce (Check.ofExcept e >>= f) (Check.ofExcept e >>= f') := by
  cases e with
  | ok a => exact hf a
  | error d => exact throw (he d rfl)

theorem map {c c' : Check α} (f : α → β) (hc : Widens scarce c c') :
    Widens scarce (f <$> c) (f <$> c') := by
  rw [map_eq_pure_bind, map_eq_pure_bind]
  exact hc.bind fun a => pure (f a)

theorem mapM {f f' : α → Check β} (hf : ∀ a, Widens scarce (f a) (f' a)) (as : List α) :
    Widens scarce (as.mapM f) (as.mapM f') := by
  induction as with
  | nil => exact pure []
  | cons a rest ih =>
    rw [List.mapM_cons, List.mapM_cons]
    exact (hf a).bind fun b => ih.bind fun bs => pure (b :: bs)

/-! ## Around a check -/

theorem transaction {c c' : Check α} (hc : Widens scarce c c') :
    Widens scarce c.transaction c'.transaction := by
  intro s
  rw [ends_transaction]
  refine (hc _).mono (fun a t hrun => ?_) fun d t => Or.imp_right fun ⟨hd, hrun⟩ => ?_
  · exact run_transaction_of_ok hrun
  · exact ⟨hd, run_transaction_of_error hrun⟩

theorem undoing {c c' : Check α} (undo : Frame → Frame) (hc : Widens scarce c c') :
    Widens scarce (c.undoing undo) (c'.undoing undo) := by
  intro s
  rw [ends_undoing]
  refine (hc s).mono (fun a t hrun => ?_) fun d t => Or.imp_right fun ⟨hd, hrun⟩ => ?_
  · exact run_undoing_of_ok hrun
  · exact ⟨hd, run_undoing_of_error hrun⟩

theorem apart {c c' : Check α} (hc : Widens scarce c c') : Widens scarce c.apart c'.apart := by
  intro s
  rw [ends_apart]
  refine (hc _).mono (fun a t hrun => ?_) fun d t => Or.imp_right fun ⟨hd, hrun⟩ => ?_
  · exact run_apart_of_ok hrun
  · exact ⟨hd, run_apart_of_error hrun⟩

end Widens

end Check

/-! ## Levels -/

namespace Context

variable {α β : Type} {scarce : Prop} {ctx : Context} {l n : Nat}

/-- The same surroundings under the limit `l`. -/
def allowing (ctx : Context) (l : Nat) : Context :=
  { ctx with limit := l }

/-- Wherever `body` stands on the level of `ctx`, the limit `l` widens it. -/
def WidensBody (ctx : Context) (scarce : Prop) (l : Nat) (body : Context → Check α) : Prop :=
  ∀ outer function? className?,
    Check.Widens scarce (body { ctx with outer, function?, className? })
      (body { ctx with outer, function?, className?, limit := l })

/-- The limit `l` is no lower than that of `ctx`, under which `n` levels are left, unless levels are
`scarce`. -/
structure Allows (ctx : Context) (scarce : Prop) (l n : Nat) : Prop where
  le : ctx.limit ≤ l
  room : scarce ∨ ctx.depth + n ≤ ctx.limit

/-- What is known of the levels holds in all surroundings on the same level. -/
theorem Allows.elsewhere (h : ctx.Allows scarce l n) (outer : Scope) (function? : Option FnType)
    (className? : Option String) :
    Allows { ctx with outer, function?, className? } scarce l n :=
  ⟨h.le, h.room⟩

end Context

namespace Check.Widens

variable {α β : Type} {scarce : Prop} {ctx : Context} {l n : Nat}

theorem scope_bind {f f' : Scope → Check β} (hf : ∀ scope, Widens scarce (f scope) (f' scope)) :
    Widens scarce (ctx.scope >>= f) ((ctx.allowing l).scope >>= f') :=
  fun s => hf (s.frame :: ctx.outer) s

theorem inFrame {body : Context → Check α} (frame : Frame) (hbody : ctx.WidensBody scarce l body) :
    Widens scarce (ctx.inFrame frame body) ((ctx.allowing l).inFrame frame body) := by
  intro s
  rw [Context.ends_inFrame]
  refine (hbody (s.frame :: ctx.outer) ctx.function? ctx.className? _).mono
    (fun a t hrun => ?_) fun d t => Or.imp_right fun ⟨hd, hrun⟩ => ?_
  · exact run_inFrame_of_ok hrun
  · exact ⟨hd, run_inFrame_of_error hrun⟩

theorem inNewFrame {body : Context → Check α} (hbody : ctx.WidensBody scarce l body) :
    Widens scarce (ctx.inNewFrame body) ((ctx.allowing l).inNewFrame body) :=
  inFrame .empty hbody

/-- One level further in. Under the higher limit the level is there as well, and the limit itself is
reached only where levels are scarce. -/
theorem nested {body : Context → Check α} (span : Span) (h : ctx.Allows scarce l n)
    (hpos : 0 < n)
    (hbody : ∀ ctx : Context, ctx.Allows scarce l (n - 1) →
      Widens scarce (body ctx) (body (ctx.allowing l))) :
    Widens scarce (ctx.nested span body) ((ctx.allowing l).nested span body) := by
  have hle : ctx.limit ≤ l := h.le
  unfold Context.nested
  by_cases hdepth : ctx.depth < ctx.limit
  · have hdepth' : (ctx.allowing l).depth < (ctx.allowing l).limit := Nat.lt_of_lt_of_le hdepth hle
    rw [if_pos hdepth, if_pos hdepth']
    refine hbody { ctx with depth := ctx.depth + 1 } ⟨hle, h.room.imp_right fun hroom => ?_⟩
    show ctx.depth + 1 + (n - 1) ≤ ctx.limit
    omega
  · rw [if_neg hdepth]
    obtain hscarce | hroom := h.room
    · exact fun s => .inl ⟨⟨_, rfl⟩, hscarce⟩
    · omega

/-- Whether a value may flow into a slot has nothing to do with levels. -/
theorem expect_bind {value : TypedExpr} {target : Slot Ty} {span : Span} {f f' : Unit → Check β}
    (hf : Widens scarce (f ()) (f' ())) :
    Widens scarce (expectAssignable value target span >>= f)
      (expectAssignable value target span >>= f') := by
  unfold expectAssignable
  split
  · exact hf
  · have hd : ¬ Diagnostic.IsNesting ⟨wrongType target value.type, span⟩ := by
      simp [Diagnostic.isNesting_iff, isNesting_wrongType]
    exact throw hd

end Check.Widens

end Nominal
