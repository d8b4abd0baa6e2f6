import Nominal.Proofs.Registry
import Nominal.Proofs.Typing.Declared
import Nominal.Proofs.Typing.Ends
import Nominal.Proofs.Typing.Parts
import Nominal.Typing.Check

/-!
# What checks do to the registry

`Check.Records` keeps the books of a check. When it succeeds, it has entered the names of all its
batches, and the numbers of the new entries are those that its value accounts for. When it fails,
the entries it leaves behind are those of some batches from the first on, and all other numbers that
it took are wasted.

Each rule of the checker has one lemma here, which says that it keeps such books when its parts do.
The main facts are `Expr.check_records` and `Stmt.check_records`: by induction on the tree, checking
it records its batches, and a typed tree introduces exactly the numbers that were handed out for it.
-/

namespace Nominal

namespace Check

variable {α β : Type}

/-- The check `c` enters the names of `batches`, one batch after the other. If it succeeds with a
value `a`, the numbers `l` given to them are such that `ids a l`. -/
def Records (c : Check α) (batches : List (List String)) (ids : α → List DeclId → Prop) : Prop :=
  ∀ s, c.Ends s
    (fun a t => ∃ items, t.registry = s.registry.enter items ∧
      (items.map Prod.fst).Perm batches.flatten ∧ ids a (s.registry.upcoming items.length))
    (fun _ t => ∃ items n, t.registry = (s.registry.enter items).skip n ∧
      ∃ done, done <+: batches ∧ (items.map Prod.fst).Perm done.flatten)

namespace Records

variable {c : Check α} {batches : List (List String)} {ids ids' : α → List DeclId → Prop}

theorem mono (h : c.Records batches ids) (hids : ∀ a l, ids a l → ids' a l) :
    c.Records batches ids' := by
  intro s
  refine (h s).mono ?_ fun _ _ hd => hd
  rintro a t ⟨items, ht, hperm, hl⟩
  exact ⟨items, ht, hperm, hids a _ hl⟩

/-- A check that leaves the registry alone. -/
theorem of_registry_eq (h : ∀ s, c.Ends s (fun a t => t.registry = s.registry ∧ ids a [])
    (fun _ t => t.registry = s.registry)) : c.Records [] ids := by
  intro s
  refine (h s).mono ?_ ?_
  · rintro a t ⟨ht, hl⟩
    exact ⟨[], ht, .refl _, hl⟩
  · intro d t ht
    exact ⟨[], 0, ht, [], List.nil_prefix, .refl _⟩

theorem pure {a : α} (h : ids a []) : (Pure.pure a : Check α).Records [] ids :=
  of_registry_eq fun _ => ⟨rfl, h⟩

/-- A failure breaks off before the first batch. -/
theorem fail (cause : Cause) (span : Span) :
    (Check.fail cause span : Check α).Records batches ids :=
  fun _ => ⟨[], 0, rfl, [], List.nil_prefix, .refl _⟩

theorem throw (d : Diagnostic) : (MonadExcept.throw d : Check α).Records batches ids :=
  fun _ => ⟨[], 0, rfl, [], List.nil_prefix, .refl _⟩

theorem bind {f : α → Check β} {first : List (List String)} {ids' : β → List DeclId → Prop}
    (hc : c.Records first ids)
    (hf : ∀ a l, ids a l → (f a).Records batches fun b l' => ids' b (l ++ l')) :
    (c >>= f).Records (first ++ batches) ids' := by
  intro s
  rw [ends_bind]
  refine (hc s).mono ?_ ?_
  · rintro a t ⟨items, ht, hperm, hl⟩
    refine (hf a _ hl t).mono ?_ ?_
    · rintro b u ⟨items', hu, hperm', hl'⟩
      refine ⟨items ++ items', by rw [hu, ht, Registry.enter_append], ?_, ?_⟩
      · rw [List.map_append, List.flatten_append]
        exact hperm.append hperm'
      · rw [Registry.upcoming_append, ← ht]
        exact hl'
    · rintro d u ⟨items', n, hu, done, hdone, hperm'⟩
      -- the first part is complete, so all its batches come before those of the second
      refine ⟨items ++ items', n, by rw [hu, ht, Registry.enter_append], first ++ done,
        (List.prefix_append_right_inj first).2 hdone, ?_⟩
      rw [List.map_append, List.flatten_append]
      exact hperm.append hperm'
  · -- the second part is never reached
    rintro d t ⟨items, n, ht, done, hdone, hperm⟩
    exact ⟨items, n, ht, done, hdone.trans (List.prefix_append _ _), hperm⟩

/-- Without batches there are no numbers. -/
theorem ids_nil (h : c.Records [] ids) : c.Records [] fun a l => l = [] ∧ ids a l := by
  intro s
  refine (h s).mono ?_ fun _ _ hd => hd
  rintro a t ⟨items, ht, hperm, hl⟩
  have hitems : items = [] := List.map_eq_nil_iff.1 hperm.eq_nil
  subst hitems
  exact ⟨[], ht, hperm, rfl, hl⟩

/-- Followed by a check that enters nothing. -/
theorem bind_nil {f : α → Check β} {ids' : β → List DeclId → Prop} (hc : c.Records batches ids)
    (hf : ∀ a l, ids a l → (f a).Records [] fun b _ => ids' b l) :
    (c >>= f).Records batches ids' := by
  rw [← List.append_nil batches]
  refine hc.bind fun a l hl => (hf a l hl).ids_nil.mono ?_
  rintro b l' ⟨rfl, hb⟩
  rwa [List.append_nil]

theorem map {f : α → β} {ids' : β → List DeclId → Prop} (hc : c.Records batches ids)
    (hf : ∀ a l, ids a l → ids' (f a) l) : (f <$> c).Records batches ids' := by
  rw [map_eq_pure_bind]
  exact hc.bind_nil fun a l hl => .pure (hf a l hl)

/-- Preceded by a check that enters nothing. -/
theorem nil_bind {f : α → Check β} {ids' : β → List DeclId → Prop}
    (hc : c.Records [] fun _ l => l = [])
    (hf : ∀ a, (f a).Records batches ids') : (c >>= f).Records batches ids' := by
  refine hc.bind fun a l hl => ?_
  subst hl
  exact hf a

theorem get_bind {f : CheckState → Check β} {ids' : β → List DeclId → Prop}
    (hf : ∀ s, (f s).Records batches ids') : (get >>= f).Records batches ids' :=
  nil_bind (of_registry_eq fun _ => ⟨rfl, rfl⟩) hf

theorem scope_bind {ctx : Context} {f : Scope → Check β} {ids' : β → List DeclId → Prop}
    (hf : ∀ s, (f s).Records batches ids') : (ctx.scope >>= f).Records batches ids' :=
  nil_bind (of_registry_eq fun _ => ⟨rfl, rfl⟩) hf

theorem ofExcept_bind {e : Except Diagnostic α} {f : α → Check β}
    {ids' : β → List DeclId → Prop} (hf : ∀ a, (f a).Records batches ids') :
    (Check.ofExcept e >>= f).Records batches ids' := by
  cases e with
  | ok a => exact hf a
  | error d => exact throw d

theorem setFrame (frame : Frame) : (Check.setFrame frame).Records [] fun _ l => l = [] :=
  of_registry_eq fun _ => ⟨rfl, rfl⟩

theorem modify {f : CheckState → CheckState} (hf : ∀ s, (f s).registry = s.registry) :
    (MonadStateOf.modifyGet (fun s => ((), f s)) : Check Unit).Records [] fun _ l => l = [] :=
  of_registry_eq fun s => ⟨hf s, rfl⟩

theorem updateClass (c : ClassRef) (f : ClassInfo → ClassInfo) :
    (Check.updateClass c f).Records [] fun _ l => l = [] :=
  of_registry_eq fun _ => ⟨rfl, rfl⟩

theorem insertDeclaration (name : String) (type : Slot Ty) :
    (Check.insertDeclaration name type).Records [[name]] fun id l => l = [id] := by
  intro s
  rw [ends_insertDeclaration]
  refine ⟨[(name, type)], rfl, .refl _, ?_⟩
  unfold Registry.insert
  cases s.registry.layers <;> rfl

theorem undoing {undo : Frame → Frame} (h : c.Records batches ids) :
    (c.undoing undo).Records batches ids := by
  intro s
  rw [ends_undoing]
  exact h s

theorem apart (h : c.Records batches ids) : c.apart.Records batches fun p l => ids p.1 l := by
  intro s
  rw [ends_apart]
  exact h { s with returned := false }

theorem inFrame {ctx : Context} {frame : Frame} {body : Context → Check α}
    (h : ∀ ctx, (body ctx).Records batches ids) : (ctx.inFrame frame body).Records batches ids := by
  intro s
  rw [Context.ends_inFrame]
  exact h _ { s with frame }

theorem nested {ctx : Context} {span : Span} {body : Context → Check α}
    (h : ∀ ctx, (body ctx).Records batches ids) : (ctx.nested span body).Records batches ids := by
  unfold Context.nested
  split
  · exact h _
  · exact fail _ _

end Records

/-- The check `c` enters the names of `batch` as a whole. If it fails, it leaves no entries behind,
only wasted numbers. -/
def RecordsWhole (c : Check α) (batch : List String) (ids : α → List DeclId → Prop) : Prop :=
  ∀ s, c.Ends s
    (fun a t => ∃ items, t.registry = s.registry.enter items ∧
      (items.map Prod.fst).Perm batch ∧ ids a (s.registry.upcoming items.length))
    (fun _ t => ∃ n, t.registry = s.registry.skip n)

/-- A transaction makes one batch of all that is entered in it. -/
theorem RecordsWhole.transaction {c : Check α} {batches : List (List String)} {batch : List String}
    {ids : α → List DeclId → Prop} (hbatch : batches.flatten.Perm batch)
    (h : c.Records batches ids) : c.transaction.RecordsWhole batch ids := by
  intro s
  rw [ends_transaction]
  refine (h _).mono ?_ ?_
  · rintro a t ⟨items, ht, hperm, hl⟩
    exact ⟨items, by rw [ht, Registry.commit_enter_begin], hperm.trans hbatch, hl⟩
  · -- the entries are dropped with their layer, and their numbers are wasted like the others
    rintro d t ⟨items, n, ht, -⟩
    exact ⟨items.length + n, by rw [ht, Registry.abort_skip_enter_begin]⟩

namespace RecordsWhole

variable {c : Check α} {batch : List String} {ids : α → List DeclId → Prop}

theorem records (h : c.RecordsWhole batch ids) : c.Records [batch] ids := by
  intro s
  refine (h s).mono ?_ ?_
  · rintro a t ⟨items, ht, hperm, hl⟩
    refine ⟨items, ht, ?_, hl⟩
    simpa using hperm
  · rintro d t ⟨n, ht⟩
    exact ⟨[], n, ht, [], List.nil_prefix, .refl _⟩

theorem fail (cause : Cause) (span : Span) :
    (Check.fail cause span : Check α).RecordsWhole batch ids :=
  fun _ => ⟨0, rfl⟩

theorem scope_bind {ctx : Context} {f : Scope → Check β} {ids' : β → List DeclId → Prop}
    (hf : ∀ s, (f s).RecordsWhole batch ids') : (ctx.scope >>= f).RecordsWhole batch ids' := by
  intro s
  rw [ends_bind, Context.ends_scope]
  exact hf _ s

theorem ofExcept_bind {e : Except Diagnostic α} {f : α → Check β}
    {ids' : β → List DeclId → Prop} (hf : ∀ a, (f a).RecordsWhole batch ids') :
    (Check.ofExcept e >>= f).RecordsWhole batch ids' := by
  cases e with
  | ok a => exact hf a
  | error d => exact fun _ => ⟨0, rfl⟩

/-- Followed by nothing that could fail. -/
theorem map {f : α → β} {ids' : β → List DeclId → Prop} (hc : c.RecordsWhole batch ids)
    (hf : ∀ a l, ids a l → ids' (f a) l) : (f <$> c).RecordsWhole batch ids' := by
  intro s
  rw [ends_map]
  refine (hc s).mono ?_ fun _ _ hd => hd
  rintro a t ⟨items, ht, hperm, hl⟩
  exact ⟨items, ht, hperm, hf a _ hl⟩

theorem apart (h : c.RecordsWhole batch ids) :
    c.apart.RecordsWhole batch fun p l => ids p.1 l := by
  intro s
  rw [ends_apart]
  exact h { s with returned := false }

end RecordsWhole

end Check

/-! ## Declarations -/

namespace Context

open Check

theorem bind_records (name : String) (type : Slot Ty) (refused : Cause) (span : Span) :
    (bind name type refused span).Records [[name]] fun id l => l = [id] := by
  unfold bind
  refine (Records.insertDeclaration name type).bind_nil fun id l hl => .get_bind fun s => ?_
  split
  · exact (Records.setFrame _).bind_nil fun _ _ _ => .pure hl
  · exact .fail _ _

theorem declareParameter_records (ctx : Context) (p : Parameter) :
    (ctx.declareParameter p).Records [[p.name]] fun declared l => l = [declared.1] := by
  unfold declareParameter
  refine .scope_bind fun scope => .ofExcept_bind fun type => ?_
  exact (bind_records _ _ _ _).bind_nil fun id l hl => .pure hl

/-- Parameters that are declared one after the other. -/
theorem mapM_records {α : Type} {f : Parameter → Check α} {number : α → DeclId}
    (h : ∀ p, (f p).Records [[p.name]] fun a l => l = [number a]) (parameters : List Parameter) :
    (parameters.mapM f).Records (parameters.map fun p => [p.name])
      fun declared l => l = declared.map number := by
  induction parameters with
  | nil => exact .pure rfl
  | cons p rest ih =>
    rw [List.mapM_cons]
    show Records _ ([[p.name]] ++ rest.map fun p => [p.name]) _
    refine (h p).bind fun first l hl => ih.bind_nil fun others l' hl' => .pure ?_
    rw [hl, hl']
    rfl

theorem parameterHead_records (ctx : Context) (parameters : List Parameter) (result : Ty) :
    (ctx.parameterHead parameters result).Records (parameters.map fun p => [p.name])
      fun head l => l = head.parameters := by
  unfold parameterHead
  refine .inFrame fun ctx => ?_
  refine (mapM_records ctx.declareParameter_records parameters).bind_nil fun declared l hl => ?_
  exact .get_bind fun s => .pure hl

theorem functionHead_records (ctx : Context) (parameters : List Parameter)
    (result? : Option TypeExpr) :
    (ctx.functionHead parameters result?).Records (parameters.map fun p => [p.name])
      fun head l => l = head.parameters := by
  rw [functionHead_eq]
  cases result? with
  | none => exact ctx.parameterHead_records parameters .nothing
  | some t => exact .scope_bind fun scope => .ofExcept_bind (ctx.parameterHead_records parameters)

theorem functionBody_records {ctx : Context} {head : FunctionHead} {name? : Option String}
    {bodySpan : Span} {body : Context → Check (List TypedStmt)} {batches : List (List String)}
    (h : ∀ ctx, (body ctx).Records batches fun stmts l => (TypedStmt.allIntroduced stmts).Perm l) :
    (ctx.functionBody head name? bodySpan body).Records batches
      fun stmts l => (TypedStmt.allIntroduced stmts).Perm l := by
  unfold functionBody
  refine (Records.apart (Records.inFrame h)).bind_nil fun (stmts, returned) l hl => ?_
  dsimp only
  split
  · exact .pure hl
  · exact .fail _ _

end Context

end Nominal
