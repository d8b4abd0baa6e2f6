import Nominal.Proofs.Syntax.Stretches
import Nominal.Proofs.Typing.Mirrors.Relation
import Nominal.Proofs.Typing.Soundness.Statements

/-!
# Checks that mirror what they check

`Check.Renders` says what a check gives and where it fails. It goes from states in which every name
of the scope was entered into the registry under this name (`CheckState.Named`) to later ones, its
value mirrors what was checked, whatever is known of the numbers that the last state has entries for,
and the diagnostic it may give instead stands at a `place`. The numbers in the scope are all that the
typed tree takes from the state without their names, so nothing is asked of the classes.
-/

namespace Nominal

/-! ## Names in the scope -/

/-- The types of the frame are found under their names. -/
def Frame.Titled (f : Frame) : Prop :=
  ∀ name type, f.types.find? name = some type → type.name = name

/-- What the frame has under a name was declared by this name. -/
structure Frame.Named (f : Frame) (entries : List Declaration) : Prop where
  /-- How many classes there are does not matter here. -/
  sound : ∃ count, f.Sound entries count
  titled : f.Titled

namespace Frame

variable {f g : Frame} {entries entries' : List Declaration} {name : String}

theorem Titled.of_types_eq (h : f.Titled) (htypes : g.types = f.types) : g.Titled := by
  unfold Titled
  rw [htypes]
  exact h

theorem Named.mono (h : f.Named entries) (hentries : entries ⊆ entries') : f.Named entries' := by
  obtain ⟨count, hsound⟩ := h.sound
  exact ⟨⟨count, hsound.mono hentries (Nat.le_refl _)⟩, h.titled⟩

theorem named_empty (entries : List Declaration) : empty.Named entries where
  sound := ⟨0, sound_empty entries 0⟩
  titled _ _ h := nomatch h

theorem Named.declareVariable (h : f.Named entries) {binding : Binding}
    (hdeclare : f.declareVariable name binding = some g)
    (hmem : ⟨binding.id, name, binding.type⟩ ∈ entries) : g.Named entries := by
  obtain ⟨count, hsound⟩ := h.sound
  exact ⟨⟨count, hsound.declareVariable hdeclare hmem⟩,
    h.titled.of_types_eq (types_of_declareVariable hdeclare)⟩

theorem Named.declareFunction (h : f.Named entries) {o : Overload}
    (hdeclare : f.declareFunction name o = some g) (ho : o.DeclaredIn entries name) :
    g.Named entries := by
  obtain ⟨count, hsound⟩ := h.sound
  exact ⟨⟨count, hsound.declareFunction hdeclare ho⟩,
    h.titled.of_types_eq (types_of_declareFunction hdeclare)⟩

theorem Named.declareClass (h : f.Named entries) {c : ClassRef}
    (hdeclare : f.declareType c.name (.cls c) = some g) : g.Named entries := by
  obtain ⟨count, hsound⟩ := h.sound
  have hlater := hsound.mono (List.Subset.refl entries) (Nat.le_max_left count (c.key + 1))
  refine ⟨⟨_, hlater.declareType hdeclare (by omega)⟩, ?_⟩
  obtain ⟨-, rfl⟩ := declareType_eq_some hdeclare
  exact Table.forall_insert h.titled rfl

end Frame

namespace CheckState

/-- What the frames have under a name was entered into the registry by this name. -/
def Named (s : CheckState) (outer : Scope) : Prop :=
  ∀ f ∈ s.frame :: outer, f.Named s.registry.entries

/-- The numbers of the entries are known to be those of their names. -/
def Tells (s : CheckState) (known : Naming) : Prop :=
  ∀ d ∈ s.registry.entries, known d.id d.name

variable {s t : CheckState} {outer : Scope} {name : String} {known : Naming}

theorem Tells.of_subset (h : t.Tells known) (hentries : s.registry.entries ⊆ t.registry.entries) :
    s.Tells known :=
  fun d hd => h d (hentries hd)

theorem Named.of_frame_eq (h : s.Named outer) (hframe : t.frame = s.frame)
    (hentries : s.registry.entries ⊆ t.registry.entries) : t.Named outer := by
  intro f hf
  rw [hframe] at hf
  exact (h f hf).mono hentries

theorem Named.begin (h : s.Named outer) : { s with registry := s.registry.begin }.Named outer :=
  h.of_frame_eq rfl (by simp)

theorem Named.setReturned (h : s.Named outer) (returned : Bool) : { s with returned }.Named outer :=
  h.of_frame_eq rfl (List.Subset.refl _)

theorem Named.frame (h : s.Named outer) : s.frame.Named s.registry.entries :=
  h s.frame List.mem_cons_self

theorem Named.setFrame (h : s.Named outer) {frame : Frame}
    (hframe : frame.Named s.registry.entries) :
    { s with frame }.Named outer := by
  intro f hf
  rcases List.mem_cons.1 hf with rfl | houter
  · exact hframe
  · exact h f (List.mem_cons_of_mem _ houter)

/-- In a frame inside the current one. -/
theorem Named.inside (h : s.Named outer) {frame : Frame}
    (hframe : frame.Named s.registry.entries) :
    { s with frame }.Named (s.frame :: outer) := by
  intro f hf
  rcases List.mem_cons.1 hf with rfl | houter
  · exact hframe
  · exact h f houter

/-- Back in the frame around. -/
theorem Named.outside {frame : Frame} (h : t.Named (frame :: outer)) :
    { t with frame }.Named outer :=
  fun f hf => h f (List.mem_cons_of_mem _ hf)

/-- Whatever frames are named by, a variable is found under the name it was entered with. -/
theorem Named.known_variable (h : s.Named outer) (hknown : s.Tells known) {b : Binding}
    (hb : Scope.findVariable? (s.frame :: outer) name = some b) : known b.id name := by
  obtain ⟨f, hf, hfind⟩ := List.exists_of_findSome?_eq_some hb
  obtain ⟨count, hsound⟩ := (h f hf).sound
  exact hknown _ (hsound.bindings name b hfind)

theorem Named.declaredIn (h : s.Named outer) {o : Overload}
    (ho : o ∈ Scope.findFunctions (s.frame :: outer) name) :
    o.DeclaredIn s.registry.entries name := by
  obtain ⟨f, hf, hget⟩ := mem_get_of_mem_findFunctions ho
  obtain ⟨count, hsound⟩ := (h f hf).sound
  exact hsound.functions name o hget

theorem Named.known_function (h : s.Named outer) (hknown : s.Tells known) {id : DeclId}
    {f : FnType} (ho : ⟨some id, f⟩ ∈ Scope.findFunctions (s.frame :: outer) name) :
    known id name := by
  obtain ⟨id', hid, hmem⟩ := h.declaredIn ho
  cases hid
  exact hknown _ hmem

theorem Named.name_of_findType? (h : s.Named outer) {type : Ty}
    (htype : Scope.findType? (s.frame :: outer) name = some type) : type.name = name := by
  obtain ⟨f, hf, hfind⟩ := List.exists_of_findSome?_eq_some htype
  exact (h f hf).titled name type hfind

end CheckState

/-! ## Checks -/

namespace Check

variable {α β : Type}

/-- The diagnostic stands at a `place`. Nothing is asked of the frame but the names of its types, as
the rest of it is taken back. -/
def FailsAt (place : Span → Prop) (d : Diagnostic) (t : CheckState) : Prop :=
  place d.span ∧ t.frame.Titled

/-- Started in `s`, the check ends with a value that is `ok` for whatever tells the numbers of the
last state, or it fails at a `place`. -/
def RendersFrom (c : Check α) (s : CheckState) (outer : Scope) (ok : α → Naming → Prop)
    (place : Span → Prop) : Prop :=
  c.Ends s
    (fun a t => t.Named outer ∧ s.registry.entries ⊆ t.registry.entries ∧
      ∀ known, t.Tells known → ok a known)
    (FailsAt place)

/-- The same for all states to start in that have their names. -/
def Renders (c : Check α) (outer : Scope) (ok : α → Naming → Prop) (place : Span → Prop) : Prop :=
  ∀ s, s.Named outer → c.RendersFrom s outer ok place

variable {c : Check α} {s : CheckState} {outer : Scope} {ok ok' : α → Naming → Prop}
  {okAfter : β → Naming → Prop} {place : Span → Prop}

namespace RendersFrom

theorem mono (h : c.RendersFrom s outer ok place)
    (hok : ∀ a known, s.Tells known → ok a known → ok' a known) :
    c.RendersFrom s outer ok' place := by
  refine Ends.mono h ?_ fun _ _ hfails => hfails
  rintro a t ⟨ht, hentries, ha⟩
  exact ⟨ht, hentries, fun known hknown =>
    hok a known (hknown.of_subset hentries) (ha known hknown)⟩

theorem pure {a : α} (hs : s.Named outer) (h : ∀ known, s.Tells known → ok a known) :
    (Pure.pure a : Check α).RendersFrom s outer ok place :=
  ⟨hs, List.Subset.refl _, h⟩

/-- What the value is may depend on the state that the first part ends in, of which `Q` is known
besides. -/
theorem bind_of_ends {Q : α → CheckState → Prop} {f : α → Check β}
    (hc : c.Ends s
      (fun a t => t.Named outer ∧ s.registry.entries ⊆ t.registry.entries ∧ Q a t)
      (FailsAt place))
    (hf : ∀ a t, t.Named outer → Q a t → (f a).RendersFrom t outer okAfter place) :
    (c >>= f).RendersFrom s outer okAfter place := by
  unfold RendersFrom
  rw [ends_bind]
  refine hc.mono ?_ fun _ _ hfails => hfails
  rintro a t ⟨ht, hentries, hQ⟩
  refine Ends.mono (hf a t ht hQ) ?_ fun _ _ hfails => hfails
  rintro b u ⟨hu, hentries', hb⟩
  exact ⟨hu, fun _ h => hentries' (hentries h), hb⟩

/-- Whatever the first part gives, it is `ok` if everything were known. -/
theorem bind {f : α → Check β} (hc : c.RendersFrom s outer ok place)
    (hf : ∀ a, ok a (fun _ _ => True) →
      (f a).Renders outer (fun b known => ok a known → okAfter b known) place) :
    (c >>= f).RendersFrom s outer okAfter place := by
  refine bind_of_ends hc ?_
  intro a t ht ha
  have hsome := ha (fun _ _ => True) fun _ _ => trivial
  exact (hf a hsome t ht).mono fun b known hknown h => h (ha known hknown)

theorem transaction (h : c.RendersFrom { s with registry := s.registry.begin } outer ok place) :
    c.transaction.RendersFrom s outer ok place := by
  unfold RendersFrom
  rw [ends_transaction]
  refine Ends.mono h ?_ fun _ _ hfails => hfails
  rintro a t ⟨ht, hentries, ha⟩
  refine ⟨ht.of_frame_eq rfl (by simp), by simpa using hentries, fun known hknown => ?_⟩
  exact ha known (hknown.of_subset (by simp))

theorem undoing {undo : Frame → Frame} (hundo : ∀ f, (undo f).types = f.types)
    (h : c.RendersFrom s outer ok place) : (c.undoing undo).RendersFrom s outer ok place := by
  unfold RendersFrom
  rw [ends_undoing]
  refine Ends.mono h (fun _ _ hok => hok) ?_
  rintro d t ⟨hplace, htitled⟩
  exact ⟨hplace, htitled.of_types_eq (hundo t.frame)⟩

theorem apart (h : c.RendersFrom { s with returned := false } outer ok place) :
    c.apart.RendersFrom s outer (fun p known => ok p.1 known) place := by
  unfold RendersFrom
  rw [ends_apart]
  refine Ends.mono h ?_ fun _ _ hfails => hfails
  rintro a t ⟨ht, hentries, ha⟩
  exact ⟨ht.setReturned _, hentries, ha⟩

theorem inFrame {ctx : Context} {frame : Frame} {body : Context → Check α} (hs : s.Named ctx.outer)
    (hframe : frame.Named s.registry.entries)
    (hbody : (body { ctx with outer := s.frame :: ctx.outer }).Renders (s.frame :: ctx.outer) ok
      place) :
    (ctx.inFrame frame body).RendersFrom s ctx.outer ok place := by
  unfold RendersFrom
  rw [Context.ends_inFrame]
  refine Ends.mono (hbody _ (hs.inside hframe)) ?_ fun _ _ hfails => ⟨hfails.1, hs.frame.titled⟩
  rintro a t ⟨ht, hentries, ha⟩
  exact ⟨ht.outside, hentries, ha⟩

end RendersFrom

namespace Renders

theorem mono (h : c.Renders outer ok place) (hok : ∀ a known, ok a known → ok' a known) :
    c.Renders outer ok' place :=
  fun s hs => (h s hs).mono fun a known _ => hok a known

theorem pure {a : α} (h : ∀ known, ok a known) :
    (Pure.pure a : Check α).Renders outer ok place :=
  fun _ hs => .pure hs fun known _ => h known

theorem fail (cause : Cause) {span : Span} (h : place span) :
    (Check.fail cause span : Check α).Renders outer ok place :=
  fun _ hs => ⟨h, hs.frame.titled⟩

theorem throw {d : Diagnostic} (h : place d.span) :
    (MonadExcept.throw d : Check α).Renders outer ok place :=
  fun _ hs => ⟨h, hs.frame.titled⟩

theorem bind {f : α → Check β} (hc : c.Renders outer ok place)
    (hf : ∀ a, ok a (fun _ _ => True) →
      (f a).Renders outer (fun b known => ok a known → okAfter b known) place) :
    (c >>= f).Renders outer okAfter place :=
  fun s hs => (hc s hs).bind hf

theorem map {f : α → β} (hc : c.Renders outer ok place)
    (hf : ∀ a known, ok a known → okAfter (f a) known) :
    (f <$> c).Renders outer okAfter place := by
  rw [map_eq_pure_bind]
  exact hc.bind fun a _ => .pure fun known ha => hf a known ha

theorem get_bind {f : CheckState → Check β} (hf : ∀ s, (f s).Renders outer okAfter place) :
    (get >>= f).Renders outer okAfter place :=
  fun s hs => hf s s hs

/-- What is found in the scope has its name. -/
theorem scope_bind {ctx : Context} {f : Scope → Check β}
    (hf : ∀ s : CheckState, s.Named ctx.outer →
      (f (s.frame :: ctx.outer)).Renders ctx.outer
        (fun b known => s.Tells known → okAfter b known) place) :
    (ctx.scope >>= f).Renders ctx.outer okAfter place := by
  intro s hs
  have hafter := hf s hs s hs
  exact hafter.mono fun b known hknown h => h hknown

/-- Nothing is asked of what is found. -/
theorem scope_bind_forget {ctx : Context} {f : Scope → Check β}
    (hf : ∀ scope, (f scope).Renders ctx.outer okAfter place) :
    (ctx.scope >>= f).Renders ctx.outer okAfter place :=
  .scope_bind fun _ _ => (hf _).mono fun _ _ h _ => h

theorem ofExcept_bind {e : Except Diagnostic α} {f : α → Check β}
    (hfail : ∀ d, e = .error d → place d.span) (hf : ∀ a, (f a).Renders outer okAfter place) :
    (Check.ofExcept e >>= f).Renders outer okAfter place := by
  cases e with
  | ok a => exact hf a
  | error d => exact throw (hfail d rfl)

theorem expect_bind {value : TypedExpr} {slot : Slot Ty} {span : Span} {f : Unit → Check β}
    (hspan : place span) (hf : (f ()).Renders outer okAfter place) :
    (expectAssignable value slot span >>= f).Renders outer okAfter place := by
  unfold expectAssignable
  split
  · exact hf
  · exact fail _ hspan

theorem transaction (h : c.Renders outer ok place) : c.transaction.Renders outer ok place :=
  fun _ hs => .transaction (h _ hs.begin)

theorem undoing {undo : Frame → Frame} (hundo : ∀ f, (undo f).types = f.types)
    (h : c.Renders outer ok place) : (c.undoing undo).Renders outer ok place :=
  fun s hs => .undoing hundo (h s hs)

theorem apart (h : c.Renders outer ok place) :
    c.apart.Renders outer (fun p known => ok p.1 known) place :=
  fun _ hs => .apart (h _ (hs.setReturned false))

theorem nested {ctx : Context} {span : Span} {body : Context → Check α} (hspan : place span)
    (h : ∀ ctx, (body ctx).Renders ctx.outer ok place) :
    (ctx.nested span body).Renders ctx.outer ok place := by
  unfold Context.nested
  split
  · exact h { ctx with depth := ctx.depth + 1 }
  · exact fail _ hspan

theorem inNewFrame {ctx : Context} {body : Context → Check α}
    (h : ∀ ctx, (body ctx).Renders ctx.outer ok place) :
    (ctx.inNewFrame body).Renders ctx.outer ok place :=
  fun _ hs => .inFrame hs (Frame.named_empty _) (h _)

end Renders

/-- A check of an expression that mirrors it afterwards. -/
abbrev RendersExpr (c : Check TypedExpr) (outer : Scope) (e : Expr) (place : Span → Prop) : Prop :=
  c.Renders outer (fun typed known => e.Mirrors known typed ∧ place typed.span) place

/-- The expressions are mirrored one by one. -/
abbrev RendersExprs (c : Check (List TypedExpr)) (outer : Scope) (es : List Expr)
    (place : Span → Prop) : Prop :=
  c.Renders outer
    (fun typed known => List.Forall₂ (Expr.Mirrors known) es typed ∧ ∀ t ∈ typed, place t.span)
    place

abbrev RendersTarget (c : Check (Target × Slot Ty)) (outer : Scope) (e : Expr)
    (place : Span → Prop) : Prop :=
  c.Renders outer (fun target known => e.MirrorsTarget known target.1) place

/-- A check of a statement that mirrors it afterwards. -/
abbrev RendersStmt (c : Check TypedStmt) (outer : Scope) (stmt : Stmt) (place : Span → Prop) :
    Prop :=
  c.Renders outer (fun typed known => stmt.Mirrors known typed) place

abbrev RendersStmts (c : Check (List TypedStmt)) (outer : Scope) (stmts : List Stmt)
    (place : Span → Prop) : Prop :=
  c.Renders outer (fun typed known => List.Forall₂ (Stmt.Mirrors known) stmts typed) place

end Check

end Nominal
