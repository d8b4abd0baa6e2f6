import Nominal.Proofs.Typing.Values.Basic

/-!
# Checks that keep states valued

`Check.ValuesFrom` is about one start, `Check.Values` about all valued ones. There is one lemma for
each way to put checks together. What a check has found out may be used in later states, as the
classes only become more (`Ty.Proper.mono`).
-/

namespace Nominal

namespace Check

variable {α β : Type}

/-- Started in `s`, the check ends in a valued state which has all classes of `s`, whether it succeeds
or fails. When it succeeds, its value has the property `ok`, and a diagnostic is fair. -/
def ValuesFrom (c : Check α) (s : CheckState) (outer : Scope) (ok : α → CheckState → Prop) : Prop :=
  c.Ends s
    (fun a t => s.classes.names ⊆ t.classes.names ∧ t.Valued outer ∧ ok a t)
    (fun d t => s.classes.names ⊆ t.classes.names ∧ t.Valued outer ∧ d.Fair t.classes.names)

/-- The same from every valued state. What holds of the value may refer to the names of the
classes. -/
def Values (c : Check α) (outer : Scope) (ok : α → List String → Prop) : Prop :=
  ∀ s, s.Valued outer → c.ValuesFrom s outer fun a t => ok a t.classes.names

/-- Nothing is asked of the value. -/
abbrev KeepsValues (c : Check α) (outer : Scope) : Prop :=
  c.Values outer fun _ _ => True

/-- A check of an expression that gives it a type that the checker may come by. -/
abbrev ProperExpr (c : Check TypedExpr) (outer : Scope) : Prop :=
  c.Values outer fun e known => e.type.type.Proper known

/-- The same for the slot of a target. -/
abbrev ProperTarget (c : Check (Target × Slot Ty)) (outer : Scope) : Prop :=
  c.Values outer fun target known => target.2.type.Proper known

namespace ValuesFrom

variable {c : Check α} {s : CheckState} {outer : Scope} {ok : α → CheckState → Prop}
  {ok' : β → CheckState → Prop}

theorem mono {Q : α → CheckState → Prop} (h : c.ValuesFrom s outer ok)
    (hQ : ∀ a t, ok a t → Q a t) : c.ValuesFrom s outer Q :=
  Ends.mono h (fun a t ht => ⟨ht.1, ht.2.1, hQ a t ht.2.2⟩) fun _ _ ht => ht

theorem forget (h : c.ValuesFrom s outer ok) : c.ValuesFrom s outer fun _ _ => True :=
  h.mono fun _ _ _ => trivial

/-- The states at both ends are valued. -/
theorem both (h : c.ValuesFrom s outer ok) :
    c.Ends s (fun _ t => t.Valued outer) (fun _ t => t.Valued outer) :=
  Ends.mono h (fun _ _ ht => ht.2.1) fun _ _ ht => ht.2.1

theorem pure {a : α} (hs : s.Valued outer) (h : ok a s) :
    (Pure.pure a : Check α).ValuesFrom s outer ok :=
  ⟨List.Subset.refl _, hs, h⟩

theorem throw {d : Diagnostic} (hs : s.Valued outer) (hd : d.Fair s.classes.names) :
    (MonadExcept.throw d : Check α).ValuesFrom s outer ok :=
  ⟨List.Subset.refl _, hs, hd⟩

theorem fail {cause : Cause} {span : Span} (hs : s.Valued outer)
    (hcause : cause.isContradictory = false) :
    (Check.fail cause span : Check α).ValuesFrom s outer ok :=
  throw hs (.of_cause hcause)

theorem bind {f : α → Check β} (hc : c.ValuesFrom s outer ok)
    (hf : ∀ a t, s.classes.names ⊆ t.classes.names → t.Valued outer → ok a t →
      (f a).ValuesFrom t outer ok') : (c >>= f).ValuesFrom s outer ok' := by
  unfold ValuesFrom
  rw [ends_bind]
  refine Ends.mono hc ?_ fun _ _ ht => ht
  rintro a t ⟨hst, ht, ha⟩
  refine Ends.mono (hf a t hst ht ha) ?_ ?_
  · rintro b u ⟨htu, hu⟩
    exact ⟨List.Subset.trans hst htu, hu⟩
  · rintro d u ⟨htu, hu⟩
    exact ⟨List.Subset.trans hst htu, hu⟩

theorem get_bind {f : CheckState → Check β} (hf : (f s).ValuesFrom s outer ok') :
    (get >>= f).ValuesFrom s outer ok' :=
  hf

theorem scope_bind {ctx : Context} {f : Scope → Check β}
    (hf : (f (s.frame :: ctx.outer)).ValuesFrom s outer ok') :
    (ctx.scope >>= f).ValuesFrom s outer ok' :=
  hf

theorem expect_bind {value : TypedExpr} {slot : Slot Ty} {span : Span} {f : Unit → Check β}
    (hs : s.Valued outer) (hf : (f ()).ValuesFrom s outer ok') :
    (expectAssignable value slot span >>= f).ValuesFrom s outer ok' := by
  unfold expectAssignable
  split
  · exact hf
  · next hunfit =>
    rw [Bool.not_eq_true] at hunfit
    exact throw hs (.of_cause (isContradictory_wrongType hunfit))

theorem insertDeclaration {name : String} {type : Slot Ty} (hs : s.Valued outer)
    (htype : type.type.IsValue) :
    (Check.insertDeclaration name type).ValuesFrom s outer fun _ t =>
      t.frame = s.frame ∧ t.classes = s.classes :=
  ⟨List.Subset.refl _, hs.insert name htype, rfl, rfl⟩

theorem setFrame {inner : Frame} (hs : s.Valued outer) (hinner : inner.Valued s.classes.names)
    (htypes : inner.types = s.frame.types) :
    (Check.setFrame inner).ValuesFrom s outer fun _ _ => True :=
  ⟨List.Subset.refl _, hs.setFrame hinner htypes, trivial⟩

theorem updateClass (hs : s.Valued outer) (c : ClassRef) {change : ClassInfo → ClassInfo}
    (hchange : ∀ info : ClassInfo, info.Valued s.classes.names →
      (change info).Valued s.classes.names)
    (hname : ∀ info, (change info).name = info.name) :
    (Check.updateClass c change).ValuesFrom s outer fun _ _ => True := by
  refine ⟨?_, hs.updateClass c hname hchange, trivial⟩
  show s.classes.names ⊆ (s.classes.update c change).names
  rw [ClassTable.names_update s.classes c hname]
  exact List.Subset.refl _

/-- Whether it commits or aborts, a transaction keeps what was a declaration of a value. -/
theorem transaction
    (h : c.ValuesFrom { s with registry := s.registry.begin } outer fun a t =>
      ok a { t with registry := t.registry.commit }) :
    c.transaction.ValuesFrom s outer ok := by
  unfold ValuesFrom
  rw [ends_transaction]
  refine Ends.mono h ?_ ?_
  · rintro a t ⟨hst, ht, ha⟩
    exact ⟨hst, ht.commit, ha⟩
  · rintro d t ⟨hst, ht, hd⟩
    exact ⟨hst, ht.abort, hd⟩

theorem undoing {undo : Frame → Frame}
    (hundo : ∀ {f : Frame} {known}, f.Valued known → (undo f).Valued known)
    (htypes : ∀ f, (undo f).types = f.types) (h : c.ValuesFrom s outer ok) :
    (c.undoing undo).ValuesFrom s outer ok := by
  unfold ValuesFrom
  rw [ends_undoing]
  refine Ends.mono h (fun _ _ ht => ht) ?_
  rintro d t ⟨hst, ht, hd⟩
  exact ⟨hst, ht.setFrame (hundo ht.frame) (htypes _), hd⟩

theorem apart (h : c.ValuesFrom { s with returned := false } outer ok) :
    c.apart.ValuesFrom s outer fun _ _ => True := by
  unfold ValuesFrom
  rw [ends_apart]
  refine Ends.mono h ?_ ?_
  · rintro a t ⟨hst, ht, -⟩
    exact ⟨hst, ht.setReturned _, trivial⟩
  · rintro d t ⟨hst, ht, hd⟩
    exact ⟨hst, ht.setReturned _, hd⟩

/-- In a frame inside the current one, which is the current one again afterwards. -/
theorem inFrame {ctx : Context} {inner : Frame} {body : Context → Check α}
    (hs : s.Valued ctx.outer)
    (hbody : (body { ctx with outer := s.frame :: ctx.outer }).ValuesFrom { s with frame := inner }
      (s.frame :: ctx.outer) fun a t => ok a { t with frame := s.frame }) :
    (ctx.inFrame inner body).ValuesFrom s ctx.outer ok := by
  unfold ValuesFrom
  rw [Context.ends_inFrame]
  refine Ends.mono hbody ?_ ?_
  · rintro a t ⟨hst, ht, ha⟩
    exact ⟨hst, hs.outside ht, ha⟩
  · rintro d t ⟨hst, ht, hd⟩
    exact ⟨hst, hs.outside ht, hd⟩

theorem inFrame_forget {ctx : Context} {inner : Frame} {body : Context → Check α}
    (hs : s.Valued ctx.outer)
    (hbody : (body { ctx with outer := s.frame :: ctx.outer }).ValuesFrom { s with frame := inner }
      (s.frame :: ctx.outer) ok) : (ctx.inFrame inner body).ValuesFrom s ctx.outer fun _ _ => True :=
  inFrame hs hbody.forget

end ValuesFrom

namespace Values

variable {c : Check α} {outer : Scope} {ok : α → List String → Prop}
  {ok' : β → List String → Prop}

theorem forget (h : c.Values outer ok) : c.KeepsValues outer :=
  fun s hs => (h s hs).forget

theorem pure {a : α} (h : ∀ known, ok a known) : (Pure.pure a : Check α).Values outer ok :=
  fun _ hs => .pure hs (h _)

theorem fail {cause : Cause} {span : Span} (hcause : cause.isContradictory = false) :
    (Check.fail cause span : Check α).Values outer ok :=
  fun _ hs => .fail hs hcause

/-- What was found of the first value is not needed later on. -/
theorem bind {f : α → Check β} (hc : c.Values outer ok) (hf : ∀ a, (f a).Values outer ok') :
    (c >>= f).Values outer ok' :=
  fun s hs => (hc s hs).bind fun a t _ ht _ => hf a t ht

theorem expect_bind {value : TypedExpr} {slot : Slot Ty} {span : Span} {f : Unit → Check β}
    (hf : (f ()).Values outer ok') : (expectAssignable value slot span >>= f).Values outer ok' :=
  fun s hs => .expect_bind hs (hf s hs)

theorem nested {ctx : Context} {span : Span} {body : Context → Check α}
    (h : (body { ctx with depth := ctx.depth + 1 }).Values ctx.outer ok) :
    (ctx.nested span body).Values ctx.outer ok := by
  unfold Context.nested
  split
  · exact h
  · exact fail rfl

theorem transaction (h : c.KeepsValues outer) : c.transaction.KeepsValues outer :=
  fun _ hs => .transaction (h _ hs.begin)

theorem apart (h : c.KeepsValues outer) : c.apart.KeepsValues outer :=
  fun _ hs => .apart (h _ (hs.setReturned false))

theorem inNewFrame {ctx : Context} {body : Context → Check α}
    (h : ∀ ctx, (body ctx).Values ctx.outer ok) : (ctx.inNewFrame body).Values ctx.outer ok :=
  fun _ hs => .inFrame hs (h _ _ (hs.inside (.empty _)))

end Values

end Check

/-! ## Written types -/

/-- There is a result with the property `ok`, or else a diagnostic that does not contradict itself. -/
def Resolves {α : Type} (r : Except Diagnostic α) (ok : α → Prop) : Prop :=
  match r with
  | .ok a => ok a
  | .error d => d.cause.isContradictory = false

namespace Resolves

variable {α β : Type} {r : Except Diagnostic α} {ok : α → Prop} {ok' : β → Prop}

theorem bind {f : α → Except Diagnostic β} (hr : Resolves r ok)
    (hf : ∀ a, ok a → Resolves (f a) ok') : Resolves (r >>= f) ok' := by
  cases r with
  | ok a => exact hf a hr
  | error d => exact hr

theorem of_ok {a : α} (hr : Resolves r ok) (h : r = .ok a) : ok a := by
  rw [h] at hr
  exact hr

theorem check_bind {f : α → Check β} {s : CheckState} {outer : Scope}
    {Q : β → CheckState → Prop} (hr : Resolves r ok) (hs : s.Valued outer)
    (hf : ∀ a, ok a → (f a).ValuesFrom s outer Q) :
    (Check.ofExcept r >>= f).ValuesFrom s outer Q := by
  cases r with
  | ok a => exact hf a hr
  | error d => exact .throw hs (.of_cause hr)

end Resolves

theorem valueType_storable {known : List String} (hnothing : Ty.nothing.name ∉ known)
    (t : TypeExpr) {type : Ty} (htype : type.Proper known) :
    Resolves (t.valueType type) fun type => type.Storable known := by
  unfold TypeExpr.valueType
  split
  · next hvalues => exact htype.storable hnothing hvalues
  · rfl

namespace CheckState.Valued

variable {s : CheckState} {outer : Scope} (h : s.Valued outer)
include h

mutual

/-- What a written type denotes takes values only, as each of its parameters was asked for values. -/
theorem resolve : ∀ t : TypeExpr,
    Resolves (Scope.resolve (s.frame :: outer) t) fun type => type.Proper s.classes.names
  | .named name span => by
    rw [Scope.resolve]
    split
    · next type htype => exact h.findType htype
    · rfl
  | .function parameters result span => by
    rw [Scope.resolve]
    refine (resolveParameters parameters).bind fun slots hslots => ?_
    exact (resolve result).bind fun type htype => .function hslots htype

theorem resolveParameters : ∀ ts : List TypeExpr,
    Resolves (Scope.resolveParameters (s.frame :: outer) ts) fun slots =>
      ∀ p ∈ slots, p.type.Storable s.classes.names
  | [] => fun p hp => nomatch hp
  | t :: ts => by
    rw [Scope.resolveParameters]
    refine (resolve t).bind fun type htype => ?_
    refine (valueType_storable h.unclaimed t htype).bind fun value hvalue => ?_
    refine (resolveParameters ts).bind fun slots hslots => ?_
    exact List.forall_mem_cons.2 ⟨hvalue, hslots⟩

end

theorem resolveValue (t : TypeExpr) :
    Resolves (Scope.resolveValue (s.frame :: outer) t) fun type =>
      type.Storable s.classes.names :=
  (h.resolve t).bind fun _ htype => valueType_storable h.unclaimed t htype

end CheckState.Valued

end Nominal
