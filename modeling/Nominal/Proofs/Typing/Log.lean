import Nominal.Proofs.Typing.Soundness.Classes
import Nominal.Proofs.Typing.Uniform

/-!
# The log of a run

A transaction that aborts drops its declarations from the registry, but a class keeps the fields and
methods that it was given meanwhile. To speak of these, a state is read against a log of all that was
ever entered, dropped or not (`CheckState.Logged`): no number is in the log twice, and what the frames
and the classes declare is in the log. Whichever way a check ends, such a log goes on to be one
(`Stmt.check_logs`).
-/

namespace Nominal

/-! ## Taking declarations back -/

namespace Frame

variable {f : Frame} {name : String} {entries : List Declaration} {count : Nat}

theorem Sound.removeVariable (h : f.Sound entries count) (name : String) :
    (f.removeVariable name).Sound entries count where
  bindings other b hb := h.bindings other b (Table.find?_of_find?_erase hb)
  functions := h.functions
  types := h.types

theorem Sound.removeFunction (h : f.Sound entries count) (name : String) (id : DeclId) :
    (f.removeFunction name id).Sound entries count where
  bindings other b hb := by
    rw [bindings_removeFunction] at hb
    exact h.bindings other b hb
  functions other o ho := h.functions other o (mem_get_of_removeFunction ho)
  types other c hc := by
    rw [types_removeFunction] at hc
    exact h.types other c hc

end Frame

/-! ## Logged states -/

/-- The state with the declarations of the log in the place of those of the registry. -/
def CheckState.over (s : CheckState) (log : List Declaration) : CheckState :=
  { s with registry := ⟨s.registry.lastNumber, log, []⟩ }

@[simp] theorem CheckState.entries_over (s : CheckState) (log : List Declaration) :
    (s.over log).registry.entries = log := by
  simp [CheckState.over, Registry.entries]

/-- All that was entered is in the log, under one number each. -/
structure CheckState.Logged (s : CheckState) (log : List Declaration) (outer : Scope) : Prop where
  nodup : (log.map Declaration.id).Nodup
  upTo : ∀ d ∈ log, d.id.number ≤ s.registry.lastNumber
  entries : s.registry.entries.Sublist log
  sound : (s.over log).Sound outer

namespace CheckState.Logged

variable {s : CheckState} {log : List Declaration} {outer : Scope}

/-- The log of a registry is a log of one that has no more entries and hands out later numbers. -/
theorem setRegistry (h : s.Logged log outer) {r : Registry}
    (hlast : s.registry.lastNumber ≤ r.lastNumber) (hentries : r.entries.Sublist log) :
    { s with registry := r }.Logged log outer where
  nodup := h.nodup
  upTo d hd := Nat.le_trans (h.upTo d hd) hlast
  entries := hentries
  sound := h.sound.of_entries_eq rfl rfl (by simp)

theorem begin (h : s.Logged log outer) :
    { s with registry := s.registry.begin }.Logged log outer :=
  h.setRegistry (Nat.le_refl _) (by simpa using h.entries)

theorem commit (h : s.Logged log outer) :
    { s with registry := s.registry.commit }.Logged log outer :=
  h.setRegistry (by simp) (by simpa using h.entries)

theorem abort (h : s.Logged log outer) :
    { s with registry := s.registry.abort }.Logged log outer :=
  h.setRegistry (Nat.le_refl _) (s.registry.entries_abort_sublist.trans h.entries)

/-- A declaration is entered with the next number, which is not in the log yet. -/
theorem insert (h : s.Logged log outer) (name : String) (type : Slot Ty) :
    { s with registry := (s.registry.insert name type).2 }.Logged
      (log ++ [Declaration.mk (s.registry.insert name type).1 name type]) outer := by
  have hid := s.registry.number_insert name type
  have hlast : (s.registry.insert name type).2.lastNumber = s.registry.lastNumber + 1 := by
    have h := s.registry.lastNumber_enter [(name, type)]
    exact h
  refine ⟨?_, ?_, ?_, ?_⟩
  · rw [List.map_append, List.nodup_append]
    refine ⟨h.nodup, by simp, ?_⟩
    rintro id hmem _ hnew rfl
    obtain ⟨d, hd, rfl⟩ := List.mem_map.1 hmem
    have hle := h.upTo d hd
    have heq : d.id = (s.registry.insert name type).1 := by simpa using hnew
    rw [heq] at hle
    omega
  · intro d hd
    show d.id.number ≤ (s.registry.insert name type).2.lastNumber
    rw [hlast]
    rcases List.mem_append.1 hd with hold | hnew
    · have hle := h.upTo d hold
      omega
    · rw [List.mem_singleton.1 hnew]
      exact Nat.le_of_eq hid
  · show (s.registry.insert name type).2.entries.Sublist _
    rw [Registry.entries_insert]
    exact h.entries.append_right _
  · exact h.sound.of_entries_eq rfl rfl (by simp)

/-- The current frame declares what is in the log. -/
theorem frame (h : s.Logged log outer) : s.frame.Sound log s.classes.classes.length := by
  have hframe := h.sound.frame
  rwa [entries_over] at hframe

theorem setFrame (h : s.Logged log outer) {frame : Frame}
    (hframe : frame.Sound log s.classes.classes.length) : { s with frame }.Logged log outer where
  nodup := h.nodup
  upTo := h.upTo
  entries := h.entries
  sound := h.sound.setFrame (by rwa [entries_over])

theorem setReturned (h : s.Logged log outer) (returned : Bool) :
    { s with returned }.Logged log outer where
  nodup := h.nodup
  upTo := h.upTo
  entries := h.entries
  sound := h.sound.setReturned returned

theorem inside (h : s.Logged log outer) {frame : Frame}
    (hframe : frame.Sound log s.classes.classes.length) :
    { s with frame }.Logged log (s.frame :: outer) where
  nodup := h.nodup
  upTo := h.upTo
  entries := h.entries
  sound := h.sound.inside (by rwa [entries_over])

theorem outside {frame : Frame} (h : s.Logged log (frame :: outer)) :
    { s with frame }.Logged log outer where
  nodup := h.nodup
  upTo := h.upTo
  entries := h.entries
  sound := h.sound.outside

theorem updateClass (h : s.Logged log outer) (c : ClassRef) {f : ClassInfo → ClassInfo}
    (hf : ∀ info, info.Sound log → (f info).Sound log) :
    { s with classes := s.classes.update c f }.Logged log outer where
  nodup := h.nodup
  upTo := h.upTo
  entries := h.entries
  sound := h.sound.updateClass (by simpa using hf)

end CheckState.Logged

/-! ## Checks that go on with the log -/

namespace Check

variable {α β : Type}

/-- Started in `s`, of which `log` is a log, the check goes on with the log whichever way it ends.
When it succeeds, its value and the log have the property `ok`. -/
def LogsFrom (c : Check α) (s : CheckState) (log : List Declaration) (outer : Scope)
    (ok : α → CheckState → List Declaration → Prop) : Prop :=
  c.Ends s (fun a t => ∃ log', log ⊆ log' ∧ t.Logged log' outer ∧ ok a t log')
    (fun _ t => ∃ log', log ⊆ log' ∧ t.Logged log' outer)

/-- The same for all logs of all states. -/
def Logs (c : Check α) : Prop :=
  ∀ s log outer, s.Logged log outer → c.LogsFrom s log outer fun _ _ _ => True

namespace LogsFrom

variable {c : Check α} {s : CheckState} {log : List Declaration} {outer : Scope}
  {ok : α → CheckState → List Declaration → Prop} {ok' : β → CheckState → List Declaration → Prop}

theorem pure {a : α} (hs : s.Logged log outer) (h : ok a s log) :
    (Pure.pure a : Check α).LogsFrom s log outer ok :=
  ⟨log, List.Subset.refl _, hs, h⟩

theorem throw (hs : s.Logged log outer) (d : Diagnostic) :
    (MonadExcept.throw d : Check α).LogsFrom s log outer ok :=
  ⟨log, List.Subset.refl _, hs⟩

theorem fail (hs : s.Logged log outer) (cause : Cause) (span : Span) :
    (Check.fail cause span : Check α).LogsFrom s log outer ok :=
  throw hs _

theorem bind {f : α → Check β} (hc : c.LogsFrom s log outer ok)
    (hf : ∀ a t log', log ⊆ log' → t.Logged log' outer → ok a t log' →
      (f a).LogsFrom t log' outer ok') : (c >>= f).LogsFrom s log outer ok' := by
  unfold LogsFrom
  rw [ends_bind]
  refine Ends.mono hc ?_ fun _ _ ht => ht
  rintro a t ⟨log', hlog, ht, ha⟩
  refine Ends.mono (hf a t log' hlog ht ha) ?_ ?_
  · rintro b u ⟨last, hlast, hu, hb⟩
    exact ⟨last, List.Subset.trans hlog hlast, hu, hb⟩
  · rintro d u ⟨last, hlast, hu⟩
    exact ⟨last, List.Subset.trans hlog hlast, hu⟩

theorem get_bind {f : CheckState → Check β} (hf : (f s).LogsFrom s log outer ok') :
    (get >>= f).LogsFrom s log outer ok' :=
  hf

theorem scope_bind {ctx : Context} {f : Scope → Check β}
    (hf : (f (s.frame :: ctx.outer)).LogsFrom s log outer ok') :
    (ctx.scope >>= f).LogsFrom s log outer ok' :=
  hf

theorem ofExcept_bind {e : Except Diagnostic α} {f : α → Check β} (hs : s.Logged log outer)
    (hf : ∀ a, (f a).LogsFrom s log outer ok') :
    (Check.ofExcept e >>= f).LogsFrom s log outer ok' := by
  cases e with
  | ok a => exact hf a
  | error d => exact throw hs d

/-- A declaration is in the log once it was entered. -/
theorem insertDeclaration (hs : s.Logged log outer) (name : String) (type : Slot Ty) :
    (Check.insertDeclaration name type).LogsFrom s log outer fun id t log' =>
      ⟨id, name, type⟩ ∈ log' ∧ t.classes = s.classes :=
  ⟨_, List.subset_append_left _ _, hs.insert name type,
    List.mem_append_right _ List.mem_cons_self, rfl⟩

/-- The frame that is set declares what is in the log. -/
theorem setFrame (hs : s.Logged log outer) {frame : Frame}
    (hframe : frame.Sound log s.classes.classes.length) :
    (Check.setFrame frame).LogsFrom s log outer fun _ t _ => t.classes = s.classes :=
  ⟨log, List.Subset.refl _, hs.setFrame hframe, rfl⟩

/-- What is known of a class is changed by what is in the log. -/
theorem updateClass (hs : s.Logged log outer) (c : ClassRef) {f : ClassInfo → ClassInfo}
    (hf : ∀ info, info.Sound log → (f info).Sound log) :
    (Check.updateClass c f).LogsFrom s log outer fun _ _ _ => True :=
  ⟨log, List.Subset.refl _, hs.updateClass c hf, trivial⟩

/-- Nothing is asked of the value. -/
theorem forget (h : c.LogsFrom s log outer ok) : c.LogsFrom s log outer fun _ _ _ => True := by
  refine Ends.mono h ?_ fun _ _ ht => ht
  rintro a t ⟨log', hlog, ht, -⟩
  exact ⟨log', hlog, ht, trivial⟩

/-- What a failure takes back was in the log, and so is what is left. -/
theorem undoing {undo : Frame → Frame}
    (hundo : ∀ {f : Frame} {entries count}, f.Sound entries count → (undo f).Sound entries count)
    (h : c.LogsFrom s log outer ok) : (c.undoing undo).LogsFrom s log outer ok := by
  unfold LogsFrom
  rw [ends_undoing]
  refine Ends.mono h (fun _ _ ht => ht) ?_
  rintro d t ⟨log', hlog, ht⟩
  exact ⟨log', hlog, ht.setFrame (hundo ht.frame)⟩

/-- Whether it commits or aborts, a transaction leaves the log alone. -/
theorem transaction (h : c.LogsFrom { s with registry := s.registry.begin } log outer ok) :
    c.transaction.LogsFrom s log outer fun _ _ _ => True := by
  unfold LogsFrom
  rw [ends_transaction]
  refine Ends.mono h ?_ ?_
  · rintro a t ⟨log', hlog, ht, -⟩
    exact ⟨log', hlog, ht.commit, trivial⟩
  · rintro d t ⟨log', hlog, ht⟩
    exact ⟨log', hlog, ht.abort⟩

theorem apart (h : c.LogsFrom { s with returned := false } log outer ok) :
    c.apart.LogsFrom s log outer fun _ _ _ => True := by
  unfold LogsFrom
  rw [ends_apart]
  refine Ends.mono h ?_ ?_
  · rintro a t ⟨log', hlog, ht, -⟩
    exact ⟨log', hlog, ht.setReturned _, trivial⟩
  · rintro d t ⟨log', hlog, ht⟩
    exact ⟨log', hlog, ht.setReturned _⟩

/-- In a frame inside the current one, which is put back. -/
theorem inFrame {ctx : Context} {frame : Frame} {body : Context → Check α}
    (hbody : (body { ctx with outer := s.frame :: ctx.outer }).LogsFrom { s with frame } log
      (s.frame :: outer) fun a t log' => ok a { t with frame := s.frame } log') :
    (ctx.inFrame frame body).LogsFrom s log outer ok := by
  unfold LogsFrom
  rw [Context.ends_inFrame]
  refine Ends.mono hbody ?_ ?_
  · rintro a t ⟨log', hlog, ht, ha⟩
    exact ⟨log', hlog, ht.outside, ha⟩
  · rintro d t ⟨log', hlog, ht⟩
    exact ⟨log', hlog, ht.outside⟩

theorem inFrame_forget {ctx : Context} {frame : Frame} {body : Context → Check α}
    (hbody : (body { ctx with outer := s.frame :: ctx.outer }).LogsFrom { s with frame } log
      (s.frame :: outer) ok) : (ctx.inFrame frame body).LogsFrom s log outer fun _ _ _ => True :=
  inFrame hbody.forget

end LogsFrom

namespace Logs

variable {c : Check α}

theorem bind {f : α → Check β} (hc : c.Logs) (hf : ∀ a, (f a).Logs) : (c >>= f).Logs :=
  fun s log outer hs => (hc s log outer hs).bind fun a t log' _ ht _ => hf a t log' outer ht

theorem closed : Closed fun _ c => c.Logs where
  pure _ := fun _ _ _ hs => .pure hs trivial
  throw d := fun _ _ _ hs => .throw hs d
  get_bind _ hf := fun s log outer hs => hf s s log outer hs
  bind := bind

theorem transaction (h : c.Logs) : c.transaction.Logs :=
  fun _ _ _ hs => .transaction (h _ _ _ hs.begin)

theorem apart (h : c.Logs) : c.apart.Logs :=
  fun _ _ _ hs => .apart (h _ _ _ (hs.setReturned false))

theorem inNewFrame {ctx : Context} {body : Context → Check α} (h : ∀ ctx, (body ctx).Logs) :
    (ctx.inNewFrame body).Logs :=
  fun _ _ _ hs => .inFrame_forget (h _ _ _ _ (hs.inside (Frame.sound_empty _ _)))

end Logs

end Check

/-! ## Variables and functions -/

namespace Context

open Check

variable {ctx : Context} {name : String} {nameSpan valueSpan bodySpan span : Span}
  {value : Check TypedExpr} {body : Context → Check (List TypedStmt)} {s : CheckState}
  {log : List Declaration} {outer : Scope}

theorem bind_logs (type : Slot Ty) (refused : Cause) (hs : s.Logged log outer) :
    (bind name type refused span).LogsFrom s log outer fun id _ log' =>
      ⟨id, name, type⟩ ∈ log' := by
  unfold bind
  refine (LogsFrom.insertDeclaration hs name type).bind fun id t log' _ ht ⟨hmem, _⟩ => .get_bind ?_
  split
  · next frame hdeclare =>
    have hframe := ht.frame.declareVariable hdeclare hmem
    refine (LogsFrom.setFrame ht hframe).bind fun _ u last hlast hu _ => ?_
    exact .pure hu (hlast hmem)
  · exact .fail ht _ _

theorem declareVariable_logs (ctx : Context) (name : String) (type : Slot Ty) (span : Span) :
    (ctx.declareVariable name type span).Logs :=
  fun _ _ _ hs => (bind_logs type _ hs).forget

theorem declareParameter_logs (p : Parameter) (hs : s.Logged log outer) :
    (ctx.declareParameter p).LogsFrom s log outer fun declared _ log' =>
      ⟨declared.1, p.name, declared.2⟩ ∈ log' := by
  unfold declareParameter
  refine .scope_bind <| .ofExcept_bind hs fun type => ?_
  exact (bind_logs _ _ hs).bind fun id t log' _ ht hmem => .pure ht hmem

/-- The frame with the parameters declares what is in the log. -/
theorem parameterHead_logs (parameters : List Parameter) (result : Ty)
    (hs : s.Logged log outer) :
    (ctx.parameterHead parameters result).LogsFrom s log outer fun head t log' =>
      head.frame.Sound log' t.classes.classes.length := by
  have hdeclared (ctx : Context) : (parameters.mapM ctx.declareParameter).Logs :=
    Logs.closed.mapM (fun p _ _ _ hs => (declareParameter_logs p hs).forget) parameters
  have hinside := hs.inside (Frame.sound_empty log s.classes.classes.length)
  unfold parameterHead
  refine .inFrame ((hdeclared _ _ _ _ hinside).bind fun declared t log' _ ht _ => .get_bind ?_)
  exact ⟨log', List.Subset.refl _, ht, ht.frame⟩

theorem functionHead_logs (parameters : List Parameter) (result? : Option TypeExpr)
    (hs : s.Logged log outer) :
    (ctx.functionHead parameters result?).LogsFrom s log outer fun head t log' =>
      head.frame.Sound log' t.classes.classes.length := by
  rw [functionHead_eq]
  cases result? with
  | none => exact parameterHead_logs parameters .nothing hs
  | some t =>
    exact .scope_bind <| .ofExcept_bind hs fun result => parameterHead_logs parameters result hs

theorem functionBody_logs {head : FunctionHead} (name? : Option String)
    (hbody : ∀ ctx, (body ctx).Logs) (hs : s.Logged log outer)
    (hframe : head.frame.Sound log s.classes.classes.length) :
    (ctx.functionBody head name? bodySpan body).LogsFrom s log outer fun _ _ _ => True := by
  have hinside := (hs.setReturned false).inside hframe
  unfold functionBody
  refine (LogsFrom.apart (.inFrame_forget (hbody _ _ _ _ hinside))).bind ?_
  rintro ⟨stmts, returned⟩ t log' _ ht -
  dsimp only
  split
  · exact .pure ht trivial
  · exact .fail ht _ _

theorem lambda_logs (parameters : List Parameter) (result? : Option TypeExpr)
    (hbody : ∀ ctx, (body ctx).Logs) :
    (ctx.lambda parameters result? bodySpan body span).Logs := by
  unfold lambda
  refine .transaction fun s log outer hs => ?_
  refine (functionHead_logs parameters result? hs).bind fun head t log' _ ht hframe => ?_
  exact (functionBody_logs none hbody ht hframe).bind fun stmts u last _ hu _ => .pure hu trivial

theorem fnDecl_logs (parameters : List Parameter) (result? : Option TypeExpr)
    (hbody : ∀ ctx, (body ctx).Logs) :
    (ctx.fnDecl name nameSpan parameters result? bodySpan body span).Logs := by
  unfold fnDecl
  refine .transaction fun s log₀ outer hs => ?_
  refine (functionHead_logs parameters result? hs).bind fun head t log₁ _ ht hframe => ?_
  refine (LogsFrom.insertDeclaration ht name _).bind
    fun id u log₂ hlog hu ⟨hmem, hclasses⟩ => .get_bind ?_
  split
  · exact .fail hu _ _
  · next frame hdeclare =>
    -- the function is in the log before it stands in the frame
    have hdeclared := hu.frame.declareFunction hdeclare ⟨id, rfl, hmem⟩
    refine (LogsFrom.setFrame hu hdeclared).bind fun _ v log₃ hlog' hv hclasses' => ?_
    have hhead : head.frame.Sound log₃ v.classes.classes.length := by
      rw [hclasses', hclasses]
      exact hframe.mono (List.Subset.trans hlog hlog') (Nat.le_refl _)
    have hstmts : (ctx.functionBody head (some name) bodySpan body).LogsFrom v log₃ outer
        fun _ _ _ => True := functionBody_logs (some name) hbody hv hhead
    exact (hstmts.undoing fun hf => hf.removeFunction name id).bind
      fun stmts w _ _ hw _ => .pure hw trivial

theorem valueInto_logs (hvalue : value.Logs) (type : Slot Ty) (span : Span) :
    (valueInto value type span).Logs := by
  unfold valueInto
  exact hvalue.bind fun v => Logs.closed.expect_bind fun _ => Logs.closed.pure v

theorem recursiveVariable_logs (hvalue : value.Logs) (type : Slot Ty) :
    (ctx.recursiveVariable name nameSpan type value valueSpan span).Logs := by
  rw [recursiveVariable_eq]
  refine (ctx.declareVariable_logs _ _ _).bind fun id s log outer hs => ?_
  have hinto := valueInto_logs hvalue type valueSpan s log outer hs
  exact (hinto.undoing fun hf => hf.removeVariable name).bind fun v t _ _ ht _ => .pure ht trivial

theorem varDecl_logs (mode : Mode) (type? : Option TypeExpr)
    {value? : Option (Span × Check TypedExpr)} (hvalue : ∀ value ∈ value?, value.2.Logs) :
    (ctx.varDecl name nameSpan mode type? value? span).Logs := by
  have hclosed := Logs.closed
  have hdeclare (type : Slot Ty) (initializer? : Option TypedExpr) :
      (ctx.declareVariable name type nameSpan >>= fun id =>
        (return ⟨.varDecl id initializer?, span⟩ : Check TypedStmt)).Logs :=
    (ctx.declareVariable_logs _ _ _).bind fun id => hclosed.pure _
  unfold varDecl
  split
  · exact hclosed.fail _ _
  · split
    · refine hclosed.scope_bind fun scope => hclosed.ofExcept_bind fun declared => .transaction ?_
      split
      · exact hdeclare _ none
      · next valueSpan value =>
        have hv := hvalue _ rfl
        split
        · exact recursiveVariable_logs hv _
        · exact hv.bind fun v => hclosed.expect_bind fun _ => hdeclare _ (some v)
    · refine .transaction ?_
      split
      · exact hclosed.fail _ _
      · next valueSpan value =>
        refine (hvalue _ rfl).bind fun v => ?_
        split
        · exact hclosed.expect_bind fun _ => hdeclare _ (some v)
        · exact hclosed.fail _ _

theorem ret_logs {value? : Option (Check TypedExpr)} (hvalue : ∀ value ∈ value?, value.Logs) :
    (ctx.ret value? span).Logs := by
  have hclosed := Logs.closed
  have hreturned : (modify fun s => { s with returned := true } : Check Unit).Logs :=
    fun s log outer hs => ⟨log, List.Subset.refl _, hs.setReturned true, trivial⟩
  have hfinish (f : FnType) (v? : Option TypedExpr) : (finishReturn f span v?).Logs := by
    unfold finishReturn
    dsimp only
    split
    · exact hreturned.bind fun _ => hclosed.pure _
    · exact hclosed.fail _ _
  rw [ret_eq]
  split
  · exact hclosed.fail _ _
  · next f value _ => exact (hclosed.map some (hvalue value rfl)).bind (hfinish f)
  · next f _ => exact hfinish f none

/-! ## Classes -/

theorem classParameter_logs (ctx : Context) (c : ClassRef) (p : Parameter) :
    (ctx.classParameter c p).Logs := by
  intro s log outer hs
  unfold classParameter
  refine (declareParameter_logs p hs).bind ?_
  rintro ⟨id, type⟩ t log' - ht hmem
  have hentered (info : ClassInfo) (hinfo : info.Sound log') :
      ((info.addParameter type).addMember p.name ⟨type, id⟩).Sound log' := by
    have hparameter : (info.addParameter type).Sound log' := ⟨hinfo.members, hinfo.methods⟩
    exact hparameter.addMember hmem
  exact (LogsFrom.updateClass ht c hentered).bind fun _ u _ _ hu _ => .pure hu trivial

/-- A checked member stands in the current frame, so what the class is given is in the log. -/
theorem enterMember_logs {c : ClassRef} {member : Stmt} {typed : TypedStmt} {before : Frame}
    (hs : s.Logged log outer) (hframe : member.Declares typed before s.frame) :
    (ctx.enterMember c member typed).LogsFrom s log outer fun _ _ _ => True := by
  obtain ⟨form, span⟩ := member
  obtain ⟨typedForm, typedSpan⟩ := typed
  unfold enterMember
  cases form with
  | varDecl name nameSpan mode type? value? =>
    obtain ⟨decl, initializer?, type, hform, -, hentries, -, -⟩ := hframe
    cases hform
    have hb := Table.find?_of_entries_append hentries
    have hvariable : Scope.findVariable? (s.frame :: ctx.outer) name = some ⟨decl, type⟩ := by
      unfold Scope.findVariable?
      rw [List.findSome?_cons, hb]
    refine .scope_bind ?_
    rw [hvariable]
    exact .updateClass hs c fun info hinfo => hinfo.addMember (hs.frame.bindings name _ hb)
  | fnDecl name nameSpan signature =>
    obtain ⟨decl, function, ids, stmts, hform, hbindings, -, hself, -, -⟩ := hframe
    cases hform
    refine .updateClass hs c fun info hinfo => hinfo.addMethod (hs.frame.functions name _ ?_)
    rw [hself]
    exact List.mem_append_right _ (List.mem_singleton.2 rfl)
  | _ => exact .pure hs trivial

theorem expectNoParameter_logs (parameters : List Parameter) (member : Stmt) :
    (ctx.expectNoParameter parameters member).Logs := by
  unfold expectNoParameter
  split
  · split
    · exact Logs.closed.fail _ _
    · exact Logs.closed.pure ()
  · exact Logs.closed.pure ()

/-- What a member does to the frame is known as well. -/
theorem nestedMember_logs {member : Stmt} (hmember : ∀ ctx, (member.check ctx).Logs)
    (hs : s.Logged log outer) :
    (ctx.nested member.span member.check).LogsFrom s log outer fun typed t _ =>
      member.Declares typed s.frame t.frame := by
  have hframe : (ctx.nested member.span member.check).Ends s
      (fun typed t => member.Declares typed s.frame t.frame) (fun _ _ => True) := by
    rw [ends_nested]
    split
    · exact (member.check_frame _ s).mono (fun _ _ h => h) fun _ _ _ => trivial
    · trivial
  refine ((Logs.closed.nested hmember s log outer hs).and hframe).mono ?_ fun _ _ h => h.1
  rintro typed t ⟨⟨log', hlog, ht, -⟩, hdeclares⟩
  exact ⟨log', hlog, ht, hdeclares⟩

theorem checkMembers_logs {c : ClassRef} (parameters : List Parameter) {members : List Stmt}
    (hmembers : ∀ member ∈ members, ∀ ctx, (member.check ctx).Logs) :
    (Stmt.checkMembers members parameters c ctx).Logs := by
  induction members with
  | nil => exact Logs.closed.pure []
  | cons member rest ih =>
    obtain ⟨hmember, hrest⟩ := List.forall_mem_cons.1 hmembers
    refine (expectNoParameter_logs parameters member).bind fun _ s log outer hs => ?_
    refine (nestedMember_logs hmember hs).bind fun typed t log' _ ht hdeclares => ?_
    refine (enterMember_logs ht hdeclares).bind fun _ u last _ hu _ => ?_
    exact (ih hrest u last outer hu).bind fun stmts v _ _ hv _ => .pure hv trivial

/-- The name of a class stands for a class that is in the table. -/
theorem declareClass_logs (name : String) : (declareClass name).Logs := by
  intro s log outer hs
  have hsound : (declareClass name).Ends _ _ _ := declareClass_ends hs.sound
  refine ⟨log, List.Subset.refl _, ⟨hs.nodup, hs.upTo, hs.entries, ?_⟩, trivial⟩
  exact hsound.1

theorem classDecl_logs {members : List Stmt} (name : String) (nameSpan : Span)
    (parameters : List Parameter) (span : Span)
    (hmembers : ∀ member ∈ members, ∀ ctx, (member.check ctx).Logs) :
    (ctx.classDecl name nameSpan parameters (Stmt.checkMembers members parameters) span).Logs := by
  have hclosed := Logs.closed
  have hbody (ctx : Context) (c : ClassRef) :
      (ctx.classBody c parameters (Stmt.checkMembers members parameters c)).Logs := by
    unfold classBody
    refine .inNewFrame fun ctx => ?_
    refine (hclosed.mapM (ctx.classParameter_logs c) parameters).bind fun ids => ?_
    exact (Logs.inNewFrame fun ctx => checkMembers_logs parameters hmembers).bind fun stmts =>
      hclosed.pure _
  rw [classDecl_eq]
  refine hclosed.scope_bind fun scope => ?_
  split
  · exact hclosed.fail _ _
  · refine (declareClass_logs name).bind fun c => ?_
    exact (Logs.transaction (hbody _ c)).apart.bind fun ((ids, stmts), _) => hclosed.pure _

end Context

/-! ## All statements -/

theorem Check.Logs.uniform : Check.Uniform fun _ c => c.Logs where
  toClosed := Check.Logs.closed
  inNewFrame := Check.Logs.inNewFrame
  lambda := fun parameters result? _ _ => Context.lambda_logs parameters result?
  varDecl := fun _ _ mode type? _ => Context.varDecl_logs mode type?
  fnDecl := fun _ _ parameters result? _ _ => Context.fnDecl_logs parameters result?
  ret := fun _ => Context.ret_logs
  classDecl := Context.classDecl_logs

/-- Whichever way the check of a statement ends, the log goes on to be a log. -/
theorem Stmt.check_logs (stmt : Stmt) (ctx : Context) : (stmt.check ctx).Logs :=
  stmt.check_uniform Check.Logs.uniform ctx

theorem Stmt.nested_logs (stmt : Stmt) (ctx : Context) :
    (ctx.nested stmt.span stmt.check).Logs :=
  Check.Logs.closed.nested stmt.check_logs

theorem Expr.check_logs (e : Expr) (ctx : Context) : (e.check ctx).Logs :=
  e.check_uniform Check.Logs.uniform ctx

theorem Expr.nested_logs (e : Expr) (ctx : Context) : (ctx.nested e.span e.check).Logs :=
  Check.Logs.closed.nested e.check_logs

end Nominal
