import Nominal.Proofs.Typing.Bookkeeping
import Nominal.Proofs.Typing.FrameEffect

/-!
# What a member adds

A member that declares a variable is registered under the type that the frame of the members knows
it by, and one that declares a function is one more overload there. Any other statement leaves the
variables and the functions of the frame alone (`Stmt.nested_adds`).
-/

namespace Nominal

/-- What `stmt`, checked as `typed` on the way from `s` to `t`, adds to the variables and functions
of the current frame. -/
def Stmt.Adds (stmt : Stmt) (typed : TypedStmt) (s t : CheckState) : Prop :=
  match stmt.form with
  | .varDecl name _ _ _ _ => ∃ decl initializer? type,
    typed.form = .varDecl decl initializer? ∧
      s.frame.declareVariable name ⟨decl, type⟩ = some t.frame ∧
      ⟨decl, name, type⟩ ∈ t.registry.entries
  | .fnDecl name _ _ => Context.DeclaredFunction name s.frame typed t.frame
  | _ => t.frame.bindings = s.frame.bindings ∧ t.frame.functions = s.frame.functions

namespace Check

variable {α β : Type}

/-- When the check succeeds, it leaves the frame alone, and what was entered into the registry
before stays there. -/
def OnlyEnters (c : Check α) : Prop :=
  ∀ s, c.Ends s (fun _ t => t.frame = s.frame ∧ s.registry.entries ⊆ t.registry.entries)
    (fun _ _ => True)

theorem Records.onlyEnters {c : Check α} {batches : List (List String)}
    {ids : α → List DeclId → Prop} (h : c.Records batches ids) (hframe : c.Keeps CheckState.frame) :
    c.OnlyEnters := by
  intro s
  refine ((h s).and (hframe s)).mono ?_ fun _ _ _ => trivial
  rintro a t ⟨⟨items, ht, -⟩, hsame⟩
  refine ⟨hsame, ?_⟩
  rw [ht]
  exact Registry.entries_subset_enter _ items

/-- When the check succeeds, the variable `name` of the current frame is registered as what it
is. -/
def Registers (name : String) (c : Check α) : Prop :=
  ∀ s, c.Ends s
    (fun _ t => ∃ b, t.frame.bindings.find? name = some b ∧
      ⟨b.id, name, b.type⟩ ∈ t.registry.entries)
    (fun _ _ => True)

namespace Registers

variable {name : String} {c : Check α} {f : α → Check β}

theorem fail (cause : Cause) (span : Span) : (Check.fail cause span : Check α).Registers name :=
  fun _ => trivial

/-- Whatever comes before it. -/
theorem last (hf : ∀ a, (f a).Registers name) : (c >>= f).Registers name := by
  intro s
  rw [ends_bind]
  unfold Ends
  cases c s with
  | ok a t => exact hf a t
  | error d t => trivial

/-- Followed by what leaves the frame and the entries alone. -/
theorem first (hc : c.Registers name) (hf : ∀ a, (f a).OnlyEnters) : (c >>= f).Registers name := by
  intro s
  rw [ends_bind]
  refine (hc s).mono ?_ fun _ _ _ => trivial
  rintro a t ⟨b, hb, hmem⟩
  refine (hf a t).mono ?_ fun _ _ _ => trivial
  rintro _ u ⟨hframe, hentries⟩
  exact ⟨b, hframe ▸ hb, hentries hmem⟩

theorem transaction (hc : c.Registers name) : c.transaction.Registers name := by
  intro s
  rw [ends_transaction]
  refine (hc _).mono ?_ fun _ _ _ => trivial
  rintro a t ⟨b, hb, hmem⟩
  exact ⟨b, hb, by simpa using hmem⟩

end Registers

end Check

theorem Frame.find?_of_declareVariable {f g : Frame} {name : String} {binding : Binding}
    (h : f.declareVariable name binding = some g) : g.bindings.find? name = some binding := by
  obtain ⟨-, -, rfl⟩ := declareVariable_eq_some h
  exact Table.find?_insert_self _ _ _

namespace Context

open Check

variable {ctx : Context} {name : String} {nameSpan span : Span} {type : Slot Ty}

theorem bind_registers (refused : Cause) : (bind name type refused span).Registers name := by
  intro s
  unfold bind
  simp only [ends_bind, ends_insertDeclaration, ends_get]
  split
  · next frame hdeclare =>
    refine ⟨_, Frame.find?_of_declareVariable hdeclare, ?_⟩
    show _ ∈ (s.registry.insert name type).2.entries
    rw [Registry.entries_insert]
    exact List.mem_append_right _ (List.mem_singleton.2 rfl)
  · trivial

theorem declareVariable_registers : (ctx.declareVariable name type span).Registers name :=
  bind_registers _

/-- A parameter is a variable of the frame, and registered as that. -/
theorem declareParameter_adds (ctx : Context) (p : Parameter) (s : CheckState) :
    (ctx.declareParameter p).Ends s
      (fun declared t => s.frame.declareVariable p.name ⟨declared.1, declared.2⟩ = some t.frame ∧
        ⟨declared.1, p.name, declared.2⟩ ∈ t.registry.entries)
      (fun _ _ => True) := by
  unfold declareParameter
  rw [ends_bind, ends_scope, ends_bind, ends_ofExcept]
  refine ⟨fun type _ => ?_, fun _ _ => trivial⟩
  rw [ends_bind]
  refine ((bind_frame _ s).and (bind_registers _ s)).mono ?_ fun _ _ _ => trivial
  rintro id t ⟨hdeclare, b, hb, hmem⟩
  rw [Frame.find?_of_declareVariable hdeclare] at hb
  cases hb
  exact ⟨hdeclare, hmem⟩

/-- The declaration of a variable registers it, whether its value is checked before or after. -/
theorem varDecl_registers {mode : Mode} {type? : Option TypeExpr}
    {value? : Option (Span × Check TypedExpr)} (hvalue : ∀ value ∈ value?, value.2.OnlyEnters) :
    (ctx.varDecl name nameSpan mode type? value? span).Registers name := by
  have hdeclare (initializer? : Option TypedExpr) (type : Slot Ty) :
      (ctx.declareVariable name type nameSpan >>= fun id =>
        (return ⟨.varDecl id initializer?, span⟩ : Check TypedStmt)).Registers name :=
    declareVariable_registers.first fun _ s => ⟨rfl, List.Subset.refl s.registry.entries⟩
  unfold varDecl
  split
  · exact .fail _ _
  · split
    · refine .last fun _ => .last fun declared => .transaction ?_
      split
      · exact hdeclare none _
      · next valueSpan value =>
        split
        · refine declareVariable_registers.first fun id s => ?_
          -- the value is checked when the variable is there already
          rw [ends_bind, ends_undoing, ends_bind]
          refine (hvalue _ rfl s).mono ?_ fun _ _ _ => trivial
          intro initializer t ht
          unfold expectAssignable
          split
          · exact ht
          · trivial
        · exact .last fun initializer => .last fun _ => hdeclare (some initializer) _
    · refine .transaction ?_
      split
      · exact .fail _ _
      · unfold inferredVariable
        refine .last fun initializer => ?_
        split
        · exact .last fun _ => hdeclare (some initializer) _
        · exact .fail _ _

/-- What the declaration of a variable adds. -/
theorem varDecl_adds (ctx : Context) (name : String) (nameSpan : Span) (mode : Mode)
    (type? : Option TypeExpr) (value? : Option (Span × Check TypedExpr)) (span : Span)
    (hframe : ∀ value ∈ value?, value.2.Keeps CheckState.frame)
    (hvalue : ∀ value ∈ value?, value.2.OnlyEnters) (s : CheckState) :
    (ctx.varDecl name nameSpan mode type? value? span).Ends s
      (fun typed t => ∃ decl initializer? type, typed.form = .varDecl decl initializer? ∧
        s.frame.declareVariable name ⟨decl, type⟩ = some t.frame ∧
        ⟨decl, name, type⟩ ∈ t.registry.entries)
      (fun _ _ => True) := by
  refine ((varDecl_frame hframe s).and (varDecl_registers hvalue s)).mono ?_ fun _ _ _ => trivial
  rintro typed t ⟨⟨decl, initializer?, type, hform, -, hdeclare⟩, b, hb, hmem⟩
  rw [Frame.find?_of_declareVariable hdeclare] at hb
  cases hb
  exact ⟨decl, initializer?, type, hform, hdeclare, hmem⟩

end Context

theorem Expr.nested_onlyEnters (e : Expr) (ctx : Context) :
    (ctx.nested e.span e.check).OnlyEnters :=
  (Check.Records.nested e.check_records).onlyEnters (e.nested_keeps_frame ctx)

/-- What a statement adds to the variables and functions of the current frame. -/
theorem Stmt.check_adds (stmt : Stmt) (ctx : Context) (s : CheckState) :
    (stmt.check ctx).Ends s (fun typed t => stmt.Adds typed s t) (fun _ _ => True) := by
  have hframe := stmt.check_frame ctx s
  obtain ⟨form, span⟩ := stmt
  cases form with
  | varDecl name nameSpan mode type? value? =>
    cases value? with
    | none =>
      exact ctx.varDecl_adds name nameSpan mode type? none span (by simp) (by simp) s
    | some value =>
      refine ctx.varDecl_adds name nameSpan mode type?
        (some (value.span, ctx.nested value.span value.check)) span ?_ ?_ s
      · rintro _ ⟨⟩
        exact value.nested_keeps_frame ctx
      · rintro _ ⟨⟩
        exact value.nested_onlyEnters ctx
  | fnDecl name nameSpan signature =>
    obtain ⟨parameters, result?, ⟨body, bodySpan⟩⟩ := signature
    exact (Context.fnDecl_frame parameters result? (Stmt.checkAll body) s).mono (fun _ _ ht => ht)
      fun _ _ _ => trivial
  | classDecl name nameSpan parameters members =>
    refine hframe.mono ?_ fun _ _ _ => trivial
    rintro typed t ⟨_, _, _, -, hbindings, -, hfunctions⟩
    exact ⟨hbindings, hfunctions⟩
  | _ =>
    refine hframe.mono ?_ fun _ _ _ => trivial
    intro typed t ht
    have hsame : t.frame = s.frame := ht
    exact ⟨congrArg Frame.bindings hsame, congrArg Frame.functions hsame⟩

theorem Stmt.nested_adds (stmt : Stmt) (ctx : Context) (s : CheckState) :
    (ctx.nested stmt.span stmt.check).Ends s (fun typed t => stmt.Adds typed s t)
      (fun _ _ => True) := by
  rw [Context.ends_nested]
  split
  · exact stmt.check_adds _ s
  · trivial

end Nominal
