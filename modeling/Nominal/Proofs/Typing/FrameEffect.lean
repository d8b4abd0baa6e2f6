import Nominal.Proofs.Scope.Frame
import Nominal.Proofs.Typing.Keeps
import Nominal.Proofs.Typing.Records

/-!
# What statements change about the current frame

A statement that succeeds adds its own declaration to the current frame and nothing else
(`Stmt.Declares`). A statement that fails leaves the frame as it was, except that a class keeps its
name (`Stmt.Spares`). Both are in `Stmt.check_frame`.

Functions and variables of function types are in the frame while they are checked, so for them a
failure has to take the declaration back. For functions this needs that their number is new.
-/

namespace Nominal

/-- The frame `after` is `before` with what `stmt`, checked as `typed`, declares. -/
def Stmt.Declares (stmt : Stmt) (typed : TypedStmt) (before after : Frame) : Prop :=
  match stmt.form with
  | .varDecl name _ mode _ _ => ∃ decl initializer? type,
    typed.form = .varDecl decl initializer? ∧ type.mode = mode ∧
      after.bindings.entries = before.bindings.entries ++ [(name, ⟨decl, type⟩)] ∧
      after.types = before.types ∧ after.functions = before.functions
  | .fnDecl name _ _ => ∃ decl function parameters body,
    typed.form = .fnDecl decl function parameters body ∧
      after.bindings = before.bindings ∧ after.types = before.types ∧
      after.functions.get name = before.functions.get name ++ [⟨some decl, function⟩] ∧
      (∀ other, other ≠ name → after.functions.get other = before.functions.get other) ∧
      after.functions.names =
        if before.functions.contains name then before.functions.names
        else before.functions.names ++ [name]
  | .classDecl name _ _ _ => ∃ c parameters members,
    typed.form = .classDecl c parameters members ∧
      after.bindings = before.bindings ∧
      after.types.entries = before.types.entries ++ [(name, .cls c)] ∧
      after.functions = before.functions
  | _ => after = before

/-- The frame `after` is `before`, except that the name of a class may have been added. -/
def Stmt.Spares (stmt : Stmt) (before after : Frame) : Prop :=
  after.bindings = before.bindings ∧ after.functions = before.functions ∧
    (after.types = before.types ∨
      ∃ name nameSpan parameters members c,
        stmt.form = .classDecl name nameSpan parameters members ∧
          after.types.entries = before.types.entries ++ [(name, .cls c)])

theorem Stmt.Spares.of_eq {stmt : Stmt} {before after : Frame} (h : after = before) :
    stmt.Spares before after := by
  rw [h]
  exact ⟨rfl, rfl, .inl rfl⟩

namespace Context

open Check

variable {ctx : Context} {name : String} {nameSpan valueSpan bodySpan span : Span} {type : Slot Ty}
  {mode : Mode} {value : Check TypedExpr} {s : CheckState}

/-! ## Variables -/

/-- The statement is a declaration of the variable `name`, which the frame accepted. -/
def DeclaredVariable (name : String) (mode : Mode) (before : Frame) (typed : TypedStmt)
    (after : Frame) : Prop :=
  ∃ decl initializer? type, typed.form = .varDecl decl initializer? ∧ type.mode = mode ∧
    before.declareVariable name ⟨decl, type⟩ = some after

theorem bind_frame (refused : Cause) (s : CheckState) :
    (bind name type refused span).Ends s
      (fun id t => s.frame.declareVariable name ⟨id, type⟩ = some t.frame)
      (fun _ t => t.frame = s.frame) := by
  unfold bind
  simp only [ends_bind, ends_insertDeclaration, ends_get]
  split
  · next frame hdeclare => exact hdeclare
  · rfl

/-- Declares the variable at the end, when nothing can fail any more. -/
theorem declareLast_frame (initializer? : Option TypedExpr) (hmode : type.mode = mode)
    {before : Frame} (hs : s.frame = before) :
    (ctx.declareVariable name type nameSpan >>= fun id =>
      (return ⟨.varDecl id initializer?, span⟩ : Check TypedStmt)).Ends s
      (fun typed t => DeclaredVariable name mode before typed t.frame)
      (fun _ t => t.frame = before) := by
  rw [ends_bind]
  refine (bind_frame _ s).mono ?_ ?_
  · intro id t ht
    exact ⟨id, initializer?, type, rfl, hmode, hs ▸ ht⟩
  · intro d t ht
    exact ht.trans hs

/-- Checks that the value fits before going on; the frame stays meanwhile. -/
theorem expect_frame {β : Type} {next : Unit → Check β} {value : TypedExpr} {before : Frame}
    {ok : β → CheckState → Prop} (hs : s.frame = before)
    (h : (next ()).Ends s ok fun _ t => t.frame = before) :
    (expectAssignable value type span >>= next).Ends s ok fun _ t => t.frame = before := by
  unfold expectAssignable
  split
  · exact h
  · exact hs

theorem initialisedVariable_frame (hvalue : value.Keeps CheckState.frame) (hmode : type.mode = mode)
    (s : CheckState) :
    (ctx.initialisedVariable name nameSpan type value valueSpan span).Ends s
      (fun typed t => DeclaredVariable name mode s.frame typed t.frame)
      (fun _ t => t.frame = s.frame) := by
  unfold initialisedVariable
  rw [ends_bind]
  refine (hvalue s).mono ?_ fun _ _ ht => ht
  intro initializer t ht
  exact expect_frame ht (declareLast_frame (some initializer) hmode ht)

theorem inferredVariable_frame (hvalue : value.Keeps CheckState.frame) (s : CheckState) :
    (ctx.inferredVariable name nameSpan mode value valueSpan span).Ends s
      (fun typed t => DeclaredVariable name mode s.frame typed t.frame)
      (fun _ t => t.frame = s.frame) := by
  unfold inferredVariable
  rw [ends_bind]
  refine (hvalue s).mono ?_ fun _ _ ht => ht
  intro initializer t ht
  split
  · exact expect_frame ht (declareLast_frame (some initializer) rfl ht)
  · exact ht

/-- The variable is declared before its value is checked, and taken back when the value fails. -/
theorem recursiveVariable_frame (hvalue : value.Keeps CheckState.frame) (hmode : type.mode = mode)
    (s : CheckState) :
    (ctx.recursiveVariable name nameSpan type value valueSpan span).Ends s
      (fun typed t => DeclaredVariable name mode s.frame typed t.frame)
      (fun _ t => t.frame = s.frame) := by
  rw [recursiveVariable_eq, ends_bind]
  refine (bind_frame _ s).mono ?_ fun _ _ ht => ht
  intro id t hdeclare
  rw [ends_bind, ends_undoing]
  refine (valueInto_keeps hvalue _ _ t).mono ?_ ?_
  · intro initializer u hu
    refine ⟨id, some initializer, type, rfl, hmode, ?_⟩
    rw [hdeclare, hu]
  · -- the value failed in the frame that has the variable
    intro d u hu
    show u.frame.removeVariable name = s.frame
    rw [hu]
    exact Frame.removeVariable_of_declared hdeclare

theorem varDecl_frame {type? : Option TypeExpr} {value? : Option (Span × Check TypedExpr)}
    (hvalue : ∀ value ∈ value?, value.2.Keeps CheckState.frame) (s : CheckState) :
    (ctx.varDecl name nameSpan mode type? value? span).Ends s
      (fun typed t => DeclaredVariable name mode s.frame typed t.frame)
      (fun _ t => t.frame = s.frame) := by
  unfold varDecl
  split
  · exact rfl
  · split
    · rw [ends_bind, ends_scope, ends_bind, ends_ofExcept]
      refine ⟨?_, fun _ _ => rfl⟩
      intro declared _
      dsimp only
      rw [ends_transaction]
      split
      · exact declareLast_frame none rfl rfl
      · next valueSpan value =>
        split
        · exact recursiveVariable_frame (hvalue _ rfl) rfl _
        · exact initialisedVariable_frame (hvalue _ rfl) rfl _
    · rw [ends_transaction]
      split
      · exact rfl
      · next valueSpan value => exact inferredVariable_frame (hvalue _ rfl) _

/-- The entries of a frame with one more variable. -/
theorem DeclaredVariable.entries {before after : Frame} {typed : TypedStmt}
    (h : DeclaredVariable name mode before typed after) :
    ∃ decl initializer? type, typed.form = .varDecl decl initializer? ∧ type.mode = mode ∧
      after.bindings.entries = before.bindings.entries ++ [(name, ⟨decl, type⟩)] ∧
      after.types = before.types ∧ after.functions = before.functions := by
  obtain ⟨decl, initializer?, type, hform, hmode, hdeclare⟩ := h
  obtain ⟨hfree, -, rfl⟩ := Frame.declareVariable_eq_some hdeclare
  exact ⟨decl, initializer?, type, hform, hmode, Table.entries_insert_of_not_contains hfree,
    rfl, rfl⟩

/-! ## Functions and classes -/

/-- The statement is a declaration of the function `name`, which the frame accepted. -/
def DeclaredFunction (name : String) (before : Frame) (typed : TypedStmt) (after : Frame) : Prop :=
  ∃ decl function parameters body, typed.form = .fnDecl decl function parameters body ∧
    before.declareFunction name ⟨some decl, function⟩ = some after

theorem fnDecl_frame (parameters : List Parameter) (result? : Option TypeExpr)
    (body : Context → Check (List TypedStmt)) (s : CheckState) :
    (ctx.fnDecl name nameSpan parameters result? bodySpan body span).Ends s
      (fun typed t => DeclaredFunction name s.frame typed t.frame)
      (fun _ t => s.frame.functions.UpTo s.registry.lastNumber → t.frame = s.frame) := by
  unfold fnDecl
  rw [ends_transaction, ends_bind]
  have hrecords := (ctx.functionHead_records parameters result?)
    { s with registry := s.registry.begin }
  have hkeeps := (ctx.functionHead_keeps parameters result?).frame_of_localState
    { s with registry := s.registry.begin }
  refine (hrecords.and hkeeps).mono ?_ fun _ _ ht _ => ht.2
  rintro head t ⟨⟨items, hregistry, -⟩, hframe⟩
  -- numbers are only handed out, so that of the function is newer than all in the frame
  have hlast : s.registry.lastNumber ≤ t.registry.lastNumber := by
    rw [hregistry, Registry.lastNumber_enter]
    exact Nat.le_add_right _ _
  simp only [ends_bind, ends_insertDeclaration, ends_get]
  split
  · exact fun _ => hframe
  · next frame hdeclare =>
    simp only [ends_bind, ends_setFrame, ends_undoing]
    have hdeclared : s.frame.declareFunction name
        ⟨some (t.registry.insert name ⟨.val, head.function.type⟩).1, head.function⟩ =
          some frame := by
      rw [← hdeclare]
      exact congrArg (Frame.declareFunction · name _) hframe.symm
    refine ((ctx.functionBody_keeps _ _ _ _).frame_of_localState _).mono ?_ ?_
    · intro stmts u hu
      have hframe' : frame = u.frame := hu.symm
      refine ⟨_, head.function, head.parameters, stmts, rfl, ?_⟩
      rw [hdeclared, hframe']
    · -- the body failed in the frame that has the function
      intro d u hu hnumbers
      show u.frame.removeFunction name _ = s.frame
      rw [show u.frame = frame from hu]
      refine Frame.removeFunction_of_declared hnumbers ?_ hdeclared
      rw [Registry.number_insert]
      omega

/-- The name is declared before the body of the class is checked, and stays. -/
theorem classDecl_frame (parameters : List Parameter)
    (members : ClassRef → Context → Check (List TypedStmt)) (s : CheckState) :
    (ctx.classDecl name nameSpan parameters members span).Ends s
      (fun typed t => ∃ c ids stmts, typed.form = .classDecl c ids stmts ∧
        s.frame.declareType name (.cls c) = some t.frame)
      (fun _ t => t.frame = s.frame ∨ ∃ c, s.frame.declareType name (.cls c) = some t.frame) := by
  unfold classDecl
  rw [ends_bind, ends_scope]
  split
  · exact .inl rfl
  · next hunknown =>
    -- no frame around knows the name, so the current one does not know it either
    have hfree : s.frame.types.contains name = false := by
      rw [← Table.find?_eq_none]
      cases hfind : s.frame.types.find? name with
      | none => rfl
      | some type =>
        rw [Scope.findType?, List.findSome?_cons, hfind] at hunknown
        exact absurd rfl hunknown
    have hdeclare (type : Ty) : s.frame.declareType name type =
        some ((s.frame.declareType name type).getD s.frame) := by
      unfold Frame.declareType
      rw [hfree]
      rfl
    rw [ends_bind]
    unfold declareClass
    rw [ends_modifyGet]
    dsimp only
    rw [ends_bind]
    -- whichever way the body ends, the frame with the name is put back
    refine ((Keeps.transaction LocalState.frame ?_).apart_frame _).mono ?_ ?_
    · exact Keeps.frame_inFrame _ _ _
    · rintro ⟨⟨ids, stmts⟩, returned⟩ t ht
      refine ⟨_, ids, stmts, rfl, ?_⟩
      rw [hdeclare]
      exact congrArg some ht.symm
    · intro d t ht
      refine .inr ⟨(s.classes.declare name).1, ?_⟩
      rw [hdeclare]
      exact congrArg some ht.symm

theorem ret_keeps_frame {value? : Option (Check TypedExpr)}
    (hvalue : ∀ value ∈ value?, value.Keeps CheckState.frame) :
    (ctx.ret value? span).Keeps CheckState.frame := by
  have hclosed := Keeps.closed CheckState.frame
  have hrest (f : FnType) (v? : Option TypedExpr) :
      (finishReturn f span v?).Keeps CheckState.frame := by
    unfold finishReturn
    dsimp only
    split
    · exact Keeps.bind (fun _ => rfl) fun _ => hclosed.pure _
    · exact hclosed.fail _ _
  rw [ret_eq]
  split
  · exact hclosed.fail _ _
  · next f value _ => exact ((hvalue value rfl).map some).bind (hrest f)
  · next f _ => exact hrest f none

end Context

/-! ## All statements -/

open Check Context

theorem Expr.nested_keeps_frame (e : Expr) (ctx : Context) :
    (ctx.nested e.span e.check).Keeps CheckState.frame :=
  (e.nested_keeps ctx).frame_of_localState

/-- What a statement changes about the frame that it is checked in. -/
theorem Stmt.check_frame (stmt : Stmt) (ctx : Context) (s : CheckState) :
    (stmt.check ctx).Ends s (fun typed t => stmt.Declares typed s.frame t.frame)
      (fun _ t => s.frame.functions.UpTo s.registry.lastNumber →
        stmt.Spares s.frame t.frame) := by
  obtain ⟨form, span⟩ := stmt
  have hclosed := Keeps.closed CheckState.frame
  -- a declaration of a variable, and a statement that declares nothing in this frame
  have hdeclared (c : Check TypedStmt) (name : String) (mode : Mode)
      (h : c.Ends s (fun typed t => DeclaredVariable name mode s.frame typed t.frame)
        (fun _ t => t.frame = s.frame)) :
      c.Ends s (fun typed t => ∃ decl initializer? type,
          typed.form = .varDecl decl initializer? ∧ type.mode = mode ∧
            t.frame.bindings.entries = s.frame.bindings.entries ++ [(name, ⟨decl, type⟩)] ∧
            t.frame.types = s.frame.types ∧ t.frame.functions = s.frame.functions)
        (fun _ t => s.frame.functions.UpTo s.registry.lastNumber →
          Stmt.Spares ⟨form, span⟩ s.frame t.frame) :=
    h.mono (fun _ _ ht => ht.entries) fun _ _ ht _ => .of_eq ht
  have hkept (c : Check TypedStmt) (h : c.Keeps CheckState.frame) :
      c.Ends s (fun _ t => t.frame = s.frame)
        (fun _ t => s.frame.functions.UpTo s.registry.lastNumber →
          Stmt.Spares ⟨form, span⟩ s.frame t.frame) :=
    (h s).mono (fun _ _ ht => ht) fun _ _ ht _ => .of_eq ht
  cases form with
  | varDecl name nameSpan mode type? value? =>
    cases value? with
    | none =>
      refine hdeclared (ctx.varDecl name nameSpan mode type? none span) name mode
        (varDecl_frame ?_ s)
      rintro _ hvalue
      cases hvalue
    | some value =>
      refine hdeclared (ctx.varDecl name nameSpan mode type?
        (some (value.span, ctx.nested value.span value.check)) span) name mode (varDecl_frame ?_ s)
      rintro _ hvalue
      cases hvalue
      exact value.nested_keeps_frame ctx
  | fnDecl name nameSpan signature =>
    obtain ⟨parameters, result?, ⟨body, bodySpan⟩⟩ := signature
    refine (fnDecl_frame parameters result? (Stmt.checkAll body) s).mono ?_ ?_
    · rintro typed t ⟨decl, function, ids, stmts, hform, hdeclare⟩
      obtain ⟨-, ht⟩ := Frame.declareFunction_eq_some hdeclare
      refine ⟨decl, function, ids, stmts, hform, ?_⟩
      rw [ht]
      exact ⟨rfl, rfl, Methods.get_add_self _ _ _, fun _ h => Methods.get_add_of_ne h,
        Methods.names_add _ _ _⟩
    · exact fun _ t ht hnumbers => .of_eq (ht hnumbers)
  | classDecl name nameSpan parameters members =>
    refine (classDecl_frame parameters (Stmt.checkMembers members parameters) s).mono ?_ ?_
    · rintro typed t ⟨c, ids, stmts, hform, hdeclare⟩
      obtain ⟨hfree, ht⟩ := Frame.declareType_eq_some hdeclare
      refine ⟨c, ids, stmts, hform, ?_⟩
      rw [ht]
      exact ⟨rfl, Table.entries_insert_of_not_contains hfree, rfl⟩
    · rintro d t (ht | ⟨c, hdeclare⟩) -
      · exact .of_eq ht
      · obtain ⟨hfree, ht⟩ := Frame.declareType_eq_some hdeclare
        unfold Stmt.Spares
        rw [ht]
        exact ⟨rfl, rfl, .inr ⟨name, nameSpan, parameters, members, c, rfl,
          Table.entries_insert_of_not_contains hfree⟩⟩
  | expression e => exact hkept _ ((e.nested_keeps_frame ctx).bind fun _ => hclosed.pure _)
  | print e => exact hkept _ ((e.nested_keeps_frame ctx).bind fun _ => hclosed.pure _)
  | ret value? =>
    cases value? with
    | none =>
      refine hkept (ctx.ret none span) (ret_keeps_frame ?_)
      rintro _ hvalue
      cases hvalue
    | some value =>
      refine hkept (ctx.ret (some (ctx.nested value.span value.check)) span) (ret_keeps_frame ?_)
      rintro _ hvalue
      cases hvalue
      exact value.nested_keeps_frame ctx
  | block block =>
    obtain ⟨body, blockSpan⟩ := block
    exact hkept _ ((Keeps.frame_inFrame _ _ _).bind fun _ => hclosed.pure _)
  | branch condition thenBody elseBody? =>
    cases elseBody? with
    | none =>
      exact hkept _ <| (condition.nested_keeps_frame ctx).bind fun _ =>
        (Keeps.frame_inFrame _ _ _).bind fun _ => hclosed.pure _
    | some elseBody =>
      exact hkept _ <| (condition.nested_keeps_frame ctx).bind fun _ =>
        (Keeps.frame_inFrame _ _ _).bind fun _ => (Keeps.frame_inFrame _ _ _).bind fun _ =>
          hclosed.pure _
  | loop condition body =>
    exact hkept _ <| (condition.nested_keeps_frame ctx).bind fun _ =>
      (Keeps.frame_inFrame _ _ _).bind fun _ => hclosed.pure _

end Nominal
