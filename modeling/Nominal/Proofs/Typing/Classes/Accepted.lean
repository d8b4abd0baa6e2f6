import Nominal.Proofs.Typing.Parts
import Nominal.Proofs.Typing.Points

/-!
# What a class accepts

The parameters of a class are checked one after the other, and its members after them. Where the
check of the class ends early, it has accepted those that come before. `Check.accepted` lists them,
each with what its check gave and with the state it left, and `Check.mapM_accepted` follows a
property of the accepted ones from one to the next.

A `ClassSite` is a declaration of a class at some point of a check.
-/

namespace Nominal

/-- What a check accepted, the value it gave and the state it left. -/
structure Accepted (α β : Type) where
  item : α
  value : β
  state : CheckState

namespace Check

variable {α β : Type}

/-- What `f` accepts of a list, one after the other, up to the first that it refuses. -/
def accepted (f : α → Check β) : List α → CheckState → List (Accepted α β)
  | [], _ => []
  | a :: rest, s =>
    match f a s with
    | .ok b t => ⟨a, b, t⟩ :: accepted f rest t
    | .error _ _ => []

/-- What is accepted stands at the beginning of the list. -/
theorem accepted_prefix (f : α → Check β) (as : List α) (s : CheckState) :
    (accepted f as s).map Accepted.item <+: as := by
  induction as generalizing s with
  | nil => exact List.prefix_refl _
  | cons a rest ih =>
    unfold accepted
    split
    · exact (List.prefix_cons_inj a).2 (ih _)
    · exact List.nil_prefix

/-- A property of what was accepted so far, and of the state, is one of all that is accepted if each
check hands it on. When a check fails, it may leave a state of another kind. -/
theorem mapM_accepted {f : α → Check β} (Inv Stopped : List (Accepted α β) → CheckState → Prop)
    (hstep : ∀ done a s, Inv done s →
      (f a).Ends s (fun b t => Inv (done ++ [⟨a, b, t⟩]) t) (fun _ t => Stopped done t))
    (as : List α) {done : List (Accepted α β)} {s : CheckState} (hs : Inv done s) :
    (as.mapM f).Ends s
      (fun bs t => Inv (done ++ accepted f as s) t ∧
        (accepted f as s).map Accepted.item = as ∧ (accepted f as s).map Accepted.value = bs)
      (fun _ t => Stopped (done ++ accepted f as s) t ∧ (accepted f as s).length < as.length) := by
  induction as generalizing done s with
  | nil =>
    rw [accepted, List.append_nil]
    exact ⟨hs, rfl, rfl⟩
  | cons a rest ih =>
    have hfirst := hstep done a s hs
    rw [List.mapM_cons, ends_bind]
    unfold accepted
    cases hrun : f a s with
    | error d t =>
      have hstopped := hfirst.of_error hrun
      unfold Ends
      rw [hrun, List.append_nil]
      exact ⟨hstopped, Nat.succ_pos _⟩
    | ok b t =>
      have hnext := ih (hfirst.of_ok hrun)
      rw [List.append_assoc, List.singleton_append] at hnext
      unfold Ends
      rw [hrun]
      show (Bind.bind (rest.mapM f) _).Ends t _ _
      rw [ends_bind]
      refine hnext.mono ?_ ?_
      · rintro bs u ⟨hu, hitems, hvalues⟩
        exact ⟨hu, by rw [List.map_cons, hitems], by rw [List.map_cons, hvalues]⟩
      · rintro d u ⟨hu, hlt⟩
        exact ⟨hu, Nat.succ_lt_succ hlt⟩

end Check

/-! ## Members one after the other -/

namespace Context

/-- Checks one member of the class `c` and enters it into the class. -/
def classMember (ctx : Context) (c : ClassRef) (parameters : List Parameter) (stmt : Stmt) :
    Check TypedStmt := do
  ctx.expectNoParameter parameters stmt
  let typed ← ctx.nested stmt.span stmt.check
  ctx.enterMember c stmt typed
  return typed

theorem checkMembers_eq (members : List Stmt) (parameters : List Parameter) (c : ClassRef)
    (ctx : Context) :
    Stmt.checkMembers members parameters c ctx = members.mapM (ctx.classMember c parameters) := by
  induction members with
  | nil =>
    rw [List.mapM_nil]
    rfl
  | cons stmt rest ih =>
    rw [List.mapM_cons, ← ih]
    unfold classMember
    simp only [bind_assoc, pure_bind]
    rfl

end Context

namespace Accepted

/-- The field that a parameter becomes. -/
def field (a : Accepted Parameter DeclId) : Accepted String DeclId :=
  ⟨a.item.name, a.value, a.state⟩

/-- The field that a member becomes if it declares a variable. -/
def field? (a : Accepted Stmt TypedStmt) : Option (Accepted String DeclId) :=
  match a.item.form, a.value.form with
  | .varDecl name _ _ _ _, .varDecl decl _ => some ⟨name, decl, a.state⟩
  | _, _ => none

/-- The overload of `name` that a member becomes if it declares a function of that name. -/
def overload? (name : String) (a : Accepted Stmt TypedStmt) : Option Overload :=
  match a.item.form, a.value.form with
  | .fnDecl declared _ _, .fnDecl decl function _ _ =>
    if declared = name then some ⟨some decl, function⟩ else none
  | _, _ => none

end Accepted

/-- A declaration of a class, with the surroundings and the state in which it is checked. -/
structure ClassSite where
  ctx : Context
  before : CheckState
  name : String
  parameters : List Parameter
  members : List Stmt

namespace ClassSite

variable (site : ClassSite)

/-- No type of the name is known, so the class is declared. -/
def IsNew : Prop :=
  Scope.findType? (site.before.frame :: site.ctx.outer) site.name = none

/-- The class. -/
def ref : ClassRef :=
  (site.before.classes.declare site.name).1

/-- The state when nothing is known of the class but its name. -/
def declared : CheckState :=
  { site.before with
    classes := (site.before.classes.declare site.name).2
    frame := (site.before.frame.declareType site.name (.cls site.ref)).getD site.before.frame }

/-- The surroundings of its parameters. -/
def body : Context :=
  { site.ctx with function? := none, className? := some site.name }.inside site.declared.frame

/-- The parameters that are accepted. -/
def acceptedParameters : List (Accepted Parameter DeclId) :=
  Check.accepted (site.body.classParameter site.ref) site.parameters site.declared.atClass

/-- The members that are accepted. The first is checked when all parameters are. -/
def acceptedMembers : List (Accepted Stmt TypedStmt) :=
  match site.parameters.mapM (site.body.classParameter site.ref) site.declared.atClass with
  | .ok _ t =>
    Check.accepted ((site.body.inside t.frame).classMember site.ref site.parameters) site.members
      t.atBlock
  | .error _ _ => []

theorem acceptedParameters_prefix :
    site.acceptedParameters.map Accepted.item <+: site.parameters :=
  Check.accepted_prefix _ _ _

theorem acceptedMembers_prefix : site.acceptedMembers.map Accepted.item <+: site.members := by
  unfold acceptedMembers
  split
  · exact Check.accepted_prefix _ _ _
  · exact List.nil_prefix

/-- Checks the declaration. -/
def check (nameSpan span : Span) : Check TypedStmt :=
  Stmt.check ⟨.classDecl site.name nameSpan site.parameters site.members, span⟩ site.ctx

end ClassSite

end Nominal
