import Nominal.Proofs.Session.Accepted
import Nominal.Proofs.Typing.Classes.Formed
import Nominal.Syntax.Program

/-!
# The classes of a session

Every class of a session comes from one declaration, whether that succeeded or not, and is made of
what was accepted there (`Session.classes_formed`). What is checked inside of a class declares later
classes only, so it is enough to follow the classes from some place on (`Check.Explains`); the class
itself is known from `ClassSite.check_ends`.
-/

namespace Nominal

/-- The class with the key `key` is made of what was accepted where it was declared. -/
def ClassInfo.DeclaredAs (info : ClassInfo) (key : Nat) : Prop :=
  ∃ site : ClassSite, site.IsNew ∧ site.ref.key = key ∧ info.name = site.name ∧
    info.Formed site.acceptedParameters site.acceptedMembers

/-- All classes from the place `n` on are made of what was accepted where they were declared. -/
structure CheckState.Explained (n : Nat) (s : CheckState) : Prop where
  length : n ≤ s.classes.classes.length
  classes : ∀ (key : Nat) (info : ClassInfo), n ≤ key → s.classes.classes[key]? = some info →
    info.DeclaredAs key

namespace Check

/-- Whichever way the check ends, it keeps the classes from `n` on explained. -/
def Explains (n : Nat) {α : Type} (c : Check α) : Prop :=
  ∀ s, s.Explained n → c.Ends s (fun _ t => t.Explained n) (fun _ t => t.Explained n)

namespace Explains

variable {n : Nat}

theorem stepwise (n : Nat) : Stepwise fun _ c => c.Explains n where
  pure _ := fun _ hs => hs
  throw _ := fun _ hs => hs
  get_bind _ hf := fun s hs => hf s s hs
  bind hc hf := fun s hs => (ends_bind _ _).2 <|
    (hc s hs).mono (fun a t ht => hf a t ht) fun _ _ h => h
  insertDeclaration _ _ := fun _ hs => ⟨hs.length, hs.classes⟩
  setFrame _ := fun _ hs => ⟨hs.length, hs.classes⟩
  setReturned := fun _ hs => ⟨hs.length, hs.classes⟩
  transaction h := fun s hs => (ends_transaction _).2 <|
    (h { s with registry := s.registry.begin } ⟨hs.length, hs.classes⟩).mono
      (fun _ _ ht => ⟨ht.length, ht.classes⟩) fun _ _ ht => ⟨ht.length, ht.classes⟩
  undoing _ h := fun s hs => (ends_undoing _ _).2 <|
    (h s hs).mono (fun _ _ ht => ht) fun _ _ ht => ⟨ht.length, ht.classes⟩
  apart h := fun s hs => (ends_apart _).2 <|
    (h { s with returned := false } ⟨hs.length, hs.classes⟩).mono
      (fun _ _ ht => ⟨ht.length, ht.classes⟩) fun _ _ ht => ⟨ht.length, ht.classes⟩
  inFrame frame h := fun s hs => (Context.ends_inFrame _ _ _).2 <|
    (h _ { s with frame } ⟨hs.length, hs.classes⟩).mono
      (fun _ _ ht => ⟨ht.length, ht.classes⟩) fun _ _ ht => ⟨ht.length, ht.classes⟩

/-- A class that comes before `n` may change. -/
theorem updateClass {c : ClassRef} (hc : c.key < n) (f : ClassInfo → ClassInfo) :
    (Check.updateClass c f).Explains n := by
  intro s hs
  rw [ends_updateClass]
  refine ⟨(ClassTable.length_update s.classes c f).symm ▸ hs.length, fun key info hkey hinfo => ?_⟩
  have hne : c.key ≠ key := by omega
  rw [ClassTable.getElem?_update_of_ne hne] at hinfo
  exact hs.classes key info hkey hinfo

end Explains

/-- A property of checks that is one for each number is handed on if each of them is. -/
theorem Stepwise.forall {P : Nat → (α : Type) → Check α → Prop} (hP : ∀ n, Stepwise (P n)) :
    Stepwise fun α c => ∀ n, P n α c where
  pure a := fun n => (hP n).pure a
  throw d := fun n => (hP n).throw d
  get_bind hsame hf := fun n => (hP n).get_bind hsame fun s => hf s n
  bind hc hf := fun n => (hP n).bind (hc n) fun a => hf a n
  insertDeclaration name type := fun n => (hP n).insertDeclaration name type
  setFrame frame := fun n => (hP n).setFrame frame
  setReturned := fun n => (hP n).setReturned
  transaction h := fun n => (hP n).transaction (h n)
  undoing undo h := fun n => (hP n).undoing undo (h n)
  apart h := fun n => (hP n).apart (h n)
  inFrame frame h := fun n => (hP n).inFrame frame fun ctx => h ctx n

end Check

open Check Context

/-- What is declared inside of a class comes after it. -/
theorem ClassSite.check_explains_inside (site : ClassSite) (hnew : site.IsNew)
    (nameSpan span : Span)
    (hmembers : ∀ member ∈ site.members, ∀ ctx n, (member.check ctx).Explains n) :
    (site.check nameSpan span).Ends site.before
      (fun _ t => t.Explained (site.ref.key + 1)) (fun _ t => t.Explained (site.ref.key + 1)) := by
  show (site.ctx.classDecl site.name nameSpan site.parameters
    (Stmt.checkMembers site.members site.parameters) span).Ends _ _ _
  rw [classDecl_eq, ends_bind, ends_scope, hnew, if_neg (by simp), ends_bind]
  unfold declareClass
  rw [ends_modifyGet]
  have hlength : site.declared.classes.classes.length = site.ref.key + 1 := List.length_append
  have hstart : site.declared.Explained (site.ref.key + 1) := by
    refine ⟨Nat.le_of_eq hlength.symm, fun key info hkey hinfo => ?_⟩
    have hlt := (List.getElem?_eq_some_iff.1 hinfo).1
    omega
  exact (Explains.stepwise (site.ref.key + 1)).classRest (Explains.updateClass (Nat.lt_succ_self _))
    site.parameters (fun member hmember ctx => hmembers member hmember ctx _) site.declared hstart

theorem Context.classDecl_explains {ctx : Context} {members : List Stmt} (name : String)
    (nameSpan : Span) (parameters : List Parameter) (span : Span)
    (hmembers : ∀ member ∈ members, ∀ ctx n, (member.check ctx).Explains n) (n : Nat) :
    (ctx.classDecl name nameSpan parameters (Stmt.checkMembers members parameters)
      span).Explains n := by
  intro s hs
  let site : ClassSite := ⟨ctx, s, name, parameters, members⟩
  by_cases hnew : site.IsNew
  · have hretained := Stmt.check_retains ⟨.classDecl name nameSpan parameters members, span⟩ ctx s
    have hinside := site.check_explains_inside hnew nameSpan span hmembers
    have hall (t : CheckState)
        (hforms : t.Forms site.ref site.acceptedParameters site.acceptedMembers)
        (hlater : t.Explained (site.ref.key + 1))
        (hearlier : s.classes.classes <+: t.classes.classes) : t.Explained n := by
      refine ⟨Nat.le_trans hs.length hearlier.length_le, fun key info hkey hinfo => ?_⟩
      rcases Nat.lt_trichotomy key site.ref.key with hlt | rfl | hgt
      · -- an earlier class is what it was
        have hknown : s.classes.classes[key]? = some s.classes.classes[key] :=
          List.getElem?_eq_getElem hlt
        have hsame := CheckState.getElem?_of_prefix hknown hearlier
        rw [hinfo] at hsame
        cases hsame
        exact hs.classes key _ hkey hknown
      · obtain ⟨info', hentry, hname, hformed⟩ := hforms
        rw [hinfo] at hentry
        cases hentry
        exact ⟨site, hnew, rfl, hname, hformed⟩
      · exact hlater.classes key info hgt hinfo
    refine (((site.check_ends hnew nameSpan span).and hinside).and hretained).mono ?_ ?_
    · rintro typed t ⟨⟨⟨hforms, -⟩, hlater⟩, hearlier⟩
      exact hall t hforms hlater hearlier
    · rintro d t ⟨⟨⟨hforms, -⟩, hlater⟩, hearlier⟩
      exact hall t hforms hlater hearlier
  · -- the name is taken, so nothing is declared
    rw [classDecl_eq, ends_bind, ends_scope,
      if_pos (Option.isSome_iff_ne_none.2 hnew)]
    exact hs

theorem Stmt.check_explains (stmt : Stmt) (ctx : Context) (n : Nat) : (stmt.check ctx).Explains n :=
  stmt.check_uniform ((Stepwise.forall Explains.stepwise).uniform classDecl_explains) ctx n

namespace Session

theorem Reachable.explained {s : Session} (hs : s.Reachable) : s.state.Explained 0 := by
  refine hs.induct (P := fun s => s.state.Explained 0) (fun limit => ?_) fun s stmt h => ?_
  · exact ⟨Nat.le_refl 0, fun key info _ hinfo => nomatch hinfo⟩
  · have hstmt : (s.context.nested stmt.span stmt.check).Explains 0 :=
      (Explains.stepwise 0).nested fun ctx => stmt.check_explains ctx 0
    exact checkStmt_of_both (hstmt s.state h)

/-- Whichever way the declaration of a class ends, the class is made of its first parameters and
members, those that were accepted, and there are no others exactly when it succeeds. In a session,
every class is made of what was accepted where it was declared. -/
theorem classes_formed :
    (∀ (site : ClassSite) (nameSpan span : Span), site.IsNew →
      site.acceptedParameters.map Accepted.item <+: site.parameters ∧
      site.acceptedMembers.map Accepted.item <+: site.members ∧
      (site.check nameSpan span).Ends site.before
        (fun typed t => t.Forms site.ref site.acceptedParameters site.acceptedMembers ∧
          site.IsComplete ∧ typed.form = .classDecl site.ref
            (site.acceptedParameters.map Accepted.value)
            (site.acceptedMembers.map Accepted.value))
        (fun _ t => t.Forms site.ref site.acceptedParameters site.acceptedMembers ∧
          ¬ site.IsComplete)) ∧
    ∀ s : Session, s.Reachable → ∀ (key : Nat) (info : ClassInfo),
      s.state.classes.classes[key]? = some info → info.DeclaredAs key := by
  refine ⟨fun site nameSpan span hnew => ?_, fun s hs key info hinfo => ?_⟩
  · exact ⟨site.acceptedParameters_prefix, site.acceptedMembers_prefix,
      site.check_ends hnew nameSpan span⟩
  · exact hs.explained.classes key info (Nat.zero_le key) hinfo

/-- A class with a field and two overloads of a method, whose last member has the name of a
parameter. -/
def accountSite : ClassSite :=
  let stmt (form : StmtForm) : Stmt := ⟨form, .nowhere⟩
  let expr (form : ExprForm) : Expr := ⟨form, .nowhere⟩
  let intType : TypeExpr := .named "Int" .nowhere
  let getter (parameters : List Parameter) (name : String) : Stmt :=
    stmt (.fnDecl "get" .nowhere ⟨parameters, some intType,
      ⟨[stmt (.ret (some (expr (.symbol name))))], .nowhere⟩⟩)
  { ctx := (new defaultNestingLimit).context
    before := (new defaultNestingLimit).state
    name := "Account"
    parameters := [⟨"start", .val, intType, .nowhere⟩]
    members := [stmt (.varDecl "total" .nowhere .var none (some (expr (.number 0)))),
      getter [] "total", getter [⟨"n", .val, intType, .nowhere⟩] "n",
      stmt (.varDecl "start" .nowhere .val none (some (expr (.number 1))))] }

theorem classes_formed_account :
    accountSite.IsNew ∧ accountSite.acceptedParameters.length = 1 ∧
      accountSite.acceptedMembers.length = 3 ∧
    (∃ d t, accountSite.check .nowhere .nowhere accountSite.before = .error d t ∧
      t.Forms accountSite.ref accountSite.acceptedParameters accountSite.acceptedMembers) ∧
    ∀ (key : Nat) (info : ClassInfo),
      ((new defaultNestingLimit).check cellProgram).2.state.classes.classes[key]? = some info →
        info.DeclaredAs key := by
  have hnew : accountSite.IsNew := by
    unfold ClassSite.IsNew
    decide +kernel
  have hparameters : accountSite.acceptedParameters.length = 1 := by decide +kernel
  have hmembers : accountSite.acceptedMembers.length = 3 := by decide +kernel
  have hstops (site : ClassSite) (hsite : site.IsNew)
      (hmore : site.acceptedMembers.length ≠ site.members.length) :
      ∃ d t, site.check .nowhere .nowhere site.before = .error d t ∧
        t.Forms site.ref site.acceptedParameters site.acceptedMembers := by
    obtain ⟨-, -, hends⟩ := classes_formed.1 site .nowhere .nowhere hsite
    cases hrun : site.check .nowhere .nowhere site.before with
    | ok typed t =>
      have hlength := congrArg List.length (hends.of_ok hrun).2.1.members
      rw [List.length_map] at hlength
      exact absurd hlength hmore
    | error d t => exact ⟨d, t, rfl, (hends.of_error hrun).1⟩
  refine ⟨hnew, hparameters, hmembers, hstops accountSite hnew ?_,
    classes_formed.2 _ (.check cellProgram (.new defaultNestingLimit))⟩
  rw [hmembers]
  decide

end Session

end Nominal
