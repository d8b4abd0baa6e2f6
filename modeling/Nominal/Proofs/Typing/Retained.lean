import Nominal.Proofs.Typing.Soundness.Classes
import Nominal.Proofs.Typing.Uniform

/-!
# Known classes stay as they are

A class is entered and changed by its own declaration and by nothing else. So whichever way a check
ends, what was known of the classes before is what is known of them afterwards, and new classes come
after them (`Stmt.check_retains`).
-/

namespace Nominal

namespace Check

variable {α β : Type}

/-- Whichever way the check ends, the classes begin with `known` if they did before. -/
def Retains (known : List ClassInfo) (c : Check α) : Prop :=
  ∀ s, known <+: s.classes.classes →
    c.Ends s (fun _ t => known <+: t.classes.classes) (fun _ t => known <+: t.classes.classes)

namespace Retains

variable {known : List ClassInfo} {c : Check α}

theorem bind {f : α → Check β} (hc : c.Retains known) (hf : ∀ a, (f a).Retains known) :
    (c >>= f).Retains known := by
  intro s hs
  rw [ends_bind]
  exact (hc s hs).mono (fun a t ht => hf a t ht) fun _ _ ht => ht

theorem stepwise (known : List ClassInfo) : Stepwise fun _ c => c.Retains known where
  pure _ := fun _ hs => hs
  throw _ := fun _ hs => hs
  get_bind _ hf := fun s hs => hf s s hs
  bind := bind
  insertDeclaration _ _ := fun _ hs => hs
  setFrame _ := fun _ hs => hs
  setReturned := fun _ hs => hs
  transaction h := fun s hs => (ends_transaction _).2 (h { s with registry := s.registry.begin } hs)
  undoing _ h := fun s hs => (ends_undoing _ _).2 (h s hs)
  apart h := fun s hs => (ends_apart _).2 (h { s with returned := false } hs)
  inFrame frame h := fun s hs => (Context.ends_inFrame _ _ _).2 (h _ { s with frame } hs)

/-- A class that comes later may change. -/
theorem updateClass {c : ClassRef} (hc : known.length ≤ c.key) (f : ClassInfo → ClassInfo) :
    (Check.updateClass c f).Retains known :=
  fun _ hs => ClassTable.prefix_update hs hc f

end Retains

end Check

/-- A new class has its place after all that are known, so it may change. -/
theorem Context.classDecl_retains {ctx : Context} {known : List ClassInfo} {members : List Stmt}
    (name : String) (nameSpan : Span) (parameters : List Parameter) (span : Span)
    (hmembers : ∀ member ∈ members, ∀ ctx, (member.check ctx).Retains known) :
    (ctx.classDecl name nameSpan parameters (Stmt.checkMembers members parameters)
      span).Retains known := by
  have hP := Check.Retains.stepwise known
  rw [classDecl_eq]
  refine hP.scope_bind fun scope => ?_
  split
  · exact hP.fail _ _
  · intro s hs
    rw [Check.ends_bind]
    unfold declareClass
    rw [Check.ends_modifyGet]
    have hkey : known.length ≤ (s.classes.declare name).1.key := hs.length_le
    have hdeclared : known <+: (s.classes.declare name).2.classes :=
      hs.trans (List.prefix_append _ _)
    exact hP.classRest (Check.Retains.updateClass hkey) parameters hmembers { s with
      classes := (s.classes.declare name).2
      frame := (s.frame.declareType name (.cls (s.classes.declare name).1)).getD s.frame } hdeclared

/-- The classes that are known before a statement is checked are the same afterwards. -/
theorem Stmt.check_retains (stmt : Stmt) (ctx : Context) (s : CheckState) :
    (stmt.check ctx).Ends s (fun _ t => s.classes.classes <+: t.classes.classes)
      (fun _ t => s.classes.classes <+: t.classes.classes) := by
  have huniform := (Check.Retains.stepwise s.classes.classes).uniform Context.classDecl_retains
  exact stmt.check_uniform huniform ctx s (List.prefix_refl _)

end Nominal
