import Nominal.Proofs.Ty.Reading
import Nominal.Proofs.Typing.WellTyped

/-!
# Function types of the same name

A function type is assignable to another when their names are the same. As long as the names in them
are plain, such function types have as many parameters, and the names of the parameters agree one by
one (`FnType.forall₂_name_of_assignable`). The modes of the parameters are not part of the name. So
what the second can be called with may be refused by the first, but only for an argument that can
only be read and stands for a `var` (`FnType.accepts_iff_noReadOnly`).
-/

namespace Nominal

namespace Ty

/-- The type is made of plain names. -/
def Plain (a : Ty) : Prop :=
  a.Over fun t => IsPlain t.name

/-! ## What only the name of a type tells -/

mutual

/-- The type with classes of the same name in the place of its primitive types and classes. What
remains is what the name of the type tells. -/
def spelled : Ty → Ty
  | primitive p => cls ⟨0, p.name⟩
  | function parameters result => function (spelledSlots parameters) result.spelled
  | cls c => cls ⟨0, c.name⟩

/-- The slot with the type that the name of its type tells. -/
def spelledSlot : Slot Ty → Slot Ty
  | ⟨mode, type⟩ => ⟨mode, type.spelled⟩

/-- The slots with the types that the names of their types tell. -/
def spelledSlots : List (Slot Ty) → List (Slot Ty)
  | [] => []
  | s :: rest => spelledSlot s :: spelledSlots rest

end

theorem spelledSlots_eq_map (slots : List (Slot Ty)) :
    spelledSlots slots = slots.map fun s => ⟨s.mode, s.type.spelled⟩ := by
  induction slots with
  | nil => rfl
  | cons s rest ih => cases s; simp [spelledSlots, spelledSlot, ih]

mutual

theorem name_spelled : ∀ a : Ty, a.spelled.name = a.name
  | primitive _ => rfl
  | function parameters result => by
    show functionName (slotNames (spelledSlots parameters)) result.spelled.name =
      functionName (slotNames parameters) result.name
    rw [slotNames_spelled parameters, result.name_spelled]
  | cls _ => rfl

theorem slotName_spelled : ∀ s : Slot Ty, slotName (spelledSlot s) = slotName s
  | ⟨_, type⟩ => type.name_spelled

theorem slotNames_spelled : ∀ slots : List (Slot Ty),
    slotNames (spelledSlots slots) = slotNames slots
  | [] => rfl
  | s :: rest => by
    rw [spelledSlots, slotNames, slotNames, slotName_spelled s, slotNames_spelled rest]

end

/-- A class of a plain name, of which only the name is told. -/
def IsSpelled (t : Ty) : Prop :=
  IsPlain t.name ∧ ∃ name, t = cls ⟨0, name⟩

variable {a b : Ty}

theorem Plain.over_spelled (h : a.Plain) : a.spelled.Over IsSpelled := by
  induction h with
  | primitive h => exact .cls ⟨h, _, rfl⟩
  | cls h => exact .cls ⟨h, _, rfl⟩
  | @function parameters result _ _ ihparameters ihresult =>
    rw [spelled, spelledSlots_eq_map]
    refine .function ?_ ihresult
    intro p hp
    obtain ⟨q, hq, rfl⟩ := List.mem_map.1 hp
    exact ihparameters q hq

/-- Types of plain names tell the same when their names are the same. -/
theorem Plain.agrees_spelled (ha : a.Plain) (hb : b.Plain) (h : a.name = b.name) :
    a.spelled.Agrees b.spelled := by
  have hplain : ∀ t, IsSpelled t → IsPlain t.name := fun t ht => ht.1
  have hnames : ∀ t u, IsSpelled t → IsSpelled u → t.name = u.name → t = u := by
    rintro t u ⟨-, name, rfl⟩ ⟨-, other, rfl⟩ hname
    rw [show name = other from hname]
  refine ha.over_spelled.agrees hplain hnames hb.over_spelled ?_
  rw [name_spelled, name_spelled, h]

mutual

/-- Types that agree have the same name, as modes are not part of it. -/
theorem Agrees.name_eq : ∀ {a b : Ty}, a.Agrees b → a.name = b.name
  | _, _, .primitive _ => rfl
  | _, _, .cls _ => rfl
  | function parameters result, function parameters' result', .function hparameters hresult => by
    show functionName (slotNames parameters) result.name =
      functionName (slotNames parameters') result'.name
    rw [slotNames_eq_of_agrees hparameters, hresult.name_eq]

theorem slotNames_eq_of_agrees : ∀ {parameters parameters' : List (Slot Ty)},
    List.Forall₂ (fun p q => Agrees p.type q.type) parameters parameters' →
      slotNames parameters = slotNames parameters'
  | _, _, .nil => rfl
  | ⟨_, _⟩ :: _, ⟨_, _⟩ :: _, .cons hfirst hrest => by
    rw [slotNames, slotNames, slotName, slotName, hfirst.name_eq, slotNames_eq_of_agrees hrest]

end

end Ty

/-! ## Calls -/

/-- No argument that can only be read stands for a parameter that is a `var`. -/
def NoReadOnly (arguments parameters : List (Slot Ty)) : Prop :=
  ∀ pair ∈ arguments.zip parameters, pair.2.mode = .var → pair.1.mode = .var

/-- Two relations along lists, one after the other. -/
theorem forall₂_trans {α β γ : Type} {R : α → β → Prop} {S : β → γ → Prop} {T : α → γ → Prop}
    (htrans : ∀ a b c, R a b → S b c → T a c) {as : List α} {bs : List β} {cs : List γ}
    (hR : List.Forall₂ R as bs) (hS : List.Forall₂ S bs cs) : List.Forall₂ T as cs := by
  induction hR generalizing cs with
  | nil =>
    cases hS
    exact .nil
  | cons hab _ ih =>
    cases hS with
    | cons hbc hrest => exact .cons (htrans _ _ _ hab hbc) (ih hrest)

/-- Slots are assignable when the names of the types are the same and the mode is kept. -/
theorem Slot.assignableTo_iff {a b : Slot Ty} :
    a.assignableTo b = true ↔ a.type.name = b.type.name ∧ (b.mode = .var → a.mode = .var) := by
  have hmode : (!(a.mode == .val && b.mode == .var)) = true ↔ (b.mode = .var → a.mode = .var) := by
    cases a.mode <;> cases b.mode <;> decide
  rw [Slot.assignableTo, Ty.assignableTo, Bool.and_eq_true, beq_iff_eq, hmode]

theorem Slot.assignableTo_refl (a : Slot Ty) : a.assignableTo a = true :=
  Slot.assignableTo_iff.2 ⟨rfl, id⟩

theorem Slot.assignableTo_trans {a b c : Slot Ty} (hab : a.assignableTo b = true)
    (hbc : b.assignableTo c = true) : a.assignableTo c = true := by
  rw [Slot.assignableTo_iff] at hab hbc ⊢
  exact ⟨hab.1.trans hbc.1, fun hc => hab.2 (hbc.2 hc)⟩

theorem Fit.refl (slots : List (Slot Ty)) : Fit slots slots :=
  List.forall₂_same.2 fun s _ => s.assignableTo_refl

theorem Fit.trans {as bs cs : List (Slot Ty)} (hab : Fit as bs) (hbc : Fit bs cs) : Fit as cs :=
  forall₂_trans (fun a b c => Slot.assignableTo_trans (a := a) (b := b) (c := c)) hab hbc

/-- Arguments fit when their types have the names of the parameters and no mode is in the way. -/
theorem fit_iff {arguments parameters : List (Slot Ty)} :
    Fit arguments parameters ↔
      List.Forall₂ (fun a p => a.type.name = p.type.name) arguments parameters ∧
        NoReadOnly arguments parameters := by
  unfold Fit NoReadOnly
  simp only [List.forall₂_iff_zip, Slot.assignableTo_iff]
  constructor
  · rintro ⟨hlength, hall⟩
    exact ⟨⟨hlength, fun h => (hall h).1⟩, fun pair hpair => (hall hpair).2⟩
  · rintro ⟨⟨hlength, hnames⟩, hmodes⟩
    exact ⟨hlength, fun {a p} h => ⟨hnames h, hmodes (a, p) h⟩⟩

namespace FnType

variable {f g : FnType} {arguments : List (Slot Ty)}

theorem accepts_iff_fit : f.accepts arguments = true ↔ Fit arguments f.parameters := by
  refine ⟨fit_of_accepts, fun h => ?_⟩
  obtain ⟨hlength, hall⟩ := List.forall₂_iff_zip.1 h
  unfold accepts
  rw [Bool.and_eq_true, beq_iff_eq, List.all_eq_true]
  exact ⟨hlength.symm, fun pair hpair => hall hpair⟩

/-- The parameters and the results of function types of the same name have the same names. -/
theorem forall₂_name_of_assignable (hf : f.type.Plain) (hg : g.type.Plain)
    (h : f.type.assignableTo g.type = true) :
    List.Forall₂ (fun p q => p.type.name = q.type.name) f.parameters g.parameters ∧
      f.result.name = g.result.name := by
  have hagrees := hf.agrees_spelled hg (beq_iff_eq.1 h)
  rw [show f.type.spelled = .function (Ty.spelledSlots f.parameters) f.result.spelled from rfl,
    show g.type.spelled = .function (Ty.spelledSlots g.parameters) g.result.spelled from rfl,
    Ty.spelledSlots_eq_map, Ty.spelledSlots_eq_map] at hagrees
  cases hagrees with
  | function hparameters hresult =>
    rw [List.forall₂_map_left_iff, List.forall₂_map_right_iff] at hparameters
    have hname (a b : Ty) (hab : a.spelled.Agrees b.spelled) : a.name = b.name := by
      rw [← a.name_spelled, hab.name_eq, b.name_spelled]
    exact ⟨hparameters.imp fun p q hpq => hname p.type q.type hpq, hname _ _ hresult⟩

section

variable (hnames : List.Forall₂ (fun p q => p.type.name = q.type.name) f.parameters g.parameters)
include hnames

/-- Of what `g` can be called with, `f` refuses only what can only be read and stands for a
`var`. -/
theorem accepts_iff_noReadOnly (h : g.accepts arguments = true) :
    f.accepts arguments = true ↔ NoReadOnly arguments f.parameters := by
  rw [accepts_iff_fit, fit_iff] at h ⊢
  have harguments : List.Forall₂ (fun a p => a.type.name = p.type.name) arguments f.parameters := by
    have htrans : ∀ a q p : Slot Ty, a.type.name = q.type.name → p.type.name = q.type.name →
        a.type.name = p.type.name := fun a q p haq hpq => haq.trans hpq.symm
    exact forall₂_trans htrans h.1 hnames.flip
  exact ⟨fun hfit => hfit.2, fun hmodes => ⟨harguments, hmodes⟩⟩

/-- All that `g` can be called with, `f` can be called with, exactly when no parameter of `g` that
can only be read faces a `var` of `f`. -/
theorem accepts_all_iff :
    (∀ arguments, g.accepts arguments = true → f.accepts arguments = true) ↔
      NoReadOnly g.parameters f.parameters := by
  -- the parameters of `g` are the arguments that are the hardest to take
  have hself : g.accepts g.parameters = true := accepts_iff_fit.2 (Fit.refl g.parameters)
  constructor
  · intro h
    exact (accepts_iff_noReadOnly hnames hself).1 (h g.parameters hself)
  · intro h arguments haccepts
    have hfit : Fit g.parameters f.parameters :=
      accepts_iff_fit.1 ((accepts_iff_noReadOnly hnames hself).2 h)
    exact accepts_iff_fit.2 ((accepts_iff_fit.1 haccepts).trans hfit)

end

end FnType

end Nominal
