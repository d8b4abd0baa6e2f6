import Mathlib.Data.List.Forall2
import Nominal.Ty.Signature

/-!
# Reading the names of types

The name of a type is its spelling, and types are compared by it. A spelling can be read in one way
only, as long as the names in it hold neither parentheses nor commas and each of them belongs to one
type: then types of the same name agree in everything but the modes of their parameters
(`Ty.Over.agrees`).
-/

namespace Nominal

namespace Ty

/-- Every primitive type and every class that stands in a type has the property `P`. -/
inductive Over (P : Ty → Prop) : Ty → Prop
  | primitive {p : Primitive} (h : P (.primitive p)) : Over P (.primitive p)
  | cls {c : ClassRef} (h : P (.cls c)) : Over P (.cls c)
  | function {parameters : List (Slot Ty)} {result : Ty}
    (hparameters : ∀ p ∈ parameters, Over P p.type) (hresult : Over P result) :
    Over P (.function parameters result)

/-- The types are the same but for the modes of parameters. In particular, the classes that stand at
the same place of both are the same. -/
inductive Agrees : Ty → Ty → Prop
  | primitive (p : Primitive) : Agrees (.primitive p) (.primitive p)
  | cls (c : ClassRef) : Agrees (.cls c) (.cls c)
  | function {parameters parameters' : List (Slot Ty)} {result result' : Ty}
    (hparameters : List.Forall₂ (fun p q => Agrees p.type q.type) parameters parameters')
    (hresult : Agrees result result') :
    Agrees (.function parameters result) (.function parameters' result')

variable {P Q : Ty → Prop} {a b : Ty} {parameters parameters' : List (Slot Ty)} {result : Ty}

theorem Over.mono (h : a.Over P) (hPQ : ∀ t, P t → Q t) : a.Over Q := by
  induction h with
  | primitive h => exact .primitive (hPQ _ h)
  | cls h => exact .cls (hPQ _ h)
  | function _ _ ihparameters ihresult => exact .function ihparameters ihresult

theorem over_cls {c : ClassRef} : (cls c).Over P ↔ P (cls c) :=
  ⟨fun h => by cases h; assumption, .cls⟩

theorem over_function :
    (function parameters result).Over P ↔ (∀ p ∈ parameters, p.type.Over P) ∧ result.Over P :=
  ⟨fun h => by cases h; exact ⟨‹_›, ‹_›⟩, fun h => .function h.1 h.2⟩

/-! ## Spellings -/

/-- Whether `c` can not stand in the name of a class. -/
def isMark (c : Char) : Bool :=
  c = '(' || c = ')' || c = ','

/-- The name is not empty, and no mark stands in it. -/
def IsPlain (name : String) : Prop :=
  name.toList ≠ [] ∧ ∀ c ∈ name.toList, isMark c = false

/-- A type can end before `cs`: there nothing follows, or the next parameter, or what comes after
the last one. -/
def Ends (cs : List Char) : Prop :=
  ∀ c ∈ cs.head?, c = ',' ∨ c = ')'

/-- Text without marks ends at the first mark. -/
theorem eq_of_append_eq {xs ys x y : List Char} (hxs : ∀ c ∈ xs, isMark c = false)
    (hys : ∀ c ∈ ys, isMark c = false) (hx : ∀ c ∈ x.head?, isMark c = true)
    (hy : ∀ c ∈ y.head?, isMark c = true) (h : xs ++ x = ys ++ y) : xs = ys ∧ x = y := by
  induction xs generalizing ys with
  | nil =>
    cases ys with
    | nil => exact ⟨rfl, h⟩
    | cons d ys =>
      rw [List.nil_append] at h
      subst h
      have hmark := hx d rfl
      rw [hys d List.mem_cons_self] at hmark
      cases hmark
  | cons c xs ih =>
    cases ys with
    | nil =>
      rw [List.nil_append] at h
      subst h
      have hmark := hy c rfl
      rw [hxs c List.mem_cons_self] at hmark
      cases hmark
    | cons d ys =>
      obtain ⟨rfl, hrest⟩ := List.cons.inj h
      rw [List.forall_mem_cons] at hxs hys
      obtain ⟨rfl, hxy⟩ := ih hxs.2 hys.2 hrest
      exact ⟨rfl, hxy⟩

theorem Ends.isMark {cs : List Char} (h : Ends cs) : ∀ c ∈ cs.head?, isMark c = true := by
  intro c hc
  obtain rfl | rfl := h c hc
  · rfl
  · rfl

/-- The parameters after the first one, as they stand in the name of a function type. -/
def laterNames (parameters : List (Slot Ty)) : List Char :=
  parameters.flatMap fun p => ',' :: ' ' :: p.type.name.toList

/-- The parameters as they stand in the name of a function type. -/
def parameterNames : List (Slot Ty) → List Char
  | [] => []
  | p :: rest => p.type.name.toList ++ laterNames rest

/-- Lists with a separator between them: the first one, and the others with it before each. -/
theorem intercalate_cons {α : Type} (separator first : List α) (more : List (List α)) :
    List.intercalate separator (first :: more) = first ++ more.flatMap (separator ++ ·) := by
  induction more generalizing first with
  | nil => simp
  | cons second more ih =>
    rw [List.intercalate_cons_cons, ih second, List.flatMap_cons]
    simp

theorem toList_intercalate_eq (parameters : List (Slot Ty)) :
    (", ".intercalate (slotNames parameters)).toList = parameterNames parameters := by
  rw [slotNames_eq_map, String.toList_intercalate, List.map_map]
  have hseparator : ", ".toList = [',', ' '] := rfl
  rw [hseparator]
  cases parameters with
  | nil => rfl
  | cons p rest =>
    rw [List.map_cons, intercalate_cons]
    simp [parameterNames, laterNames, List.flatMap_map]

/-- The name of a function type, mark by mark. -/
theorem toList_name_function (parameters : List (Slot Ty)) (result : Ty) :
    (function parameters result).name.toList =
      "Function".toList ++
        '(' :: (parameterNames parameters ++ ')' :: (" -> ".toList ++ result.name.toList)) := by
  show (functionName (slotNames parameters) result.name).toList = _
  unfold functionName
  simp only [String.toList_append, toList_intercalate_eq, toString]
  simp

/-- No mark stands in the word that the name of a function type begins with. -/
theorem isMark_of_mem_function : ∀ c ∈ "Function".toList, isMark c = false := by
  simp [isMark]

/-! ## Reading -/

/-- Whatever follows it, the name of `a` can only be read as that of a type that agrees with `a`. -/
def Reads (P : Ty → Prop) (a : Ty) : Prop :=
  ∀ b : Ty, b.Over P → ∀ x y : List Char, Ends x → Ends y →
    a.name.toList ++ x = b.name.toList ++ y → a.Agrees b ∧ x = y

theorem ends_laterNames (parameters : List (Slot Ty)) (x : List Char) :
    Ends (laterNames parameters ++ ')' :: x) := by
  intro c hc
  cases parameters with
  | nil =>
    cases hc
    exact .inr rfl
  | cons p rest =>
    cases hc
    exact .inl rfl

/-- Parameters after the first one, each of which can be read. -/
theorem read_laterNames (hreads : ∀ p ∈ parameters, Reads P p.type)
    (hover : ∀ p ∈ parameters', p.type.Over P) {x y : List Char}
    (h : laterNames parameters ++ ')' :: x = laterNames parameters' ++ ')' :: y) :
    List.Forall₂ (fun p q => Agrees p.type q.type) parameters parameters' ∧ x = y := by
  induction parameters generalizing parameters' with
  | nil =>
    cases parameters' with
    | nil => exact ⟨.nil, (List.cons.inj h).2⟩
    | cons q rest' => cases h
  | cons p rest ih =>
    cases parameters' with
    | nil => cases h
    | cons q rest' =>
      rw [List.forall_mem_cons] at hreads hover
      have hstep : p.type.name.toList ++ (laterNames rest ++ ')' :: x) =
          q.type.name.toList ++ (laterNames rest' ++ ')' :: y) := by
        simpa [laterNames] using h
      obtain ⟨hfirst, hlater⟩ := hreads.1 q.type hover.1 _ _ (ends_laterNames rest x)
        (ends_laterNames rest' y) hstep
      obtain ⟨hrest, hxy⟩ := ih hreads.2 hover.2 hlater
      exact ⟨.cons hfirst hrest, hxy⟩

section

variable (hplain : ∀ t, P t → IsPlain t.name)
include hplain

/-- The name of a type that is made of plain names begins with a character of a name. -/
theorem Over.head_name (h : a.Over P) : ∃ c rest, a.name.toList = c :: rest ∧ isMark c = false := by
  have hfirst (t : Ty) (ht : P t) : ∃ c rest, t.name.toList = c :: rest ∧ isMark c = false := by
    obtain ⟨hne, hmarks⟩ := hplain t ht
    obtain ⟨c, rest, hname⟩ := List.exists_cons_of_ne_nil hne
    exact ⟨c, rest, hname, hmarks c (hname ▸ List.mem_cons_self)⟩
  cases h with
  | primitive h => exact hfirst _ h
  | cls h => exact hfirst _ h
  | function hparameters hresult =>
    rw [toList_name_function]
    exact ⟨'F', _, rfl, rfl⟩

theorem read_parameterNames (hreads : ∀ p ∈ parameters, Reads P p.type)
    (hover : ∀ p ∈ parameters, p.type.Over P) (hover' : ∀ p ∈ parameters', p.type.Over P)
    {x y : List Char}
    (h : parameterNames parameters ++ ')' :: x = parameterNames parameters' ++ ')' :: y) :
    List.Forall₂ (fun p q => Agrees p.type q.type) parameters parameters' ∧ x = y := by
  -- an empty list of parameters ends at once, and no name begins like that
  have hends (p : Slot Ty) (hp : p.type.Over P) (x y : List Char) :
      ')' :: x ≠ p.type.name.toList ++ y := by
    obtain ⟨c, rest, hname, hmark⟩ := hp.head_name hplain
    rw [hname]
    rintro heq
    obtain ⟨rfl, -⟩ := List.cons.inj heq
    cases hmark
  cases parameters with
  | nil =>
    cases parameters' with
    | nil => exact ⟨.nil, (List.cons.inj h).2⟩
    | cons q rest' =>
      rw [parameterNames, parameterNames, List.append_assoc] at h
      exact absurd h (hends q (hover' q List.mem_cons_self) _ _)
  | cons p rest =>
    cases parameters' with
    | nil =>
      rw [parameterNames, parameterNames, List.append_assoc] at h
      exact absurd h.symm (hends p (hover p List.mem_cons_self) _ _)
    | cons q rest' =>
      rw [List.forall_mem_cons] at hreads hover'
      rw [parameterNames, parameterNames, List.append_assoc, List.append_assoc] at h
      obtain ⟨hfirst, hlater⟩ := hreads.1 q.type hover'.1 _ _ (ends_laterNames rest x)
        (ends_laterNames rest' y) h
      obtain ⟨hrest, hxy⟩ := read_laterNames hreads.2 hover'.2 hlater
      exact ⟨.cons hfirst hrest, hxy⟩

variable (hnames : ∀ t u, P t → P u → t.name = u.name → t = u)
include hnames

/-- A plain name can only be read as itself. -/
theorem reads_of_plain (ha : P a) (hagrees : a.Agrees a) : Reads P a := by
  intro b hb x y hx hy h
  have hmarks := (hplain a ha).2
  have hsame (hb : P b) : a.Agrees b ∧ x = y := by
    have hmarks' := (hplain b hb).2
    obtain ⟨hname, hxy⟩ := eq_of_append_eq hmarks hmarks' hx.isMark hy.isMark h
    obtain rfl := hnames a b ha hb (String.toList_inj.1 hname)
    exact ⟨hagrees, hxy⟩
  cases hb with
  | primitive hb => exact hsame hb
  | cls hb => exact hsame hb
  | function hparameters hresult =>
    -- the name of a function type goes on with a parenthesis, which can not follow a type
    rw [toList_name_function, List.append_assoc] at h
    obtain ⟨-, rfl⟩ := eq_of_append_eq hmarks isMark_of_mem_function hx.isMark
      (by rintro c ⟨⟩; rfl) h
    rcases hx '(' rfl with hcomma | hclose
    · cases hcomma
    · cases hclose

theorem Over.reads (ha : a.Over P) : Reads P a := by
  induction ha with
  | primitive h => exact reads_of_plain hplain hnames h (.primitive _)
  | cls h => exact reads_of_plain hplain hnames h (.cls _)
  | @function parameters result hparameters hresult ihparameters ihresult =>
    intro b hb x y hx hy h
    have hplainly (hb : P b) : (Ty.function parameters result).Agrees b ∧ x = y := by
      rw [toList_name_function, List.append_assoc] at h
      obtain ⟨-, heq⟩ := eq_of_append_eq isMark_of_mem_function (hplain b hb).2
        (by rintro c ⟨⟩; rfl) hy.isMark h
      rw [← heq] at hy
      rcases hy '(' rfl with hcomma | hclose
      · cases hcomma
      · cases hclose
    cases hb with
    | primitive hb => exact hplainly hb
    | cls hb => exact hplainly hb
    | @function parameters' result' hparameters' hresult' =>
      rw [toList_name_function, toList_name_function] at h
      simp only [List.append_assoc, List.cons_append, List.append_cancel_left_eq,
        List.cons.injEq, true_and] at h
      obtain ⟨hall, hrest⟩ := read_parameterNames hplain ihparameters hparameters hparameters' h
      rw [List.append_cancel_left_eq] at hrest
      obtain ⟨hresults, hxy⟩ := ihresult result' hresult' x y hx hy hrest
      exact ⟨.function hall hresults, hxy⟩

/-- Types whose names are the same agree. -/
theorem Over.agrees (ha : a.Over P) (hb : b.Over P) (h : a.name = b.name) : a.Agrees b := by
  have hreads := ha.reads hplain hnames
  exact (hreads b hb [] [] (fun c hc => nomatch hc) (fun c hc => nomatch hc) (by rw [h])).1

end

end Ty

end Nominal
