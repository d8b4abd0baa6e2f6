import Nominal.Proofs.Syntax.Layout

/-!
# Stretches of tokens

A span covers a stretch of tokens when it reaches from the start of the first one to the end of the
last one (`Span.Covers`). Every span that a tree keeps, however deep in the tree, covers a stretch of
the tokens that the tree stands on (`Layout.On.all_covers`). A span that covers a stretch of other
tokens is inside a span that covers them all (`Span.Covers.inside`), and stretches one after the
other have spans one after the other (`Span.Covers.before`).
-/

namespace Nominal

namespace Layout

mutual

/-- Every span in the layout is a `place`. -/
def All (place : Span → Prop) : Layout → Prop
  | .piece _ => True
  | .word _ span => place span
  | .node span parts => place span ∧ AllParts place parts

def AllParts (place : Span → Prop) : List Layout → Prop
  | [] => True
  | l :: ls => l.All place ∧ AllParts place ls

end

variable {place : Span → Prop}

@[simp] theorem all_piece (p : Piece) : (piece p).All place ↔ True :=
  Iff.rfl

@[simp] theorem all_word (p : Piece) (span : Span) : (word p span).All place ↔ place span :=
  Iff.rfl

@[simp] theorem all_node (span : Span) (parts : List Layout) :
    (node span parts).All place ↔ place span ∧ AllParts place parts :=
  Iff.rfl

@[simp] theorem allParts_nil : AllParts place [] ↔ True :=
  Iff.rfl

@[simp] theorem allParts_cons (l : Layout) (ls : List Layout) :
    AllParts place (l :: ls) ↔ l.All place ∧ AllParts place ls :=
  Iff.rfl

mutual

theorem all_of_forall (h : ∀ s, place s) : ∀ l : Layout, l.All place
  | .piece _ => trivial
  | .word _ span => h span
  | .node span parts => ⟨h span, allParts_of_forall h parts⟩

theorem allParts_of_forall (h : ∀ s, place s) : ∀ ls : List Layout, AllParts place ls
  | [] => trivial
  | l :: ls => ⟨all_of_forall h l, allParts_of_forall h ls⟩

end

theorem allParts_iff (ls : List Layout) : AllParts place ls ↔ ∀ l ∈ ls, l.All place := by
  induction ls with
  | nil => simp
  | cons l ls ih => simp [ih]

@[simp] theorem allParts_append (ls ms : List Layout) :
    AllParts place (ls ++ ms) ↔ AllParts place ls ∧ AllParts place ms := by
  simp only [allParts_iff, List.forall_mem_append]

@[simp] theorem allParts_map {α : Type} (f : α → Layout) (as : List α) :
    AllParts place (as.map f) ↔ ∀ a ∈ as, (f a).All place := by
  simp [allParts_iff]

/-- Marks between and around layouts have no span. -/
@[simp] theorem allParts_parenthesised (items : List Layout) :
    AllParts place (parenthesised items) ↔ AllParts place items := by
  have hitems : AllParts place (items.intersperse (piece (.mark .comma))) ↔
      AllParts place items := by
    induction items with
    | nil => rfl
    | cons l ls ih =>
      cases ls with
      | nil => rfl
      | cons m ls => simpa using fun _ => ih
  simp [parenthesised, hitems]

@[simp] theorem allParts_braced (statements : List Layout) :
    AllParts place (braced statements) ↔ AllParts place statements := by
  simp [braced]

@[simp] theorem allParts_after (kind : Kind) (l? : Option Layout) :
    AllParts place (after kind l?) ↔ ∀ l ∈ l?, l.All place := by
  cases l? <;> simp [after]

@[simp] theorem allParts_classLayouts (parameters : List Parameter) :
    AllParts place (Parameter.classLayouts parameters) ↔
      ∀ p ∈ parameters, p.layout.All place := by
  cases parameters <;> simp [Parameter.classLayouts]

@[simp] theorem allParts_layoutsWith (parameters : List Parameter) (result? : Option TypeExpr)
    (body : Layout) :
    AllParts place (Signature.layoutsWith parameters result? body) ↔
      (∀ p ∈ parameters, p.layout.All place) ∧ (∀ t ∈ result?, t.layout.All place) ∧
        body.All place := by
  cases result? <;> simp [Signature.layoutsWith]

end Layout

/-! ## Covered stretches -/

/-- The span reaches from the start of the first token to the end of the last one. -/
def Span.Covers (s : Span) (ts : List Token) : Prop :=
  ∃ first last, ts.head? = some first ∧ ts.getLast? = some last ∧
    s = ⟨first.span.start, last.span.stop⟩

theorem Token.InOrder.sublist {ts us : List Token} (h : InOrder us) (hpart : ts.Sublist us) :
    InOrder ts :=
  ⟨fun t ht => h.forward t (hpart.subset ht), h.ordered.sublist hpart⟩

namespace Span.Covers

variable {s s' : Span} {ts us : List Token}

theorem ends (h : s.Covers ts) :
    ∃ first ∈ ts, ∃ last ∈ ts, s.start = first.span.start ∧ s.stop = last.span.stop := by
  obtain ⟨first, last, hfirst, hlast, rfl⟩ := h
  exact ⟨first, List.mem_of_head? hfirst, last, List.mem_of_getLast? hlast, rfl, rfl⟩

/-- What covers some of the tokens is inside of what covers them all. -/
theorem inside (h : s.Covers ts) (horder : Token.InOrder ts) (h' : s'.Covers us)
    (hpart : us <:+: ts) : s'.Inside s := by
  obtain ⟨first, last, hfirst, hlast, rfl⟩ := h
  obtain ⟨first', hfirst', last', hlast', hstart, hstop⟩ := h'.ends
  constructor
  · rw [hstart]
    exact horder.head_le hfirst (hpart.subset hfirst')
  · rw [hstop]
    exact horder.le_last hlast (hpart.subset hlast')

theorem before (h : s.Covers ts) (h' : s'.Covers us)
    (horder : ∀ t ∈ ts, ∀ u ∈ us, t.span.Before u.span) : s.Before s' := by
  obtain ⟨-, -, last, hlast, -, hstop⟩ := h.ends
  obtain ⟨first, hfirst, -, -, hstart, -⟩ := h'.ends
  rw [Span.Before, hstop, hstart]
  exact horder last hlast first hfirst

/-- A stretch of tokens that come one after the other has its start before its stop. -/
theorem forward (h : s.Covers ts) (horder : Token.InOrder ts) : s.start.offset ≤ s.stop.offset := by
  obtain ⟨first, last, hfirst, hlast, rfl⟩ := h
  have hmem := List.mem_of_getLast? hlast
  exact UInt32.le_trans (horder.head_le hfirst hmem) (horder.forward last hmem)

end Span.Covers

namespace Layout

variable {l : Layout} {ls : List Layout} {ts : List Token}

theorem On.covers (h : l.On ts) {s : Span} (hs : s ∈ l.span?) : s.Covers ts := by
  cases h with
  | piece => cases hs
  | @word p t =>
    obtain rfl := Option.some.inj hs
    exact ⟨t, t, rfl, rfl, rfl⟩
  | @node parts ts first last hparts hfirst hlast =>
    obtain rfl := Option.some.inj hs
    exact ⟨first, last, hfirst, hlast, rfl⟩

/-- Layouts on consecutive tokens stand on one stretch after the other. -/
theorem AllOn.exists_parts {α : Type} {layout : α → Layout} : ∀ {as : List α} {ts : List Token},
    AllOn (as.map layout) ts → ∃ parts : List (α × List Token), parts.map Prod.fst = as ∧
      (parts.map Prod.snd).flatten = ts ∧ ∀ part ∈ parts, (layout part.1).On part.2
  | [], _, .nil => ⟨[], rfl, rfl, fun _ h => nomatch h⟩
  | a :: as, _, @AllOn.cons _ _ ts _ hfirst hrest => by
    obtain ⟨parts, rfl, rfl, hparts⟩ := hrest.exists_parts
    exact ⟨(a, ts) :: parts, rfl, rfl, List.forall_mem_cons.2 ⟨hfirst, hparts⟩⟩

mutual

/-- Every span in a layout covers some of the tokens that the layout stands on. -/
theorem On.all_covers : ∀ {l : Layout} {ts us : List Token}, l.On ts → ts <:+: us →
    l.All fun s => ∃ part, part <:+: us ∧ s.Covers part
  | _, _, _, .piece _, _ => trivial
  | _, _, _, .word hp, hpart => ⟨_, hpart, (On.word hp).covers rfl⟩
  | _, _, _, .node hparts hfirst hlast, hpart =>
    ⟨⟨_, hpart, (On.node hparts hfirst hlast).covers rfl⟩, hparts.all_covers hpart⟩

theorem AllOn.all_covers : ∀ {ls : List Layout} {ts us : List Token}, AllOn ls ts → ts <:+: us →
    AllParts (fun s => ∃ part, part <:+: us ∧ s.Covers part) ls
  | _, _, _, .nil, _ => trivial
  | _, _, _, .cons hl hls, hpart => by
    have hfirst := (List.prefix_append _ _).isInfix.trans hpart
    have hrest := (List.suffix_append _ _).isInfix.trans hpart
    exact ⟨hl.all_covers hfirst, hls.all_covers hrest⟩

end

end Layout

end Nominal
