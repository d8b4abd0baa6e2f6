import Nominal.Proofs.Syntax.Bare
import Nominal.Proofs.Syntax.Cut
import Nominal.Proofs.Ty.Reading

/-!
# Types as they are written

`Ty.written` is the type expression that names a type. Its text is the name of the type
(`Ty.text_written`), and where every name in the type is an identifier, the name of the type is
cut into the tokens that the type expression is written with (`Ty.Over.cuts`). A class may well be
named `Function`: only a parenthesis behind the word begins a function type.
-/

namespace Nominal

namespace Ty

mutual

/-- The type expression that names the type. It stands in no text. -/
def written : Ty → TypeExpr
  | primitive p => .named p.name .nowhere
  | function parameters result =>
    .function (writtenSlots parameters) result.written .nowhere
  | cls c => .named c.name .nowhere

/-- The type expression that names the type of a slot. -/
def writtenSlot : Slot Ty → TypeExpr
  | ⟨_, type⟩ => type.written

/-- The type expressions that name the types of a list of slots. -/
def writtenSlots : List (Slot Ty) → List TypeExpr
  | [] => []
  | s :: rest => writtenSlot s :: writtenSlots rest

end

theorem writtenSlots_eq_map (slots : List (Slot Ty)) :
    writtenSlots slots = slots.map fun s => s.type.written := by
  induction slots with
  | nil => rfl
  | cons s rest ih => cases s; simp [writtenSlots, writtenSlot, ih]

/-! ## The text of a written type -/

mutual

theorem text_written : ∀ a : Ty, a.written.text = a.name
  | primitive _ => rfl
  | function parameters result => by
    show functionName (TypeExpr.texts (writtenSlots parameters)) result.written.text =
      functionName (slotNames parameters) result.name
    rw [texts_written parameters, result.text_written]
  | cls _ => rfl

theorem text_writtenSlot : ∀ s : Slot Ty, (writtenSlot s).text = slotName s
  | ⟨_, type⟩ => type.text_written

theorem texts_written : ∀ slots : List (Slot Ty),
    TypeExpr.texts (writtenSlots slots) = slotNames slots
  | [] => rfl
  | s :: rest => by
    rw [writtenSlots, TypeExpr.texts, slotNames, text_writtenSlot s, texts_written rest]

end

end Ty

mutual

/-- The text of a type expression does not depend on where it stands. -/
theorem TypeExpr.text_bare : ∀ a : TypeExpr, a.bare.text = a.text
  | .named _ _ => rfl
  | .function parameters result _ => by
    show Ty.functionName (texts (eachBare parameters)) result.bare.text =
      Ty.functionName (texts parameters) result.text
    rw [TypeExpr.texts_eachBare parameters, result.text_bare]

theorem TypeExpr.texts_eachBare : ∀ as : List TypeExpr,
    TypeExpr.texts (TypeExpr.eachBare as) = TypeExpr.texts as
  | [] => rfl
  | a :: as => by
    rw [TypeExpr.eachBare, TypeExpr.texts, TypeExpr.texts, a.text_bare,
      TypeExpr.texts_eachBare as]

end

namespace Ty

mutual

/-- A type as it is written by its name has no places. -/
theorem bare_written : ∀ a : Ty, a.written.bare = a.written
  | primitive _ => rfl
  | function parameters result => by
    rw [written, TypeExpr.bare, eachBare_written parameters, result.bare_written]
  | cls _ => rfl

theorem bare_writtenSlot : ∀ s : Slot Ty, (writtenSlot s).bare = writtenSlot s
  | ⟨_, type⟩ => type.bare_written

theorem eachBare_written : ∀ slots : List (Slot Ty),
    TypeExpr.eachBare (writtenSlots slots) = writtenSlots slots
  | [] => rfl
  | s :: rest => by
    rw [writtenSlots, TypeExpr.eachBare, bare_writtenSlot s, eachBare_written rest]

end

/-! ## The tokens of a name -/

open Lexeme Piece

variable {P : Ty → Prop} {a : Ty} {parameters : List (Slot Ty)}

theorem pieces_written_function (parameters : List (Slot Ty)) (result : Ty) :
    (function parameters result).written.pieces =
      .token .identifier "Function" ::
        parenthesised (parameters.map fun p => p.type.written.pieces) ++
          .mark .arrow :: result.written.pieces := by
  rw [written, TypeExpr.pieces, TypeExpr.eachPieces_eq, writtenSlots_eq_map, List.map_map]
  rfl

/-- The parameters after the first one, as pieces. -/
def laterPieces (parameters : List (Slot Ty)) : List Piece :=
  parameters.flatMap fun p => .mark .comma :: p.type.written.pieces

theorem nameEnds_laterNames (rest : List (Slot Ty)) {after : List Char} (hafter : NameEnds after) :
    NameEnds (laterNames rest ++ after) := by
  cases rest with
  | nil => exact hafter
  | cons p rest =>
    rintro c ⟨⟩
    decide

/-- The name of a type begins with the first character of an identifier. -/
theorem Over.exists_cons_name (h : a.Over fun leaf => IsIdentifier leaf.name) :
    ∃ first rest, a.name.toList = first :: rest ∧ isBlank first = false := by
  have hleaf {name : String} (hname : IsIdentifier name) :
      ∃ first rest, name.toList = first :: rest ∧ isBlank first = false := by
    obtain ⟨c, rest, hcons, hstart⟩ := hname.exists_cons
    exact ⟨c, rest, hcons, isBlank_of_isWordStart hstart⟩
  cases h with
  | primitive h => exact hleaf h
  | cls h => exact hleaf h
  | function _ _ => exact ⟨'F', _, toList_name_function _ _, by decide⟩

theorem cuts_laterNames (hleaves : ∀ p ∈ parameters, p.type.Over fun leaf => IsIdentifier leaf.name)
    (hcuts : ∀ p ∈ parameters, Cuts p.type.name.toList p.type.written.pieces NameEnds) :
    Cuts (laterNames parameters) (laterPieces parameters) NameEnds := by
  induction parameters with
  | nil => exact .nil
  | cons p rest ih =>
    rw [List.forall_mem_cons] at hleaves hcuts
    have hcomma : Cuts ",".toList [.mark .comma] fun _ => True := cuts_mark (by simp)
    have hname := hcuts.1.space hleaves.1.exists_cons_name
    have hstep := (hcomma.append hname fun _ _ => trivial).append (ih hleaves.2 hcuts.2)
      fun _ => nameEnds_laterNames rest
    simpa [laterNames, laterPieces] using hstep

theorem cuts_parameters
    (hleaves : ∀ p ∈ parameters, p.type.Over fun leaf => IsIdentifier leaf.name)
    (hcuts : ∀ p ∈ parameters, Cuts p.type.name.toList p.type.written.pieces NameEnds) :
    Cuts ('(' :: (parameterNames parameters ++ [')']))
      (parenthesised (parameters.map fun p => p.type.written.pieces)) fun _ => True := by
  have hopen : Cuts "(".toList [.mark .openParen] fun _ => True := cuts_mark (by simp)
  have hclose : Cuts ")".toList [.mark .closeParen] fun _ => True := cuts_mark (by simp)
  have hnames : Cuts (parameterNames parameters)
      (List.intercalate [.mark .comma] (parameters.map fun p => p.type.written.pieces))
      NameEnds := by
    cases parameters with
    | nil => exact .nil
    | cons p rest =>
      rw [List.forall_mem_cons] at hleaves hcuts
      rw [List.map_cons, intercalate_cons, List.flatMap_map]
      exact hcuts.1.append (cuts_laterNames hleaves.2 hcuts.2) fun _ => nameEnds_laterNames rest
  have hinside := hnames.append hclose fun after _ => by
    rintro c ⟨⟩
    decide
  exact hopen.append hinside fun _ _ => trivial

/-- The name of a type is cut into the tokens that the type is written with, unless a name goes on
behind it. -/
theorem Over.cuts (h : a.Over fun leaf => IsIdentifier leaf.name) :
    Cuts a.name.toList a.written.pieces NameEnds := by
  induction h with
  | primitive h => exact cuts_identifier h
  | cls h => exact cuts_identifier h
  | @function parameters result hparameters hresult ihparameters ihresult =>
    have hword : Cuts "Function".toList [.token .identifier "Function"] NameEnds :=
      cuts_identifier (by decide)
    have hhead := hword.append (cuts_parameters hparameters ihparameters) fun after _ => by
      rintro c ⟨⟩
      decide
    have harrow : Cuts "->".toList [.mark .arrow] fun _ => True := cuts_mark (by simp)
    have hafter := harrow.append (ihresult.space hresult.exists_cons_name) fun _ _ => trivial
    have htail := hafter.space ⟨'-', _, rfl, by decide⟩
    have hall := hhead.append htail fun _ _ => trivial
    rw [toList_name_function, pieces_written_function]
    simpa using hall

end Ty

end Nominal
