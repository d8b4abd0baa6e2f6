import Nominal.Proofs.Syntax.Complete.Statements
import Nominal.Proofs.Syntax.Parsed
import Nominal.Proofs.Ty.Written
import Nominal.Proofs.Ty.Assignable
import Nominal.Scope.Chain
import Nominal.Syntax.Reader
import Nominal.Typing.Types

/-!
# The name of a type denotes the type

The name of a type can be written in a program, where it denotes the type again, but for the modes of
parameters, which no annotation writes down (`Ty.readOnly`). This needs a scope in which the name of
each primitive type and each class in the type denotes it, and parameters of types that have values
(`Ty.Writable`). It follows that in one scope types of the same name are the same up to modes
(`typeNames_faithful`).
-/

namespace Nominal

/-- The name of the type is an identifier, and denotes the type in the scope. -/
def Scope.Denotes (scope : Scope) (t : Ty) : Prop :=
  IsIdentifier t.name ∧ scope.findType? t.name = some t

/-- An identifier is a plain name. -/
theorem IsIdentifier.isPlain {name : String} (h : IsIdentifier name) : Ty.IsPlain name := by
  obtain ⟨c, rest, hcons, -⟩ := h.exists_cons
  refine ⟨by simp [hcons], fun d hd => ?_⟩
  have hpart := h.isNamePart d hd
  cases hmark : Ty.isMark d with
  | false => rfl
  | true =>
    simp only [Ty.isMark, Bool.or_eq_true, decide_eq_true_eq] at hmark
    rcases hmark with (rfl | rfl) | rfl
    all_goals exact absurd hpart (by decide)

namespace Ty

mutual

/-- The type in which all parameters can only be read. -/
def readOnly : Ty → Ty
  | primitive p => primitive p
  | function parameters result => function (readOnlySlots parameters) result.readOnly
  | cls c => cls c

/-- The slot of such a type that can only be read. -/
def readOnlySlot : Slot Ty → Slot Ty
  | ⟨_, type⟩ => ⟨.val, type.readOnly⟩

/-- The slots of such types that can only be read. -/
def readOnlySlots : List (Slot Ty) → List (Slot Ty)
  | [] => []
  | s :: rest => readOnlySlot s :: readOnlySlots rest

end

/-- The type can be written in the scope by its name: the names of the primitive types and classes in
it denote them, and its parameters are of types that have values. -/
inductive Writable (scope : Scope) : Ty → Prop
  | primitive {p : Primitive} (h : scope.Denotes (.primitive p)) : Writable scope (.primitive p)
  | cls {c : ClassRef} (h : scope.Denotes (.cls c)) : Writable scope (.cls c)
  | function {parameters : List (Slot Ty)} {result : Ty}
    (hvalues : ∀ p ∈ parameters, p.type.hasValues = true)
    (hparameters : ∀ p ∈ parameters, Writable scope p.type) (hresult : Writable scope result) :
    Writable scope (.function parameters result)

variable {scope : Scope} {a b : Ty}

theorem Writable.leaves (h : a.Writable scope) : a.Over scope.Denotes := by
  induction h with
  | primitive h => exact .primitive h
  | cls h => exact .cls h
  | function _ _ _ ihparameters ihresult => exact .function ihparameters ihresult

theorem hasValues_readOnly (a : Ty) : a.readOnly.hasValues = a.hasValues := by
  cases a <;> rfl

/-! ## What agrees with a type -/

mutual

/-- A type stays the same up to modes when its parameters become read-only. -/
theorem agrees_readOnly : ∀ a : Ty, a.Agrees a.readOnly
  | primitive p => .primitive p
  | function parameters result =>
    .function (forall₂_agrees_readOnlySlots parameters) result.agrees_readOnly
  | cls c => .cls c

theorem agrees_readOnlySlot : ∀ s : Slot Ty, s.type.Agrees (readOnlySlot s).type
  | ⟨_, type⟩ => type.agrees_readOnly

theorem forall₂_agrees_readOnlySlots : ∀ slots : List (Slot Ty),
    List.Forall₂ (fun p q => Agrees p.type q.type) slots (readOnlySlots slots)
  | [] => .nil
  | s :: rest => .cons (agrees_readOnlySlot s) (forall₂_agrees_readOnlySlots rest)

end

/-- In one scope, types whose names are the same agree. -/
theorem Writable.agrees (ha : a.Writable scope) (hb : b.Writable scope) (h : a.name = b.name) :
    a.Agrees b := by
  refine ha.leaves.agrees (fun leaf hleaf => hleaf.1.isPlain) ?_ hb.leaves h
  rintro leaf leaf' ⟨-, hfound⟩ ⟨-, hfound'⟩ hname
  rw [hname] at hfound
  exact Option.some.inj (hfound.symm.trans hfound')

end Ty

/-! ## Reading the name -/

namespace Scope

variable {scope : Scope} {a : Ty} {t : TypeExpr}

theorem resolve_named {name : String} {span : Span} {type : Ty}
    (h : scope.findType? name = some type) : scope.resolve (.named name span) = .ok type := by
  rw [resolve, h]

/-- Parameters denote slots that can only be read, if each denotes a type that has values. -/
theorem resolveParameters_of_bare {parameters : List (Slot Ty)} {ts : List TypeExpr}
    (hvalues : ∀ p ∈ parameters, p.type.hasValues = true)
    (hresolve : ∀ p ∈ parameters, ∀ t : TypeExpr, t.bare = p.type.written →
      scope.resolve t = .ok p.type.readOnly)
    (hts : TypeExpr.eachBare ts = Ty.writtenSlots parameters) :
    scope.resolveParameters ts = .ok (Ty.readOnlySlots parameters) := by
  induction parameters generalizing ts with
  | nil =>
    cases ts with
    | nil => rfl
    | cons t ts => cases hts
  | cons p rest ih =>
    cases ts with
    | nil => cases hts
    | cons t ts =>
      obtain ⟨mode, type⟩ := p
      rw [List.forall_mem_cons] at hvalues hresolve
      obtain ⟨ht, hmore⟩ := List.cons.inj hts
      have htype : scope.resolve t = .ok type.readOnly := hresolve.1 t ht
      have hlater := ih hvalues.2 hresolve.2 hmore
      have hhas : t.valueType type.readOnly = .ok type.readOnly := by
        rw [TypeExpr.valueType, Ty.hasValues_readOnly, if_pos hvalues.1]
      rw [resolveParameters, htype, hlater]
      show (t.valueType type.readOnly >>= fun type => _) = _
      rw [hhas]
      rfl

/-- Wherever it is written, a type denotes itself. -/
theorem resolve_of_bare (h : a.Writable scope) (ht : t.bare = a.written) :
    scope.resolve t = .ok a.readOnly := by
  induction h generalizing t with
  | primitive h =>
    cases t with
    | named name span =>
      obtain ⟨rfl, -⟩ := TypeExpr.named.inj ht
      exact resolve_named h.2
    | function => cases ht
  | cls h =>
    cases t with
    | named name span =>
      obtain ⟨rfl, -⟩ := TypeExpr.named.inj ht
      exact resolve_named h.2
    | function => cases ht
  | @function parameters result hvalues _ _ ihparameters ihresult =>
    cases t with
    | named => cases ht
    | function ts r span =>
      obtain ⟨hts, hr, -⟩ := TypeExpr.function.inj ht
      have hslots := resolveParameters_of_bare hvalues
        (fun p hp t ht => ihparameters p hp ht) hts
      rw [resolve, hslots, ihresult hr]
      rfl

end Scope

/-- From any tokens that it is written with, a type expression is read back up to places, under any
limit that has room for it. -/
theorem Reader.type_complete {a : TypeExpr} {ts : List Token} {last : Token} {limit : Nat}
    (hspelling : Piece.Spelling a.pieces ts) (hlast : last.kind = .eof) (hnesting : a.nesting ≤ limit)
    (file : String) :
    let reader := Reader.ofTokens .standard file limit (ts ++ [last])
    let outcome := reader.run reader.inner.type
    ∃ parsed, outcome.1 = .ok parsed ∧ outcome.2.stream.kind = .eof ∧ parsed.bare = a.bare := by
  intro reader outcome
  have hall : Piece.Through a.pieces reader.stream.remaining [last] :=
    ⟨by simp, ts, hspelling, TokenStream.remaining_ofTokens_append file ts hlast⟩
  have hfollow : Token.firstKind [last] ≠ .openParen := by
    rw [show Token.firstKind [last] = .eof from hlast]
    decide
  obtain ⟨parsed, stream, hrun, hremaining, hbare⟩ :=
    ((Grammar.inner_complete limit limit).type a hnesting reader.stream [last] hall hfollow).exists_ok
  have houtcome : outcome = (.ok parsed, { reader with stream }) := by
    show reader.run (Grammar.standard.inner limit limit).type = _
    rw [Reader.run, hrun]
  rw [houtcome]
  refine ⟨parsed, rfl, ?_, hbare⟩
  rw [TokenStream.kind_eq, hremaining]
  exact hlast

/-- Names of types are faithful. The name of a type that can be written in a scope is cut into tokens,
the rule for types reads all of them under any limit that has room for them, and what it reads has the
name for its text and denotes in this scope the same type, with parameters that can only be read. So
two such types have the same name only if they agree in all but modes, and this is what it means for
one to be assignable to the other. -/
theorem typeNames_faithful (scope : Scope) :
    (∀ type : Ty, type.Writable scope → ∀ (limit : Nat) (file parsedFile : String),
      type.written.nesting ≤ limit →
      ∃ (tokens : List Token) (parsed : TypeExpr),
        tokenize type.name file = .ok tokens ∧
        (let reader := Reader.ofTokens .standard parsedFile limit tokens
         let outcome := reader.run reader.inner.type
         outcome.1 = .ok parsed ∧ outcome.2.stream.kind = .eof) ∧
        parsed.text = type.name ∧ scope.resolve parsed = .ok type.readOnly ∧
        type.Agrees type.readOnly ∧ type.readOnly.name = type.name) ∧
    ∀ a b : Ty, a.Writable scope → b.Writable scope →
      (a.name = b.name ↔ a.Agrees b) ∧ (a.assignableTo b = true ↔ a.Agrees b) := by
  refine ⟨fun type htype limit file parsedFile hlimit => ?_, fun a b ha hb => ?_⟩
  · have hidentifiers := htype.leaves.mono fun _ hleaf => hleaf.1
    obtain ⟨ts, last, hspelling, hlast, htokens⟩ :=
      hidentifiers.cuts.tokenize (fun c hc => nomatch hc) file
    obtain ⟨parsed, hparsed, hend, hbare⟩ :=
      Reader.type_complete hspelling hlast hlimit parsedFile
    rw [type.bare_written] at hbare
    have htext : parsed.text = type.name := by
      rw [← parsed.text_bare, hbare, type.text_written]
    have hagrees := type.agrees_readOnly
    exact ⟨_, parsed, htokens, ⟨hparsed, hend⟩, htext, Scope.resolve_of_bare htype hbare, hagrees,
      hagrees.name_eq.symm⟩
  · have hname : a.name = b.name ↔ a.Agrees b := ⟨ha.agrees hb, Ty.Agrees.name_eq⟩
    exact ⟨hname, beq_iff_eq.trans hname⟩

/-- A scope with a class that is named like function types and one that is named like an operator. -/
def operatorScope : Scope :=
  let types : Table Ty := ∅
  [⟨∅, (types.insert "Function" (.cls ⟨0, "Function"⟩)).insert "operator-" (.cls ⟨1, "operator-"⟩), ∅⟩,
    .root]

/-- `Function(Function, Function(operator-) -> Nothing) -> Function() -> Function`, where the second
parameter is a variable. -/
def operatorType : Ty :=
  .function [⟨.val, .cls ⟨0, "Function"⟩⟩,
      ⟨.var, .function [⟨.val, .cls ⟨1, "operator-"⟩⟩] .nothing⟩]
    (.function [] (.cls ⟨0, "Function"⟩))

/-- The same with the parameters one after the other. -/
def curriedType : Ty :=
  .function [⟨.val, .cls ⟨0, "Function"⟩⟩]
    (.function [⟨.val, .function [⟨.val, .cls ⟨1, "operator-"⟩⟩] .nothing⟩]
      (.function [] (.cls ⟨0, "Function"⟩)))

theorem typeNames_faithful_operatorType :
    operatorType.Writable operatorScope ∧ curriedType.Writable operatorScope ∧
    operatorType.written.nesting ≤ 3 ∧
    operatorType.name = "Function(Function, Function(operator-) -> Nothing) -> Function() -> Function" ∧
    (∃ (tokens : List Token) (parsed : TypeExpr),
      tokenize operatorType.name "shell" = .ok tokens ∧
      (let reader := Reader.ofTokens .standard "shell" 3 tokens
       let outcome := reader.run reader.inner.type
       outcome.1 = .ok parsed ∧ outcome.2.stream.kind = .eof) ∧
      parsed.text = operatorType.name ∧ operatorScope.resolve parsed = .ok operatorType.readOnly ∧
      operatorType.Agrees operatorType.readOnly ∧
      operatorType.readOnly.name = operatorType.name) ∧
    (operatorType.name = curriedType.name ↔ operatorType.Agrees curriedType) ∧
    (operatorType.assignableTo curriedType = true ↔ operatorType.Agrees curriedType) := by
  have hfunction : Ty.Writable operatorScope (.cls ⟨0, "Function"⟩) := .cls ⟨by decide, rfl⟩
  have hoperator : Ty.Writable operatorScope (.cls ⟨1, "operator-"⟩) := .cls ⟨by decide, rfl⟩
  have hnothing : Ty.Writable operatorScope .nothing := .primitive ⟨by decide, rfl⟩
  have hinner : Ty.Writable operatorScope
      (.function [⟨.val, .cls ⟨1, "operator-"⟩⟩] .nothing) :=
    .function (by simp [Ty.hasValues]) (by simpa using hoperator) hnothing
  have hresult : Ty.Writable operatorScope (.function [] (.cls ⟨0, "Function"⟩)) :=
    .function (by simp) (by simp) hfunction
  have htype : operatorType.Writable operatorScope :=
    .function (by simp [Ty.hasValues]) (by simpa using ⟨hfunction, hinner⟩) hresult
  have hcurried : curriedType.Writable operatorScope :=
    .function (by simp [Ty.hasValues]) (by simpa using hfunction)
      (.function (by simp [Ty.hasValues]) (by simpa using hinner) hresult)
  have hnesting : operatorType.written.nesting ≤ 3 := by decide
  have hfaithful := typeNames_faithful operatorScope
  exact ⟨htype, hcurried, hnesting, rfl, hfaithful.1 operatorType htype 3 "shell" "shell" hnesting,
    hfaithful.2 operatorType curriedType htype hcurried⟩

end Nominal
