import Nominal.Proofs.Typing.Confined.Expressions
import Nominal.Proofs.Typing.Values.Checks

/-!
# Expressions keep states valued

One lemma for each rule. The type of an expression is that of a variable, a field, a function or a
method, or it is what one of these returns; all of these are in the state. A value of a type that does
not fit is reported by what tells the types apart, be it their names or their modes.
-/

namespace Nominal

/-- The arguments of a call keep states valued, in both ways of checking them. -/
structure Arguments.KeepValues (arguments : Arguments) (outer : Scope) : Prop where
  each : arguments.each.KeepsValues outer
  into : ∀ slots, (arguments.into slots).KeepsValues outer

/-- The argument that is reported is one that does not fit. -/
theorem isContradictory_overloadMismatch (name : String) (overloads : List Overload)
    (arguments : List TypedExpr) (span : Span) :
    (overloadMismatch name overloads arguments span).cause.isContradictory = false := by
  unfold overloadMismatch
  split
  · next o _ =>
    dsimp only
    split
    · next argument parameter hfind =>
      refine isContradictory_wrongType ?_
      simpa using List.find?_some hfind
    · rfl
  · rfl

namespace Context

open Check

variable {ctx : Context} {span : Span} {outer : Scope} {owner left right : Check TypedExpr}
  {arguments : Arguments} {s : CheckState}

/-! ## Names -/

theorem symbol_values (name : String) : (ctx.symbol name span).ProperExpr ctx.outer := by
  intro s hs
  unfold symbol
  refine .scope_bind ?_
  split
  · next b hb => exact .pure hs (hs.findVariable hb).toProper
  · split
    · next id f hf => exact .pure hs (hs.findFunction (List.mem_of_getLast? hf))
    · exact .fail hs (ctx.isContradictory_undefined name)

theorem member_values (name : String) (nameSpan : Span) (howner : owner.KeepsValues outer) :
    (member owner name nameSpan span).ProperExpr outer := by
  intro s hs
  unfold member
  refine (howner s hs).bind fun o t _ ht _ => .get_bind ?_
  dsimp only
  split
  · next m hm => exact .pure ht (ht.member hm).toProper
  · split
    · next method hmethod => exact .pure ht (ht.method (List.mem_of_getLast? hmethod))
    · exact .fail ht rfl

/-! ## Assignments -/

theorem variableTarget_values (name : String) :
    (ctx.variableTarget name span).ProperTarget ctx.outer := by
  intro s hs
  unfold variableTarget
  refine .scope_bind ?_
  split
  · next b hb =>
    split
    · exact .pure hs (hs.findVariable hb).toProper
    · exact .fail hs rfl
  · split
    · exact .fail hs (ctx.isContradictory_undefined name)
    · exact .fail hs rfl

theorem memberTarget_values (name : String) (nameSpan : Span) (howner : owner.KeepsValues outer) :
    (memberTarget owner name nameSpan).ProperTarget outer := by
  intro s hs
  unfold memberTarget
  refine (howner s hs).bind fun o t _ ht _ => .get_bind ?_
  dsimp only
  split
  · next m hm =>
    split
    · exact .pure ht (ht.member hm).toProper
    · exact .fail ht rfl
  · split
    · exact .fail ht rfl
    · exact .fail ht rfl

theorem assign_values {target : Check (Target × Slot Ty)} {value : Check TypedExpr}
    (valueSpan : Span) (htarget : target.ProperTarget outer) (hvalue : value.KeepsValues outer) :
    (assign target value valueSpan span).ProperExpr outer := by
  intro s hs
  unfold assign
  refine (htarget s hs).bind fun (place, slot) t _ ht hslot => ?_
  refine (hvalue t ht).bind fun value u htu hu _ => .expect_bind hu ?_
  exact .pure hu (hslot.mono htu)

/-! ## Operators -/

theorem operatorFunction_values (operator : Token) (methods : List Overload)
    (operands : List TypedExpr) (owner : TypedExpr) :
    (ctx.operatorFunction operator methods operands owner span).ProperExpr ctx.outer := by
  intro s hs
  unfold operatorFunction
  refine .scope_bind ?_
  dsimp only
  split
  · next id f hf =>
    obtain ⟨hmem, -⟩ := mem_of_resolveOverload hf
    exact .pure hs (hs.findFunction hmem).result
  · split
    · exact .fail hs rfl
    · exact .fail hs rfl

theorem binary_values (operator : Token) (hleft : left.KeepsValues ctx.outer)
    (hright : right.KeepsValues ctx.outer) :
    (ctx.binary operator left right span).ProperExpr ctx.outer := by
  intro s hs
  unfold binary
  refine (hleft s hs).bind fun l t _ ht _ => (hright t ht).bind fun r u _ hu _ => .get_bind ?_
  dsimp only
  split
  · next o ho =>
    obtain ⟨hmem, -⟩ := mem_of_resolveOverload ho
    exact .pure hu (hu.method hmem).result
  · exact operatorFunction_values operator _ [l, r] l u hu

theorem unary_values (operator : Token) (hright : right.KeepsValues ctx.outer) :
    (ctx.unary operator right span).ProperExpr ctx.outer := by
  intro s hs
  unfold unary
  refine (hright s hs).bind fun operand t _ ht _ => .get_bind ?_
  dsimp only
  split
  · next o ho =>
    obtain ⟨hmem, -⟩ := mem_of_resolveOverload ho
    exact .pure ht (ht.method hmem).result
  · exact operatorFunction_values operator _ [operand] operand t ht

/-! ## Calls -/

/-- What is called is reported by the name of its type. This is the word for functions only where a
class has it for its name. -/
theorem callValue_values {callee : TypedExpr} (name : String) (hs : s.Valued outer)
    (hcallee : callee.type.type.Proper s.classes.names) (harguments : arguments.KeepValues outer) :
    (callValue callee name arguments span).ValuesFrom s outer fun e t =>
      e.type.type.Proper t.classes.names := by
  unfold callValue
  split
  · next hfunction =>
    refine .throw hs fun hcontradictory => ?_
    have hname : "Function" = callee.type.type.name := beq_iff_eq.1 hcontradictory
    refine ⟨?_, hcallee.function_mem_of_name hfunction hname.symm⟩
    show Cause.wrongType "Function" callee.type.type.name = _
    rw [← hname]
  · next f hf =>
    have hfunction : f.type.Proper s.classes.names := by
      rwa [← Ty.eq_of_function? hf]
    split
    · refine (harguments.into f.parameters s hs).bind fun typed t hst ht _ => ?_
      exact .pure ht (hfunction.result.mono hst)
    · exact .fail hs rfl

theorem callOverload_values {overloads : List Overload} (name : String) (nameSpan : Span)
    (hs : s.Valued ctx.outer)
    (hoverloads : ∀ o ∈ overloads, o.signature.type.Proper s.classes.names)
    (harguments : arguments.KeepValues ctx.outer) :
    (ctx.callOverload overloads name nameSpan arguments span).ValuesFrom s ctx.outer fun e t =>
      e.type.type.Proper t.classes.names := by
  unfold callOverload
  split
  · exact .fail hs (ctx.isContradictory_undefined name)
  · refine (harguments.each s hs).bind fun typed t hst ht _ => ?_
    split
    · next id f hf =>
      obtain ⟨hmem, -⟩ := mem_of_resolveOverload hf
      exact .pure ht ((hoverloads _ hmem).result.mono hst)
    · exact .throw ht (.of_cause (isContradictory_overloadMismatch _ _ _ _))

theorem callSymbol_values (name : String) (nameSpan : Span)
    (harguments : arguments.KeepValues ctx.outer) :
    (ctx.callSymbol name nameSpan arguments span).ProperExpr ctx.outer := by
  intro s hs
  unfold callSymbol
  refine .scope_bind ?_
  split
  · next b hb => exact callValue_values name hs (hs.findVariable hb).toProper harguments
  · exact callOverload_values name nameSpan hs (fun o ho => hs.findFunction ho) harguments

theorem callMember_values (name : String) (nameSpan calleeSpan : Span)
    (howner : owner.KeepsValues outer) (harguments : arguments.KeepValues outer) :
    (callMember owner name nameSpan calleeSpan arguments span).ProperExpr outer := by
  intro s hs
  unfold callMember
  refine (howner s hs).bind fun receiver t _ ht _ => .get_bind ?_
  dsimp only
  split
  · next m hm => exact callValue_values name ht (ht.member hm).toProper harguments
  · split
    · exact .fail ht rfl
    · refine (harguments.each t ht).bind fun typed u htu hu _ => ?_
      split
      · next o ho =>
        obtain ⟨hmem, -⟩ := mem_of_resolveOverload ho
        exact .pure hu ((ht.method hmem).result.mono htu)
      · exact .throw hu (.of_cause (isContradictory_overloadMismatch _ _ _ _))

theorem instantiate_values (name : String) (harguments : arguments.KeepValues ctx.outer) :
    (ctx.instantiate name arguments span).ProperExpr ctx.outer := by
  intro s hs
  unfold instantiate
  refine .scope_bind ?_
  split
  · exact .fail hs rfl
  · next type htype =>
    split
    · exact .fail hs rfl
    · refine .get_bind ?_
      dsimp only
      split
      · refine (harguments.into _ s hs).bind fun typed t hst ht _ => ?_
        exact .pure ht ((hs.findType htype).mono hst)
      · exact .fail hs rfl

end Context

end Nominal
