import Nominal.Proofs.Typing.Confined.Basic
import Nominal.Proofs.Typing.WellTyped

/-!
# Expressions have types in scope

One lemma for each rule, on the assumption that the parts of the expression have types in scope. A
rule takes types from variables, functions and classes, from the function type of a callee, or from
the built-in operators; all of these are in scope while the frame stays the same.
-/

namespace Nominal

/-- A type that can be called is the function type that it is called as. -/
theorem Ty.eq_of_function? {type : Ty} {f : FnType} (h : type.function? = some f) :
    type = f.type := by
  cases type with
  | function parameters result =>
    cases h
    rfl
  | _ => cases h

/-- The result of a function that is in scope is in scope. -/
theorem FnType.result_inScope {scope : Scope} {f : FnType} (h : f.type.InScope scope) :
    f.result.InScope scope :=
  (Ty.over_function.1 h).2

namespace Context

open Check

variable {ctx : Context} {span : Span} {frame : Frame} {outer : Scope}
  {owner left right : Check TypedExpr} {arguments : Arguments}

/-! ## Names -/

theorem symbol_scoped (name : String) : (ctx.symbol name span).ScopedExpr frame ctx.outer := by
  unfold symbol
  refine .scope_bind fun classes hfits => ?_
  split
  · next b hb => exact .pure (hfits.variable hb)
  · split
    · next id f hf => exact .pure (hfits.function (List.mem_of_getLast? hf))
    · exact .fail _ _

theorem member_scoped (name : String) (nameSpan : Span) (howner : owner.ScopedExpr frame outer) :
    (member owner name nameSpan span).ScopedExpr frame outer := by
  unfold member
  refine howner.bind fun o ho => .get_bind fun s hs hframe => ?_
  subst hframe
  dsimp only
  split
  · next m hm => exact .pure (hs.member ho hm)
  · split
    · next method hmethod => exact .pure (hs.method ho (List.mem_of_getLast? hmethod))
    · exact .fail _ _

/-! ## Assignments -/

theorem variableTarget_scoped (name : String) :
    (ctx.variableTarget name span).ScopedTarget frame ctx.outer := by
  unfold variableTarget
  refine .scope_bind fun classes hfits => ?_
  split
  · next b hb =>
    split
    · exact .pure (hfits.variable hb)
    · exact .fail _ _
  · split
    · exact .fail _ _
    · exact .fail _ _

theorem memberTarget_scoped (name : String) (nameSpan : Span)
    (howner : owner.ScopedExpr frame outer) :
    (memberTarget owner name nameSpan).ScopedTarget frame outer := by
  unfold memberTarget
  refine howner.bind fun o ho => .get_bind fun s hs hframe => ?_
  subst hframe
  dsimp only
  split
  · next m hm =>
    split
    · exact .pure (hs.member ho hm)
    · exact .fail _ _
  · split
    · exact .fail _ _
    · exact .fail _ _

theorem assign_scoped {target : Check (Target × Slot Ty)} {value : Check TypedExpr}
    (valueSpan : Span) (htarget : target.ScopedTarget frame outer)
    (hvalue : value.ScopedExpr frame outer) :
    (assign target value valueSpan span).ScopedExpr frame outer := by
  unfold assign
  refine htarget.bind fun (target, slot) hslot => hvalue.bind fun value _ => .expect_bind ?_
  exact .pure hslot

/-! ## Operators -/

theorem operatorFunction_scoped (operator : Token) (methods : List Overload)
    (operands : List TypedExpr) (owner : TypedExpr) :
    (ctx.operatorFunction operator methods operands owner span).ScopedExpr frame ctx.outer := by
  unfold operatorFunction
  refine .scope_bind fun classes hfits => ?_
  dsimp only
  split
  · next id f hf =>
    obtain ⟨hmem, -⟩ := mem_of_resolveOverload hf
    exact .pure (FnType.result_inScope (hfits.function hmem))
  · split
    · exact .fail _ _
    · exact .fail _ _

theorem binary_scoped (operator : Token) (hleft : left.ScopedExpr frame ctx.outer)
    (hright : right.ScopedExpr frame ctx.outer) :
    (ctx.binary operator left right span).ScopedExpr frame ctx.outer := by
  unfold binary
  refine hleft.bind fun left hl => hright.bind fun right _ => .get_bind fun s hs hframe => ?_
  subst hframe
  dsimp only
  split
  · next o ho =>
    obtain ⟨hmem, -⟩ := mem_of_resolveOverload ho
    exact .pure (FnType.result_inScope (hs.method hl hmem))
  · exact operatorFunction_scoped operator _ [left, right] left

theorem unary_scoped (operator : Token) (hright : right.ScopedExpr frame ctx.outer) :
    (ctx.unary operator right span).ScopedExpr frame ctx.outer := by
  unfold unary
  refine hright.bind fun operand hoperand => .get_bind fun s hs hframe => ?_
  subst hframe
  dsimp only
  split
  · next o ho =>
    obtain ⟨hmem, -⟩ := mem_of_resolveOverload ho
    exact .pure (FnType.result_inScope (hs.method hoperand hmem))
  · exact operatorFunction_scoped operator _ [operand] operand

/-! ## Calls -/

theorem callValue_scoped (callee : TypedExpr) (name : String)
    (hcallee : callee.type.type.InScope (frame :: outer))
    (harguments : arguments.Scoped frame outer) :
    (callValue callee name arguments span).ScopedExpr frame outer := by
  unfold callValue
  split
  · exact .fail _ _
  · next f hf =>
    have hfunction : f.type.InScope (frame :: outer) := by
      rwa [← Ty.eq_of_function? hf]
    split
    · refine (harguments.into f.parameters).bind fun typed _ => ?_
      exact .pure (FnType.result_inScope hfunction)
    · exact .fail _ _

theorem callOverload_scoped {overloads : List Overload} (name : String) (nameSpan : Span)
    (hoverloads : ∀ o ∈ overloads, o.signature.type.InScope (frame :: ctx.outer))
    (harguments : arguments.Scoped frame ctx.outer) :
    (ctx.callOverload overloads name nameSpan arguments span).ScopedExpr frame ctx.outer := by
  unfold callOverload
  split
  · exact .fail _ _
  · refine harguments.each.bind fun typed _ => ?_
    split
    · next id f hf =>
      obtain ⟨hmem, -⟩ := mem_of_resolveOverload hf
      exact .pure (FnType.result_inScope (hoverloads _ hmem))
    · exact .throw _

theorem callSymbol_scoped (name : String) (nameSpan : Span)
    (harguments : arguments.Scoped frame ctx.outer) :
    (ctx.callSymbol name nameSpan arguments span).ScopedExpr frame ctx.outer := by
  unfold callSymbol
  refine .scope_bind fun classes hfits => ?_
  split
  · next b hb => exact callValue_scoped _ name (hfits.variable hb) harguments
  · exact callOverload_scoped name nameSpan (fun o ho => hfits.function ho) harguments

theorem callMember_scoped (name : String) (nameSpan calleeSpan : Span)
    (howner : owner.ScopedExpr frame outer) (harguments : arguments.Scoped frame outer) :
    (callMember owner name nameSpan calleeSpan arguments span).ScopedExpr frame outer := by
  unfold callMember
  refine howner.bind fun receiver hreceiver => .get_bind fun s hs hframe => ?_
  subst hframe
  dsimp only
  split
  · next m hm => exact callValue_scoped _ name (hs.member hreceiver hm) harguments
  · split
    · exact .fail _ _
    · refine harguments.each.bind fun typed _ => ?_
      split
      · next o ho =>
        obtain ⟨hmem, -⟩ := mem_of_resolveOverload ho
        exact .pure (FnType.result_inScope (hs.method hreceiver hmem))
      · exact .throw _

theorem instantiate_scoped (name : String) (harguments : arguments.Scoped frame ctx.outer) :
    (ctx.instantiate name arguments span).ScopedExpr frame ctx.outer := by
  unfold instantiate
  refine .scope_bind fun classes hfits => ?_
  split
  · exact .fail _ _
  · next type htype =>
    have hscope := hfits.inScope htype
    split
    · exact .fail _ _
    · refine .get_bind fun s _ _ => ?_
      dsimp only
      split
      · exact (harguments.into _).bind fun typed _ => .pure hscope
      · exact .fail _ _

end Context

end Nominal
