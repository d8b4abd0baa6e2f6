import Nominal.Proofs.Typing.Returns.Basic
import Nominal.Typing.Expressions

/-!
# Bodies in expressions

One lemma for each rule but that for lambdas: the bodies in what is checked are those of its parts,
so they are proper when those of the parts are.
-/

namespace Nominal

/-- Arguments in which all bodies are proper, in both ways of checking them. -/
structure Arguments.Proper (arguments : Arguments) (outer : Scope) : Prop where
  each : arguments.each.Honestly outer fun es => ∀ b ∈ TypedExpr.allBodies es, b.Proper
  into : ∀ slots, (arguments.into slots).Honestly outer fun es =>
    ∀ b ∈ TypedExpr.allBodies es, b.Proper

/-- All bodies in the target are proper. -/
def Target.Proper (target : Target) : Prop :=
  ∀ b ∈ target.bodies, b.Proper

namespace Context

open Check

variable {ctx : Context} {span : Span} {outer : Scope} {owner left right : Check TypedExpr}
  {arguments : Arguments}

/-! ## Names and assignments -/

theorem symbol_proper (name : String) :
    (ctx.symbol name span).Honestly ctx.outer TypedExpr.Proper := by
  unfold symbol
  refine .scope_bind fun scope _ => ?_
  split
  · exact .pure fun b hb => nomatch hb
  · split
    · exact .pure fun b hb => nomatch hb
    · exact .fail _ _

theorem member_proper (name : String) (nameSpan : Span)
    (howner : owner.Honestly outer TypedExpr.Proper) :
    (member owner name nameSpan span).Honestly outer TypedExpr.Proper := by
  unfold member
  refine howner.bind fun o ho => .get_bind fun s _ => ?_
  dsimp only
  split
  · exact .pure ho
  · split
    · exact .pure ho
    · exact .fail _ _

theorem variableTarget_proper (name : String) :
    (ctx.variableTarget name span).Honestly ctx.outer fun target => target.1.Proper := by
  unfold variableTarget
  refine .scope_bind fun scope _ => ?_
  split
  · split
    · exact .pure fun b hb => nomatch hb
    · exact .fail _ _
  · split
    · exact .fail _ _
    · exact .fail _ _

theorem memberTarget_proper (name : String) (nameSpan : Span)
    (howner : owner.Honestly outer TypedExpr.Proper) :
    (memberTarget owner name nameSpan).Honestly outer fun target => target.1.Proper := by
  unfold memberTarget
  refine howner.bind fun o ho => .get_bind fun s _ => ?_
  dsimp only
  split
  · split
    · exact .pure ho
    · exact .fail _ _
  · split
    · exact .fail _ _
    · exact .fail _ _

theorem assign_proper {target : Check (Target × Slot Ty)} {value : Check TypedExpr}
    (valueSpan : Span) (htarget : target.Honestly outer fun target => target.1.Proper)
    (hvalue : value.Honestly outer TypedExpr.Proper) :
    (assign target value valueSpan span).Honestly outer TypedExpr.Proper := by
  unfold assign
  refine htarget.bind fun (target, slot) ht => hvalue.bind fun value hv => .expect_bind ?_
  exact .pure (List.forall_mem_append.2 ⟨ht, hv⟩)

/-! ## Operators -/

theorem operatorFunction_proper (operator : Token) (methods : List Overload)
    {operands : List TypedExpr} (owner : TypedExpr)
    (hoperands : ∀ b ∈ TypedExpr.allBodies operands, b.Proper) :
    (ctx.operatorFunction operator methods operands owner span).Honestly ctx.outer
      TypedExpr.Proper := by
  unfold operatorFunction
  refine .scope_bind fun scope _ => ?_
  dsimp only
  split
  · exact .pure hoperands
  · split
    · exact .fail _ _
    · exact .fail _ _

theorem binary_proper (operator : Token) (hleft : left.Honestly ctx.outer TypedExpr.Proper)
    (hright : right.Honestly ctx.outer TypedExpr.Proper) :
    (ctx.binary operator left right span).Honestly ctx.outer TypedExpr.Proper := by
  unfold binary
  refine hleft.bind fun left hl => hright.bind fun right hr => .get_bind fun s _ => ?_
  dsimp only
  split
  · exact .pure (List.forall_mem_append.2 ⟨hl, hr⟩)
  · refine operatorFunction_proper operator _ left (List.forall_mem_append.2 ⟨hl, ?_⟩)
    exact List.forall_mem_append.2 ⟨hr, fun b hb => nomatch hb⟩

theorem unary_proper (operator : Token) (hright : right.Honestly ctx.outer TypedExpr.Proper) :
    (ctx.unary operator right span).Honestly ctx.outer TypedExpr.Proper := by
  unfold unary
  refine hright.bind fun operand ho => .get_bind fun s _ => ?_
  dsimp only
  split
  · exact .pure ho
  · refine operatorFunction_proper operator _ operand (List.forall_mem_append.2 ⟨ho, ?_⟩)
    exact fun b hb => nomatch hb

/-! ## Calls -/

theorem callValue_proper {callee : TypedExpr} (name : String) (hcallee : callee.Proper)
    (harguments : arguments.Proper outer) :
    (callValue callee name arguments span).Honestly outer TypedExpr.Proper := by
  unfold callValue
  split
  · exact .fail _ _
  · split
    · refine (harguments.into _).bind fun typed ht => .pure ?_
      exact List.forall_mem_append.2 ⟨hcallee, ht⟩
    · exact .fail _ _

theorem callOverload_proper (overloads : List Overload) (name : String) (nameSpan : Span)
    (harguments : arguments.Proper ctx.outer) :
    (ctx.callOverload overloads name nameSpan arguments span).Honestly ctx.outer
      TypedExpr.Proper := by
  unfold callOverload
  split
  · exact .fail _ _
  · refine harguments.each.bind fun typed ht => ?_
    split
    · exact .pure ht
    · exact .throw _

theorem callSymbol_proper (name : String) (nameSpan : Span)
    (harguments : arguments.Proper ctx.outer) :
    (ctx.callSymbol name nameSpan arguments span).Honestly ctx.outer TypedExpr.Proper := by
  unfold callSymbol
  refine .scope_bind fun scope _ => ?_
  split
  · exact callValue_proper name (fun b hb => nomatch hb) harguments
  · exact callOverload_proper _ name nameSpan harguments

theorem callMember_proper (name : String) (nameSpan calleeSpan : Span)
    (howner : owner.Honestly outer TypedExpr.Proper) (harguments : arguments.Proper outer) :
    (callMember owner name nameSpan calleeSpan arguments span).Honestly outer
      TypedExpr.Proper := by
  unfold callMember
  refine howner.bind fun receiver hr => .get_bind fun s _ => ?_
  dsimp only
  split
  · exact callValue_proper name hr harguments
  · split
    · exact .fail _ _
    · refine harguments.each.bind fun typed ht => ?_
      split
      · exact .pure (List.forall_mem_append.2 ⟨hr, ht⟩)
      · exact .throw _

theorem instantiate_proper (name : String) (harguments : arguments.Proper ctx.outer) :
    (ctx.instantiate name arguments span).Honestly ctx.outer TypedExpr.Proper := by
  unfold instantiate
  refine .scope_bind fun scope _ => ?_
  split
  · exact .fail _ _
  · split
    · exact .fail _ _
    · refine .get_bind fun s _ => ?_
      dsimp only
      split
      · exact (harguments.into _).bind fun typed ht => .pure ht
      · exact .fail _ _

end Context

end Nominal
