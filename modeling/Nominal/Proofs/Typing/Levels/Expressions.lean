import Nominal.Proofs.Typing.Levels.Basic
import Nominal.Typing.Expressions

/-!
# Rules for expressions under a higher limit

A rule for an expression is widened when its parts are. No rule looks at the limit itself, and no
diagnostic that a rule reports on its own is about levels.
-/

namespace Nominal

open Check

/-- The arguments of `arguments'` are checked under a higher limit than those of `arguments`. -/
structure Arguments.Widens (scarce : Prop) (arguments arguments' : Arguments) : Prop where
  count : arguments'.count = arguments.count
  each : Check.Widens scarce arguments.each arguments'.each
  into : ∀ slots, Check.Widens scarce (arguments.into slots) (arguments'.into slots)

namespace Context

variable {scarce : Prop} {ctx : Context} {l : Nat} {span : Span} {owner owner' : Check TypedExpr}
  {left left' right right' : Check TypedExpr} {arguments arguments' : Arguments}

theorem symbol_widens (name : String) :
    Widens scarce (ctx.symbol name span) ((ctx.allowing l).symbol name span) := by
  unfold symbol
  refine .scope_bind fun scope => ?_
  split
  · exact .pure _
  · split
    · exact .pure _
    · exact .fail (ctx.isNesting_undefined name) span

theorem member_widens (name : String) (nameSpan : Span) (howner : Widens scarce owner owner') :
    Widens scarce (member owner name nameSpan span) (member owner' name nameSpan span) := by
  unfold member
  refine howner.bind fun owner => .get_bind fun s => ?_
  dsimp only
  split
  · exact .pure _
  · split
    · exact .pure _
    · exact .fail rfl nameSpan

/-! ## Assignments -/

theorem variableTarget_widens (name : String) :
    Widens scarce (ctx.variableTarget name span) ((ctx.allowing l).variableTarget name span) := by
  unfold variableTarget
  refine .scope_bind fun scope => ?_
  split
  · split
    · exact .pure _
    · exact .fail rfl span
  · split
    · exact .fail (ctx.isNesting_undefined name) span
    · exact .fail rfl span

theorem memberTarget_widens (name : String) (nameSpan : Span)
    (howner : Widens scarce owner owner') :
    Widens scarce (memberTarget owner name nameSpan) (memberTarget owner' name nameSpan) := by
  unfold memberTarget
  refine howner.bind fun owner => .get_bind fun s => ?_
  dsimp only
  split
  · split
    · exact .pure _
    · exact .fail rfl nameSpan
  · split
    · exact .fail rfl nameSpan
    · exact .fail rfl nameSpan

theorem assign_widens {target target' : Check (Target × Slot Ty)} {value value' : Check TypedExpr}
    (valueSpan : Span) (htarget : Widens scarce target target')
    (hvalue : Widens scarce value value') :
    Widens scarce (assign target value valueSpan span) (assign target' value' valueSpan span) := by
  unfold assign
  exact htarget.bind fun (target, slot) => hvalue.bind fun value => .expect_bind (.pure _)

/-! ## Operators -/

theorem operatorFunction_widens (operator : Token) (methods : List Overload)
    (operands : List TypedExpr) (owner : TypedExpr) :
    Widens scarce (ctx.operatorFunction operator methods operands owner span)
      ((ctx.allowing l).operatorFunction operator methods operands owner span) := by
  unfold operatorFunction
  refine .scope_bind fun scope => ?_
  dsimp only
  split
  · exact .pure _
  · split
    · exact .fail rfl operator.span
    · exact .fail rfl span

theorem binary_widens (operator : Token) (hleft : Widens scarce left left')
    (hright : Widens scarce right right') :
    Widens scarce (ctx.binary operator left right span)
      ((ctx.allowing l).binary operator left' right' span) := by
  unfold binary
  refine hleft.bind fun left => hright.bind fun right => .get_bind fun s => ?_
  dsimp only
  split
  · exact .pure _
  · exact operatorFunction_widens operator _ [left, right] left

theorem unary_widens (operator : Token) (hright : Widens scarce right right') :
    Widens scarce (ctx.unary operator right span)
      ((ctx.allowing l).unary operator right' span) := by
  unfold unary
  refine hright.bind fun operand => .get_bind fun s => ?_
  dsimp only
  split
  · exact .pure _
  · exact operatorFunction_widens operator _ [operand] operand

/-! ## Calls -/

theorem callValue_widens (callee : TypedExpr) (name : String) (span : Span)
    (harguments : arguments.Widens scarce arguments') :
    Widens scarce (callValue callee name arguments span)
      (callValue callee name arguments' span) := by
  unfold callValue
  rw [harguments.count]
  split
  · exact .fail rfl callee.span
  · split
    · exact (harguments.into _).bind fun typed => .pure _
    · exact .fail rfl span

theorem callOverload_widens (overloads : List Overload) (name : String) (nameSpan : Span)
    (harguments : arguments.Widens scarce arguments') :
    Widens scarce (ctx.callOverload overloads name nameSpan arguments span)
      ((ctx.allowing l).callOverload overloads name nameSpan arguments' span) := by
  unfold callOverload
  split
  · exact .fail (ctx.isNesting_undefined name) nameSpan
  · refine harguments.each.bind fun typed => ?_
    split
    · exact .pure _
    · exact .throw (not_isNesting_overloadMismatch name overloads typed span)

theorem callSymbol_widens (name : String) (nameSpan : Span)
    (harguments : arguments.Widens scarce arguments') :
    Widens scarce (ctx.callSymbol name nameSpan arguments span)
      ((ctx.allowing l).callSymbol name nameSpan arguments' span) := by
  unfold callSymbol
  refine .scope_bind fun scope => ?_
  split
  · exact callValue_widens _ name span harguments
  · exact callOverload_widens _ name nameSpan harguments

theorem callMember_widens (name : String) (nameSpan calleeSpan : Span)
    (howner : Widens scarce owner owner') (harguments : arguments.Widens scarce arguments') :
    Widens scarce (callMember owner name nameSpan calleeSpan arguments span)
      (callMember owner' name nameSpan calleeSpan arguments' span) := by
  unfold callMember
  refine howner.bind fun receiver => .get_bind fun s => ?_
  dsimp only
  split
  · exact callValue_widens _ name span harguments
  · split
    · exact .fail rfl nameSpan
    · refine harguments.each.bind fun typed => ?_
      split
      · exact .pure _
      · exact .throw (not_isNesting_overloadMismatch name _ typed span)

theorem instantiate_widens (name : String) (harguments : arguments.Widens scarce arguments') :
    Widens scarce (ctx.instantiate name arguments span)
      ((ctx.allowing l).instantiate name arguments' span) := by
  unfold instantiate
  refine .scope_bind fun scope => ?_
  split
  · exact .fail rfl span
  · split
    · exact .fail rfl span
    · refine .get_bind fun s => ?_
      dsimp only
      rw [harguments.count]
      split
      · exact (harguments.into _).bind fun typed => .pure _
      · exact .fail rfl span

end Context

end Nominal
