import Nominal.Proofs.Typing.Typed
import Nominal.Typing.Expressions

/-!
# Rules for expressions give well-typed expressions

One lemma for each rule, on the assumption that the parts of the expression are well typed. What a
rule looks up in the scope or in the classes is registered because the state is sound.
-/

namespace Nominal

namespace Check

/-- A check of an expression that is well typed afterwards. -/
abbrev ChecksExpr (c : Check TypedExpr) (outer : Scope) : Prop :=
  c.Typed outer fun e w => e.WellTyped w

abbrev ChecksExprs (c : Check (List TypedExpr)) (outer : Scope) : Prop :=
  c.Typed outer fun es w => TypedExpr.AllWellTyped w es

/-- A check of a target, which comes with the slot it is. -/
abbrev ChecksTarget (c : Check (Target × Slot Ty)) (outer : Scope) : Prop :=
  c.Typed outer fun target w => target.1.WellTyped w target.2

end Check

/-- Arguments that are well typed in both ways of checking them, and that fit the slots they flow
into. -/
structure Arguments.Checked (arguments : Arguments) (outer : Scope) : Prop where
  each : arguments.each.ChecksExprs outer
  into : ∀ slots, slots.length = arguments.count →
    (arguments.into slots).Typed outer fun es w =>
      TypedExpr.AllWellTyped w es ∧ Fit (es.map fun e => e.type) slots

namespace Context

open Check

variable {ctx : Context} {span : Span} {outer : Scope} {owner left right : Check TypedExpr}
  {arguments : Arguments}

/-! ## Names -/

theorem symbol_typed (name : String) : (ctx.symbol name span).ChecksExpr ctx.outer := by
  unfold symbol
  refine .scope_bind fun s hs => ?_
  split
  · next b hb => exact .pure fun w hw => hs.registers_variable hw hb
  · split
    · next id f hf =>
      -- a function that is not called stands for its last overload
      have hmem := List.mem_of_getLast? hf
      exact .pure fun w hw => hs.registers_function hw hmem rfl
    · exact .fail _ _

theorem member_typed (name : String) (nameSpan : Span) (howner : owner.ChecksExpr outer) :
    (member owner name nameSpan span).ChecksExpr outer := by
  unfold member
  refine howner.bind fun o => .get_bind fun s hs => ?_
  dsimp only
  split
  · next m hm => exact .pure fun w hw ho => ⟨ho, .inl ⟨m, hs.field hw hm, rfl, rfl⟩⟩
  · split
    · next method hmethod =>
      have hmem := List.mem_of_getLast? hmethod
      refine .pure fun w hw ho => ⟨ho, .inr ⟨method, ?_, rfl, rfl⟩⟩
      exact hs.method hw hmem
    · exact .fail _ _

/-! ## Assignments -/

theorem variableTarget_typed (name : String) :
    (ctx.variableTarget name span).ChecksTarget ctx.outer := by
  unfold variableTarget
  refine .scope_bind fun s hs => ?_
  split
  · next b hb =>
    split
    · next hmode => exact .pure fun w hw => ⟨hmode, name, hs.registers_variable hw hb⟩
    · exact .fail _ _
  · split
    · exact .fail _ _
    · exact .fail _ _

theorem memberTarget_typed (name : String) (nameSpan : Span) (howner : owner.ChecksExpr outer) :
    (memberTarget owner name nameSpan).ChecksTarget outer := by
  unfold memberTarget
  refine howner.bind fun o => .get_bind fun s hs => ?_
  dsimp only
  split
  · next m hm =>
    split
    · next hmode => exact .pure fun w hw ho => ⟨hmode, ho, hs.field hw hm⟩
    · exact .fail _ _
  · split
    · exact .fail _ _
    · exact .fail _ _

theorem assign_typed {target : Check (Target × Slot Ty)} {value : Check TypedExpr}
    (valueSpan : Span) (htarget : target.ChecksTarget outer) (hvalue : value.ChecksExpr outer) :
    (assign target value valueSpan span).ChecksExpr outer := by
  unfold assign
  refine htarget.bind fun (target, slot) => hvalue.bind fun value => .expect_bind fun hfits => ?_
  exact .pure fun w hv ht => ⟨ht, hv, hfits⟩

/-! ## Operators -/

theorem operatorFunction_typed (operator : Token) (methods : List Overload)
    (operands : List TypedExpr) (owner : TypedExpr) :
    (ctx.operatorFunction operator methods operands owner span).Typed ctx.outer fun e w =>
      TypedExpr.AllWellTyped w operands → e.WellTyped w := by
  unfold operatorFunction
  refine .scope_bind fun s hs => ?_
  dsimp only
  split
  · next id f hf =>
    obtain ⟨hmem, hfit⟩ := mem_of_resolveOverload hf
    refine .pure fun w hw hoperands => ⟨⟨operatorName operator, f, ?_, hfit, rfl⟩, hoperands⟩
    exact hs.registers_function hw hmem rfl
  · split
    · exact .fail _ _
    · exact .fail _ _

theorem binary_typed (operator : Token) (hleft : left.ChecksExpr ctx.outer)
    (hright : right.ChecksExpr ctx.outer) :
    (ctx.binary operator left right span).ChecksExpr ctx.outer := by
  unfold binary
  refine hleft.bind fun left => hright.bind fun right => .get_bind fun s hs => ?_
  dsimp only
  split
  · next o ho =>
    obtain ⟨hmem, hfit⟩ := mem_of_resolveOverload ho
    exact .pure fun w hw hr hl => ⟨hl, hr, o, hs.method hw hmem, rfl, hfit, rfl⟩
  · -- no method takes the operand, so the operator has to be a function
    refine (operatorFunction_typed operator _ [left, right] left).mono fun e w he _ hr hl => ?_
    have hoperands : TypedExpr.AllWellTyped w [left, right] := ⟨hl, hr, trivial⟩
    exact he hoperands

theorem unary_typed (operator : Token) (hright : right.ChecksExpr ctx.outer) :
    (ctx.unary operator right span).ChecksExpr ctx.outer := by
  unfold unary
  refine hright.bind fun operand => .get_bind fun s hs => ?_
  dsimp only
  split
  · next o ho =>
    obtain ⟨hmem, hfit⟩ := mem_of_resolveOverload ho
    exact .pure fun w hw h => ⟨h, o, hs.method hw hmem, rfl, hfit, rfl⟩
  · refine (operatorFunction_typed operator _ [operand] operand).mono fun e w he _ h => ?_
    have hoperands : TypedExpr.AllWellTyped w [operand] := ⟨h, trivial⟩
    exact he hoperands

/-! ## Calls -/

theorem callValue_typed (callee : TypedExpr) (name : String)
    (harguments : arguments.Checked outer) :
    (callValue callee name arguments span).Typed outer fun e w =>
      callee.WellTyped w → e.WellTyped w := by
  unfold callValue
  split
  · exact .fail _ _
  · next f hf =>
    split
    · next hcount =>
      refine (harguments.into _ hcount).bind fun typed => .pure fun w htyped hcallee => ?_
      exact ⟨⟨hcallee, f, hf, htyped.2, rfl⟩, htyped.1⟩
    · exact .fail _ _

theorem callOverload_typed {overloads : List Overload} (name : String) (nameSpan : Span)
    {P : Setting → Prop} (harguments : arguments.Checked ctx.outer)
    (hoverloads : ∀ w, P w → ∀ o ∈ overloads, ∀ id, o.id? = some id →
      w.Registers id name ⟨.val, o.signature.type⟩) :
    (ctx.callOverload overloads name nameSpan arguments span).Typed ctx.outer fun e w =>
      P w → e.WellTyped w := by
  unfold callOverload
  split
  · exact .fail _ _
  · refine harguments.each.bind fun typed => ?_
    split
    · next id f hf =>
      obtain ⟨hmem, hfit⟩ := mem_of_resolveOverload hf
      refine .pure fun w htyped hw => ⟨⟨name, f, ?_, hfit, rfl⟩, htyped⟩
      exact hoverloads w hw _ hmem id rfl
    · exact .throw _

theorem callSymbol_typed (name : String) (nameSpan : Span)
    (harguments : arguments.Checked ctx.outer) :
    (ctx.callSymbol name nameSpan arguments span).ChecksExpr ctx.outer := by
  unfold callSymbol
  refine .scope_bind fun s hs => ?_
  split
  · next b hb =>
    refine (callValue_typed _ name harguments).mono fun e w he hw => he ?_
    exact hs.registers_variable hw hb
  · exact callOverload_typed name nameSpan harguments fun w hw o ho id hid =>
      hs.registers_function hw ho hid

theorem callMember_typed (name : String) (nameSpan calleeSpan : Span)
    (howner : owner.ChecksExpr outer) (harguments : arguments.Checked outer) :
    (callMember owner name nameSpan calleeSpan arguments span).ChecksExpr outer := by
  unfold callMember
  refine howner.bind fun receiver => .get_bind fun s hs => ?_
  dsimp only
  split
  · next m hm =>
    refine (callValue_typed _ name harguments).mono fun e w he hw hreceiver => he ?_
    exact ⟨hreceiver, .inl ⟨m, hs.field hw hm, rfl, rfl⟩⟩
  · split
    · exact .fail _ _
    · refine harguments.each.bind fun typed => ?_
      split
      · next o ho =>
        obtain ⟨hmem, hfit⟩ := mem_of_resolveOverload ho
        exact .pure fun w htyped hw hreceiver =>
          ⟨⟨hreceiver, o, hs.method hw hmem, rfl, hfit, rfl⟩, htyped⟩
      · exact .throw _

/-- The class is looked up in the same state as its parameters, so they are those it has in the end.
-/
theorem instantiate_typed (name : String) (harguments : arguments.Checked ctx.outer) :
    (ctx.instantiate name arguments span).ChecksExpr ctx.outer := by
  intro s hs
  unfold instantiate
  refine .scope_bind ?_
  split
  · exact .fail _ _
  · next type htype =>
    split
    · exact .fail _ _
    · next c hc =>
      have hcls : type = .cls c := by
        cases type with
        | cls c' =>
          cases hc
          rfl
        | _ => cases hc
      subst hcls
      refine .get_bind ?_
      dsimp only
      split
      · next hcount =>
        have hinto : (arguments.into (s.classes.info c).parameters).TypedFrom s ctx.outer
            fun es w => s.Within w ∧ TypedExpr.AllWellTyped w es ∧
              Fit (es.map fun e => e.type) (s.classes.info c).parameters :=
          (harguments.into _ hcount s hs).mono fun es w hw hes => ⟨hw, hes⟩
        refine hinto.bind fun typed => .pure fun w ⟨hw, hes, hfit⟩ => ⟨?_, rfl, hes⟩
        rw [hs.parameters hw htype]
        exact hfit
      · exact .fail _ _

end Context

end Nominal
