import Nominal.Proofs.Renaming.Checks

/-!
# Expressions in two runs

The rules for expressions, each with the parts that follow each other. A rule looks names up,
compares types by name and chooses overloads, and none of this changes under a renaming; so the rules
go the same way in both runs, and what they put into the tree is renamed.
-/

namespace Nominal

open Check

variable {ρ : Renaming} {z : CheckState} {ctx : Context} {span : Span}
  {owner owner' left left' right right' : Check TypedExpr}

/-- Arguments that follow others, in both ways of checking them. -/
structure Arguments.Follow (ρ : Renaming) (z : CheckState) (arguments arguments' : Arguments) :
    Prop where
  count : arguments'.count = arguments.count
  each : Follows ρ z (List.map (TypedExpr.rename ρ)) arguments.each arguments'.each
  into : ∀ slots, Follows ρ z (List.map (TypedExpr.rename ρ)) (arguments.into slots)
    (arguments'.into (slots.map (Slot.rename ρ)))

variable {arguments arguments' : Arguments}

namespace Context

/-! ## Names -/

theorem symbol_follows (name : String) :
    Follows ρ z (TypedExpr.rename ρ) (ctx.symbol name span) ((ctx.rename ρ).symbol name span) := by
  unfold symbol
  refine .scope_bind fun scope => ?_
  rw [Scope.findVariable?_rename, Scope.findFunctions_rename, List.getLast?_map]
  cases scope.findVariable? name with
  | some b => exact .pure (by simp [Binding.rename])
  | none =>
    cases (scope.findFunctions name).getLast? with
    | none => exact .fail rfl span
    | some o =>
      obtain ⟨id?, f⟩ := o
      cases id? with
      | none => exact .fail rfl span
      | some id => exact .pure (by simp)

theorem member_follows (name : String) (nameSpan : Span)
    (howner : Follows ρ z (TypedExpr.rename ρ) owner owner') :
    Follows ρ z (TypedExpr.rename ρ) (member owner name nameSpan span)
      (member owner' name nameSpan span) := by
  unfold member
  refine howner.bind fun o => .get_bind fun s s' _ hclasses => ?_
  simp only [TypedExpr.type_rename, Slot.type_rename, hclasses.member?, hclasses.methods,
    List.getLast?_map]
  cases s.classes.member? o.type.type name with
  | some m => exact .pure (by simp [Member.rename])
  | none =>
    cases (s.classes.methods o.type.type name).getLast? with
    | none => exact .fail (by rw [Slot.name_rename]) nameSpan
    | some o => exact .pure (by simp [Overload.rename])

/-! ## Assignments -/

theorem variableTarget_follows (name : String) :
    Follows ρ z (Prod.map (Target.rename ρ) (Slot.rename ρ)) (ctx.variableTarget name span)
      ((ctx.rename ρ).variableTarget name span) := by
  unfold variableTarget
  refine .scope_bind fun scope => ?_
  rw [Scope.findVariable?_rename, Scope.findFunctions_rename]
  cases scope.findVariable? name with
  | some b =>
    by_cases hmode : b.type.mode = .var
    · simp only [Option.map_some, Binding.rename, Slot.mode_rename, hmode, ↓reduceIte]
      exact .pure rfl
    · simp only [Option.map_some, Binding.rename, Slot.mode_rename, hmode, ↓reduceIte]
      exact .fail rfl span
  | none =>
    simp only [Option.map_none, List.isEmpty_map]
    split
    · exact .fail rfl span
    · exact .fail rfl span

theorem memberTarget_follows (name : String) (nameSpan : Span)
    (howner : Follows ρ z (TypedExpr.rename ρ) owner owner') :
    Follows ρ z (Prod.map (Target.rename ρ) (Slot.rename ρ)) (memberTarget owner name nameSpan)
      (memberTarget owner' name nameSpan) := by
  unfold memberTarget
  refine howner.bind fun o => .get_bind fun s s' _ hclasses => ?_
  simp only [TypedExpr.type_rename, Slot.type_rename, hclasses.member?, hclasses.methods,
    List.isEmpty_map]
  cases s.classes.member? o.type.type name with
  | some m =>
    by_cases hmode : m.type.mode = .var
    · simp only [Option.map_some, Member.rename, Slot.mode_rename, hmode, ↓reduceIte]
      exact .pure (by simp)
    · simp only [Option.map_some, Member.rename, Slot.mode_rename, hmode, ↓reduceIte]
      exact .fail rfl nameSpan
  | none =>
    simp only [Option.map_none, Slot.name_rename]
    split
    · exact .fail rfl nameSpan
    · exact .fail rfl nameSpan

theorem assign_follows {target target' : Check (Target × Slot Ty)} {value value' : Check TypedExpr}
    (valueSpan : Span)
    (htarget : Follows ρ z (Prod.map (Target.rename ρ) (Slot.rename ρ)) target target')
    (hvalue : Follows ρ z (TypedExpr.rename ρ) value value') :
    Follows ρ z (TypedExpr.rename ρ) (assign target value valueSpan span)
      (assign target' value' valueSpan span) := by
  unfold assign
  refine htarget.bind fun (target, slot) => hvalue.bind fun value => ?_
  exact .expect_bind (.pure (by simp))

/-! ## Operators -/

theorem operatorFunction_follows (operator : Token) (methods : List Overload)
    (operands : List TypedExpr) (owner : TypedExpr) :
    Follows ρ z (TypedExpr.rename ρ) (ctx.operatorFunction operator methods operands owner span)
      ((ctx.rename ρ).operatorFunction operator (methods.map (Overload.rename ρ))
        (operands.map (TypedExpr.rename ρ)) (owner.rename ρ) span) := by
  unfold operatorFunction
  refine .scope_bind fun scope => ?_
  simp only [Scope.findFunctions_rename, TypedExpr.map_type_rename, resolveOverload_rename,
    List.isEmpty_map, noOverload_rename, TypedExpr.type_rename, Slot.name_rename]
  have hnone : Follows ρ z (TypedExpr.rename ρ)
      (if methods.isEmpty && (scope.findFunctions (operatorName operator)).isEmpty then
        Check.fail (.undefinedMember owner.type.name (operatorName operator)) operator.span
      else .fail (noOverload (operatorName operator) operands) span)
      (if methods.isEmpty && (scope.findFunctions (operatorName operator)).isEmpty then
        Check.fail (.undefinedMember owner.type.name (operatorName operator)) operator.span
      else .fail (noOverload (operatorName operator) operands) span) := by
    split
    · exact .fail rfl operator.span
    · exact .fail rfl span
  cases resolveOverload (scope.findFunctions (operatorName operator))
      (operands.map fun e => e.type) with
  | none => exact hnone
  | some o =>
    obtain ⟨id?, f⟩ := o
    cases id? with
    | none => exact hnone
    | some id => exact .pure (by simp)

theorem binary_follows (operator : Token)
    (hleft : Follows ρ z (TypedExpr.rename ρ) left left')
    (hright : Follows ρ z (TypedExpr.rename ρ) right right') :
    Follows ρ z (TypedExpr.rename ρ) (ctx.binary operator left right span)
      ((ctx.rename ρ).binary operator left' right' span) := by
  unfold binary
  refine hleft.bind fun left => hright.bind fun right => .get_bind fun s s' _ hclasses => ?_
  have hresolve (methods : List Overload) :
      resolveOverload (methods.map (Overload.rename ρ)) [right.type.rename ρ] =
        (resolveOverload methods [right.type]).map (Overload.rename ρ) :=
    resolveOverload_rename methods [right.type]
  simp only [TypedExpr.type_rename, Slot.type_rename, hclasses.methods, hresolve]
  cases resolveOverload (s.classes.methods left.type.type (operatorName operator))
      [right.type] with
  | some o => exact .pure (by simp [Overload.rename])
  | none => exact operatorFunction_follows operator _ [left, right] left

theorem unary_follows (operator : Token)
    (hoperand : Follows ρ z (TypedExpr.rename ρ) left left') :
    Follows ρ z (TypedExpr.rename ρ) (ctx.unary operator left span)
      ((ctx.rename ρ).unary operator left' span) := by
  unfold unary
  refine hoperand.bind fun operand => .get_bind fun s s' _ hclasses => ?_
  have hresolve (methods : List Overload) :
      resolveOverload (methods.map (Overload.rename ρ)) [] =
        (resolveOverload methods []).map (Overload.rename ρ) :=
    resolveOverload_rename methods []
  simp only [TypedExpr.type_rename, Slot.type_rename, hclasses.methods, hresolve]
  cases resolveOverload (s.classes.methods operand.type.type (operatorName operator)) [] with
  | some o => exact .pure (by simp [Overload.rename])
  | none => exact operatorFunction_follows operator _ [operand] operand

/-! ## Calls -/

theorem callValue_follows (callee : TypedExpr) (name : String) (span : Span)
    (harguments : arguments.Follow ρ z arguments') :
    Follows ρ z (TypedExpr.rename ρ) (callValue callee name arguments span)
      (callValue (callee.rename ρ) name arguments' span) := by
  unfold callValue
  simp only [TypedExpr.type_rename, Slot.type_rename, Ty.function?_rename, Slot.name_rename,
    TypedExpr.span_rename]
  cases callee.type.type.function? with
  | none => exact .fail rfl callee.span
  | some f =>
    simp only [Option.map_some, FnType.arity_rename, harguments.count]
    split
    · exact (harguments.into f.parameters).bind fun typed => .pure (by simp)
    · exact .fail rfl span

theorem callOverload_follows (overloads : List Overload) (name : String) (nameSpan : Span)
    (harguments : arguments.Follow ρ z arguments') :
    Follows ρ z (TypedExpr.rename ρ) (ctx.callOverload overloads name nameSpan arguments span)
      ((ctx.rename ρ).callOverload (overloads.map (Overload.rename ρ)) name nameSpan arguments'
        span) := by
  unfold callOverload
  rw [List.isEmpty_map]
  split
  · exact .fail rfl nameSpan
  · refine harguments.each.bind fun typed => ?_
    rw [TypedExpr.map_type_rename, resolveOverload_rename, overloadMismatch_rename]
    cases resolveOverload overloads (typed.map fun a => a.type) with
    | none => exact .throw rfl
    | some o =>
      obtain ⟨id?, f⟩ := o
      cases id? with
      | none => exact .throw rfl
      | some id => exact .pure (by simp)

theorem callSymbol_follows (name : String) (nameSpan : Span)
    (harguments : arguments.Follow ρ z arguments') :
    Follows ρ z (TypedExpr.rename ρ) (ctx.callSymbol name nameSpan arguments span)
      ((ctx.rename ρ).callSymbol name nameSpan arguments' span) := by
  unfold callSymbol
  refine .scope_bind fun scope => ?_
  rw [Scope.findVariable?_rename, Scope.findFunctions_rename]
  cases scope.findVariable? name with
  | none => exact callOverload_follows _ name nameSpan harguments
  | some b =>
    have hcall := callValue_follows ⟨.reference name b.id, b.type, nameSpan⟩ name span harguments
    simpa [Binding.rename] using hcall

theorem callMember_follows (name : String) (nameSpan calleeSpan : Span)
    (howner : Follows ρ z (TypedExpr.rename ρ) owner owner')
    (harguments : arguments.Follow ρ z arguments') :
    Follows ρ z (TypedExpr.rename ρ) (callMember owner name nameSpan calleeSpan arguments span)
      (callMember owner' name nameSpan calleeSpan arguments' span) := by
  unfold callMember
  refine howner.bind fun receiver => .get_bind fun s s' _ hclasses => ?_
  simp only [TypedExpr.type_rename, Slot.type_rename, hclasses.member?, hclasses.methods,
    List.isEmpty_map, Slot.name_rename]
  cases s.classes.member? receiver.type.type name with
  | some m =>
    have hcall := callValue_follows ⟨.member receiver name (some m.id), m.type, calleeSpan⟩ name
      span harguments
    simpa [Member.rename] using hcall
  | none =>
    simp only [Option.map_none]
    split
    · exact .fail rfl nameSpan
    · refine harguments.each.bind fun typed => ?_
      rw [TypedExpr.map_type_rename, resolveOverload_rename, overloadMismatch_rename]
      cases resolveOverload (s.classes.methods receiver.type.type name)
          (typed.map fun a => a.type) with
      | none => exact .throw rfl
      | some o => exact .pure (by simp [Overload.rename])

theorem instantiate_follows (name : String) (harguments : arguments.Follow ρ z arguments') :
    Follows ρ z (TypedExpr.rename ρ) (ctx.instantiate name arguments span)
      ((ctx.rename ρ).instantiate name arguments' span) := by
  unfold instantiate
  refine .scope_bind fun scope => ?_
  rw [Scope.findType?_rename]
  cases scope.findType? name with
  | none => exact .fail rfl span
  | some type =>
    simp only [Option.map_some, Ty.class?_rename]
    cases type.class? with
    | none => exact .fail rfl span
    | some c =>
      refine .get_bind fun s s' _ hclasses => ?_
      simp only [hclasses.info, ClassInfo.rename, List.length_map, harguments.count]
      split
      · exact (harguments.into _).bind fun typed => .pure (by simp)
      · exact .fail rfl span

end Context

end Nominal
