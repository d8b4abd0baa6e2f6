import Nominal.Proofs.Typing.Mirrors.Rendering

/-!
# Rules for expressions mirror them

One lemma for each rule, on the assumption that the parts of the expression are mirrored. A rule
fails at the span of the expression, of a name or an operator in it, or of a part that was checked.
-/

namespace Nominal

/-- Arguments that mirror `written` in both ways of checking them. -/
structure Arguments.Rendered (arguments : Arguments) (outer : Scope) (written : List Expr)
    (place : Span → Prop) : Prop where
  each : arguments.each.RendersExprs outer written place
  into : ∀ slots, slots.length = arguments.count →
    (arguments.into slots).RendersExprs outer written place

/-- The arguments of a call that no overload takes are at fault one by one, or all together. -/
theorem overloadMismatch_place {place : Span → Prop} (name : String) (overloads : List Overload)
    {arguments : List TypedExpr} {span : Span} (hspan : place span)
    (harguments : ∀ a ∈ arguments, place a.span) :
    place (overloadMismatch name overloads arguments span).span := by
  unfold overloadMismatch
  split
  · dsimp only
    split
    · next argument parameter hpair =>
      have hmem := List.mem_of_find?_eq_some hpair
      exact harguments argument (List.of_mem_zip hmem).1
    · exact hspan
  · exact hspan

namespace Context

open Check

variable {ctx : Context} {span nameSpan : Span} {outer : Scope} {place : Span → Prop}
  {owner left right : Check TypedExpr} {arguments : Arguments} {written : List Expr}
  {writtenOwner writtenLeft writtenRight writtenTarget writtenValue : Expr}

/-! ## Names -/

theorem symbol_renders (name : String) (hspan : place span) :
    (ctx.symbol name span).RendersExpr ctx.outer ⟨.symbol name, span⟩ place := by
  unfold symbol
  refine .scope_bind fun s hs => ?_
  split
  · next b hb =>
    refine .pure fun known hknown => ⟨.form (.symbol ?_), hspan⟩
    exact hs.known_variable hknown hb
  · split
    · next id f hf =>
      have hmem := List.mem_of_getLast? hf
      refine .pure fun known hknown => ⟨.form (.symbol ?_), hspan⟩
      exact hs.known_function hknown hmem
    · exact .fail _ hspan

theorem member_renders (name : String) (howner : owner.RendersExpr outer writtenOwner place)
    (hnameSpan : place nameSpan) (hspan : place span) :
    (member owner name nameSpan span).RendersExpr outer
      ⟨.member writtenOwner name nameSpan, span⟩ place := by
  unfold member
  refine howner.bind fun typedOwner _ => .get_bind fun s => ?_
  dsimp only
  split
  · exact .pure fun known howner => ⟨.form (.member howner.1), hspan⟩
  · split
    · exact .pure fun known howner => ⟨.form (.member howner.1), hspan⟩
    · exact .fail _ hnameSpan

/-! ## Assignments -/

theorem variableTarget_renders (name : String) (hspan : place span) :
    (ctx.variableTarget name span).RendersTarget ctx.outer ⟨.symbol name, span⟩ place := by
  unfold variableTarget
  refine .scope_bind fun s hs => ?_
  split
  · next b hb =>
    split
    · exact .pure fun known hknown => .binding (hs.known_variable hknown hb)
    · exact .fail _ hspan
  · split
    · exact .fail _ hspan
    · exact .fail _ hspan

theorem memberTarget_renders (name : String) (howner : owner.RendersExpr outer writtenOwner place)
    (hnameSpan : place nameSpan) :
    (memberTarget owner name nameSpan).RendersTarget outer
      ⟨.member writtenOwner name nameSpan, span⟩ place := by
  unfold memberTarget
  refine howner.bind fun typedOwner _ => .get_bind fun s => ?_
  dsimp only
  split
  · split
    · exact .pure fun known howner => .member howner.1
    · exact .fail _ hnameSpan
  · split
    · exact .fail _ hnameSpan
    · exact .fail _ hnameSpan

theorem assign_renders {target : Check (Target × Slot Ty)} {value : Check TypedExpr}
    {valueSpan : Span} (htarget : target.RendersTarget outer writtenTarget place)
    (hvalue : value.RendersExpr outer writtenValue place) (hvalueSpan : place valueSpan)
    (hspan : place span) :
    (assign target value valueSpan span).RendersExpr outer
      ⟨.assign writtenTarget writtenValue, span⟩ place := by
  unfold assign
  refine htarget.bind fun (typedTarget, slot) _ => hvalue.bind fun typedValue _ => ?_
  refine .expect_bind hvalueSpan (.pure fun known hv ht => ?_)
  exact ⟨.form (.assign ht hv.1), hspan⟩

/-! ## Operators -/

/-- An operator that is a function has become a call of it, with the operands as its arguments. -/
theorem operatorFunction_renders (operator : Token) (methods : List Overload)
    (operands : List TypedExpr) (owner : TypedExpr) (hoperator : place operator.span)
    (hspan : place span) :
    (ctx.operatorFunction operator methods operands owner span).Renders ctx.outer
      (fun typed known => ∃ decl type, known decl (operatorName operator) ∧
        typed = ⟨.call (.function decl) operands, type, span⟩) place := by
  unfold operatorFunction
  refine .scope_bind fun s hs => ?_
  dsimp only
  split
  · next id f hf =>
    obtain ⟨hmem, -⟩ := mem_of_resolveOverload hf
    refine .pure fun known hknown => ⟨id, _, ?_, rfl⟩
    exact hs.known_function hknown hmem
  · split
    · exact .fail _ hoperator
    · exact .fail _ hspan

theorem binary_renders (operator : Token) (hleft : left.RendersExpr ctx.outer writtenLeft place)
    (hright : right.RendersExpr ctx.outer writtenRight place) (hoperator : place operator.span)
    (hspan : place span) :
    (ctx.binary operator left right span).RendersExpr ctx.outer
      ⟨.binary writtenLeft operator writtenRight, span⟩ place := by
  unfold binary
  refine hleft.bind fun typedLeft _ => hright.bind fun typedRight _ => .get_bind fun s => ?_
  dsimp only
  split
  · exact .pure fun known hr hl => ⟨.form (.binary hl.1 hr.1), hspan⟩
  · -- no method of the left operand fits
    refine (operatorFunction_renders operator _ _ _ hoperator hspan).mono ?_
    rintro typed known ⟨decl, type, hname, rfl⟩ hr hl
    exact ⟨.form (.binaryCall hname hl.1 hr.1), hspan⟩

theorem unary_renders (operator : Token) (hright : right.RendersExpr ctx.outer writtenRight place)
    (hoperator : place operator.span) (hspan : place span) :
    (ctx.unary operator right span).RendersExpr ctx.outer ⟨.unary operator writtenRight, span⟩
      place := by
  unfold unary
  refine hright.bind fun operand _ => .get_bind fun s => ?_
  dsimp only
  split
  · exact .pure fun known h => ⟨.form (.unary h.1), hspan⟩
  · refine (operatorFunction_renders operator _ _ _ hoperator hspan).mono ?_
    rintro typed known ⟨decl, type, hname, rfl⟩ h
    exact ⟨.form (.unaryCall hname h.1), hspan⟩

/-! ## Calls -/

theorem callValue_renders (writtenCallee : Expr) (callee : TypedExpr) (name : String)
    (harguments : arguments.Rendered outer written place) (hcallee : place callee.span)
    (hspan : place span) :
    (callValue callee name arguments span).Renders outer
      (fun typed known => writtenCallee.Mirrors known callee →
        (⟨.call writtenCallee written, span⟩ : Expr).Mirrors known typed ∧ place typed.span)
      place := by
  unfold callValue
  split
  · exact .fail _ hcallee
  · split
    · next hcount =>
      -- there are as many slots as arguments, so none of these is left out
      refine (harguments.into _ hcount).bind fun typed _ => .pure fun known ha hmirrors => ?_
      exact ⟨.form (.call (.value hmirrors) ha.1), hspan⟩
    · exact .fail _ hspan

theorem callOverload_renders {overloads : List Overload} (name : String) {P : Naming → Prop}
    (harguments : arguments.Rendered ctx.outer written place)
    (hoverloads : ∀ known, P known → ∀ id f, (⟨some id, f⟩ : Overload) ∈ overloads →
      known id name)
    (hnameSpan : place nameSpan) (hspan : place span) :
    (ctx.callOverload overloads name nameSpan arguments span).Renders ctx.outer
      (fun typed known => P known →
        (⟨.call ⟨.symbol name, nameSpan⟩ written, span⟩ : Expr).Mirrors known typed ∧
          place typed.span)
      place := by
  unfold callOverload
  split
  · exact .fail _ hnameSpan
  · refine harguments.each.bind fun typed htyped => ?_
    split
    · next id f hf =>
      obtain ⟨hmem, -⟩ := mem_of_resolveOverload hf
      refine .pure fun known ha hknown => ⟨.form (.call (.function ?_) ha.1), hspan⟩
      exact hoverloads known hknown id f hmem
    · exact .throw (overloadMismatch_place name overloads hspan htyped.2)

theorem callSymbol_renders (name : String)
    (harguments : arguments.Rendered ctx.outer written place) (hnameSpan : place nameSpan)
    (hspan : place span) :
    (ctx.callSymbol name nameSpan arguments span).RendersExpr ctx.outer
      ⟨.call ⟨.symbol name, nameSpan⟩ written, span⟩ place := by
  unfold callSymbol
  refine .scope_bind fun s hs => ?_
  split
  · next b hb =>
    refine (callValue_renders ⟨.symbol name, nameSpan⟩ _ name harguments hnameSpan hspan).mono ?_
    intro typed known hmirrors hknown
    exact hmirrors (.form (.symbol (hs.known_variable hknown hb)))
  · refine callOverload_renders name harguments ?_ hnameSpan hspan
    intro known hknown id f hmem
    exact hs.known_function hknown hmem

theorem callMember_renders (name : String) {calleeSpan : Span}
    (howner : owner.RendersExpr outer writtenOwner place)
    (harguments : arguments.Rendered outer written place) (hnameSpan : place nameSpan)
    (hcalleeSpan : place calleeSpan) (hspan : place span) :
    (callMember owner name nameSpan calleeSpan arguments span).RendersExpr outer
      ⟨.call ⟨.member writtenOwner name nameSpan, calleeSpan⟩ written, span⟩ place := by
  unfold callMember
  refine howner.bind fun receiver _ => .get_bind fun s => ?_
  dsimp only
  split
  · refine (callValue_renders ⟨.member writtenOwner name nameSpan, calleeSpan⟩ _ name harguments
      hcalleeSpan hspan).mono ?_
    intro typed known hmirrors hreceiver
    exact hmirrors (.form (.member hreceiver.1))
  · split
    · exact .fail _ hnameSpan
    · refine harguments.each.bind fun typed htyped => ?_
      split
      · exact .pure fun known ha hreceiver => ⟨.form (.call (.method hreceiver.1) ha.1), hspan⟩
      · exact .throw (overloadMismatch_place name _ hspan htyped.2)

theorem instantiate_renders (name : String)
    (harguments : arguments.Rendered ctx.outer written place) (hspan : place span) :
    (ctx.instantiate name arguments span).RendersExpr ctx.outer ⟨.new name written, span⟩
      place := by
  unfold instantiate
  refine .scope_bind fun s hs => ?_
  split
  · exact .fail _ hspan
  · next type htype =>
    have hname := hs.name_of_findType? htype
    split
    · exact .fail _ hspan
    · next c hc =>
      -- the class that was found has the name that was looked up
      have hcname : c.name = name := by
        cases type with
        | cls c' =>
          cases hc
          exact hname
        | _ => cases hc
      subst hcname
      refine .get_bind fun t => ?_
      dsimp only
      split
      · next hcount =>
        refine (harguments.into _ hcount).bind fun typed _ => .pure fun known ha _ => ?_
        exact ⟨.form (.new ha.1), hspan⟩
      · exact .fail _ hspan

end Context

end Nominal
