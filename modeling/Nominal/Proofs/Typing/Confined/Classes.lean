import Nominal.Proofs.Typing.Confined.Statements

/-!
# Classes keep types in scope

A class is entered under a name that was not known, and changes only while its own body is checked.
There no frame declares types but the one that the class stands in (`CheckState.Forming`), as long
as its members are variables and functions; so what a parameter or a member is of is in scope in
that frame as well, and can be entered into the class.
-/

namespace Nominal

/-- All types are in scope, and between the current frame and the one that declares the class `c`
there are no types. -/
structure CheckState.Forming (s : CheckState) (c : ClassRef) (outer : Scope) : Prop
    extends s.Contained outer where
  untyped : s.frame.types = ∅
  forms : Scope.Forms c outer

namespace CheckState.Forming

variable {s t : CheckState} {c : ClassRef} {outer : Scope}

theorem forms_inside (h : s.Forming c outer) : Scope.Forms c (s.frame :: outer) :=
  .inr ⟨h.untyped, h.forms⟩

/-- In a new frame inside the current one. -/
theorem inNewFrame (h : s.Forming c outer) :
    { s with frame := .empty }.Forming c (s.frame :: outer) :=
  ⟨h.toContained.inside (Frame.Fits.empty _ _), rfl, h.forms_inside⟩

/-- The types of the frame are what they were. -/
theorem later (h : s.Forming c outer) (ht : t.Contained outer)
    (htypes : t.frame.types = s.frame.types) : t.Forming c outer :=
  ⟨ht, htypes.trans h.untyped, h.forms⟩

/-- The class changes to what is in scope. -/
theorem updateClass (h : s.Forming c outer) {change : ClassInfo → ClassInfo}
    (hname : ∀ info, (change info).name = info.name)
    (hchange : ∀ info : ClassInfo, info.InScope (s.frame :: outer) →
      (change info).InScope (s.frame :: outer)) :
    { s with classes := s.classes.update c change }.Forming c outer :=
  ⟨h.toContained.updateClass h.forms_inside hname hchange, h.untyped, h.forms⟩

end CheckState.Forming

namespace Context

open Check

variable {ctx : Context} {name : String} {nameSpan span : Span} {c : ClassRef} {s : CheckState}

/-! ## Parameters and members -/

/-- A parameter that was declared is entered into the class. -/
theorem enterParameter_forming {declared : DeclId × Slot Ty} (p : Parameter)
    (hs : s.Forming c ctx.outer) (htype : declared.2.type.InScope (s.frame :: ctx.outer)) :
    { s with classes := s.classes.update c fun info =>
      (info.addParameter declared.2).addMember p.name ⟨declared.2, declared.1⟩ }.Forming c
        ctx.outer :=
  hs.updateClass (fun _ => rfl) fun _ hinfo => (hinfo.addParameter htype).addMember p.name htype

theorem classParameter_forming (p : Parameter) (hs : s.Forming c ctx.outer) :
    (ctx.classParameter c p).Ends s (fun _ t => t.Forming c ctx.outer)
      (fun _ t => t.Contained ctx.outer) := by
  unfold classParameter
  rw [ends_bind]
  refine Ends.mono (declareParameter_confined p hs.toContained) ?_ fun _ _ ht => ht
  rintro declared t ⟨ht, htypes, htype⟩
  rw [ends_bind, ends_updateClass]
  have hforming := hs.later ht htypes
  refine enterParameter_forming p hforming (htype.mono fun name type hfind => ?_)
  rwa [Scope.findType?_of_types_eq htypes]

theorem classParameters_forming (parameters : List Parameter) (hs : s.Forming c ctx.outer) :
    (parameters.mapM (ctx.classParameter c)).Ends s (fun _ t => t.Forming c ctx.outer)
      (fun _ t => t.Contained ctx.outer) := by
  induction parameters generalizing s with
  | nil => exact hs
  | cons p rest ih =>
    rw [List.mapM_cons, ends_bind]
    refine (classParameter_forming p hs).mono ?_ fun _ _ ht => ht
    intro id t ht
    rw [ends_bind]
    exact (ih ht).mono (fun ids u hu => hu) fun _ _ hu => hu

/-- A member that was checked is entered into the class. -/
theorem enterMember_forming {member : Stmt} {typed : TypedStmt} {before : Frame}
    (hs : s.Forming c ctx.outer) (hdeclares : member.Declares typed before s.frame) :
    (ctx.enterMember c member typed).Ends s (fun _ t => t.Forming c ctx.outer ∧ t.frame = s.frame)
      (fun _ t => t.Contained ctx.outer) := by
  obtain ⟨form, span⟩ := member
  obtain ⟨typedForm, typedSpan⟩ := typed
  unfold enterMember
  cases form with
  | varDecl name nameSpan mode type? value? =>
    obtain ⟨decl, initializer?, type, hform, -, hentries, -, -⟩ := hdeclares
    cases hform
    have hb := Table.find?_of_entries_append hentries
    have hvariable : Scope.findVariable? (s.frame :: ctx.outer) name = some ⟨decl, type⟩ := by
      unfold Scope.findVariable?
      rw [List.findSome?_cons, hb]
    have htype := hs.frames.variable hvariable
    simp only [Stmt.memberName?, ends_bind, ends_scope, hvariable]
    exact ⟨hs.updateClass (fun _ => rfl) fun _ hinfo => hinfo.addMember name htype, rfl⟩
  | fnDecl name nameSpan signature =>
    obtain ⟨decl, function, ids, stmts, hform, -, -, hself, -, -⟩ := hdeclares
    cases hform
    have hmem : ⟨some decl, function⟩ ∈ s.frame.functions.get name := by
      rw [hself]
      exact List.mem_append_right _ (List.mem_singleton.2 rfl)
    have htype := hs.frames.1.functions name _ hmem
    exact ⟨hs.updateClass (fun _ => rfl) fun _ hinfo => hinfo.addMethod name htype, rfl⟩
  | _ => exact ⟨hs, rfl⟩

theorem expectNoParameter_same (parameters : List Parameter) (member : Stmt) (s : CheckState) :
    (ctx.expectNoParameter parameters member).Ends s (fun _ t => t = s) (fun _ t => t = s) := by
  unfold expectNoParameter
  split
  · split
    · rfl
    · rfl
  · rfl

/-- A variable or a function adds no type to its frame. -/
theorem types_of_declares {member : Stmt} {typed : TypedStmt} {before after : Frame}
    (hmember : member.memberName?.isSome) (hdeclares : member.Declares typed before after) :
    after.types = before.types := by
  obtain ⟨form, span⟩ := member
  cases form with
  | varDecl name nameSpan mode type? value? =>
    obtain ⟨decl, initializer?, type, -, -, -, htypes, -⟩ := hdeclares
    exact htypes
  | fnDecl name nameSpan signature =>
    obtain ⟨decl, function, ids, stmts, -, -, htypes, -, -, -⟩ := hdeclares
    exact htypes
  | _ => cases hmember

/-- A member is checked, but not entered yet. -/
theorem nestedMember_forming {member : Stmt} (hname : member.memberName?.isSome)
    (hmember : ∀ ctx, (member.check ctx).Confined ctx.outer) (hs : s.Forming c ctx.outer) :
    (ctx.nested member.span member.check).Ends s
      (fun typed t => t.Forming c ctx.outer ∧ member.Declares typed s.frame t.frame)
      (fun _ t => t.Contained ctx.outer) := by
  rw [ends_nested]
  split
  · have hconfined := hmember { ctx with depth := ctx.depth + 1 } s hs.toContained
    refine Ends.mono (Ends.and hconfined (member.check_frame _ s)) ?_ fun _ _ ht => ht.1
    rintro typed t ⟨⟨ht, -⟩, hdeclares⟩
    exact ⟨hs.later ht (types_of_declares hname hdeclares), hdeclares⟩
  · exact hs.toContained

/-- The members of a class, of which each is a variable or a function. -/
theorem checkMembers_forming (parameters : List Parameter) {members : List Stmt}
    (hmembers : ∀ member ∈ members, member.memberName?.isSome ∧
      ∀ ctx, (member.check ctx).Confined ctx.outer) (hs : s.Forming c ctx.outer) :
    (Stmt.checkMembers members parameters c ctx).ConfinedFrom s ctx.outer fun _ _ => True := by
  induction members generalizing s with
  | nil => exact .pure hs.toContained trivial
  | cons member rest ih =>
    rw [List.forall_mem_cons] at hmembers
    rw [Stmt.checkMembers]
    unfold ConfinedFrom
    rw [ends_bind]
    refine (expectNoParameter_same parameters member s).mono ?_ fun _ _ ht => ht ▸ hs.toContained
    rintro - _ rfl
    rw [ends_bind]
    refine (nestedMember_forming hmembers.1.1 hmembers.1.2 hs).mono ?_ fun _ _ ht => ht
    rintro typed t ⟨ht, hdeclares⟩
    rw [ends_bind]
    refine (enterMember_forming ht hdeclares).mono ?_ fun _ _ hu => hu
    rintro - u ⟨hu, -⟩
    exact (ih hmembers.2 hu).bind fun stmts v hv _ => .pure hv trivial

/-! ## The whole class -/

/-- A new class, which stands in the current frame. -/
theorem declareClass_confined (hs : s.Contained ctx.outer) (hplain : Ty.IsPlain name)
    (hnew : Scope.findType? (s.frame :: ctx.outer) name = none) :
    (declareClass name).Ends s
      (fun c t => t.Contained ctx.outer ∧ Scope.Forms c (t.frame :: ctx.outer))
      (fun _ _ => False) := by
  have hdeclare := Frame.declareType_of_unknown hnew (.cls (s.classes.declare name).1)
  unfold declareClass
  rw [ends_modifyGet]
  show CheckState.Contained { s with
      classes := (s.classes.declare name).2
      frame := (s.frame.declareType name (.cls (s.classes.declare name).1)).getD s.frame } _ ∧
    Scope.Forms (s.classes.declare name).1
      ((s.frame.declareType name (.cls (s.classes.declare name).1)).getD s.frame :: ctx.outer)
  rw [hdeclare]
  exact ⟨hs.declareClass hplain hnew hdeclare, .inl (Table.find?_insert_self _ _ _)⟩

/-- The parameters and the members of a class that stands in the current frame. -/
theorem classBody_confined (ctx : Context) (parameters : List Parameter) {members : List Stmt}
    (hmembers : ∀ member ∈ members, member.memberName?.isSome ∧
      ∀ ctx, (member.check ctx).Confined ctx.outer)
    (hs : s.Contained ctx.outer) (hforms : Scope.Forms c (s.frame :: ctx.outer)) :
    (ctx.classBody c parameters (Stmt.checkMembers members parameters c)).ConfinedFrom s ctx.outer
      fun _ t => t.frame = s.frame := by
  have hstart : { s with frame := .empty }.Forming c (s.frame :: ctx.outer) :=
    ⟨hs.inside (Frame.Fits.empty _ _), rfl, hforms⟩
  unfold classBody inNewFrame
  refine .inFrame (Q := fun _ _ => True) hs ?_
  unfold ConfinedFrom
  rw [ends_bind]
  refine (classParameters_forming parameters hstart).mono ?_ fun _ _ ht => ht
  intro ids t ht
  rw [ends_bind, ends_inFrame]
  refine Ends.mono (checkMembers_forming parameters hmembers ht.inNewFrame) ?_ ?_
  · exact fun stmts u hu => ⟨ht.toContained.outside hu.1, trivial⟩
  · exact fun d u hu => ht.toContained.outside hu

theorem classDecl_confined (parameters : List Parameter) {members : List Stmt}
    (hplain : Ty.IsPlain name)
    (hmembers : ∀ member ∈ members, member.memberName?.isSome ∧
      ∀ ctx, (member.check ctx).Confined ctx.outer) :
    (ctx.classDecl name nameSpan parameters (Stmt.checkMembers members parameters) span).Confined
      ctx.outer := by
  intro s hs
  rw [classDecl_eq]
  unfold ConfinedFrom
  rw [ends_bind, ends_scope]
  split
  · exact hs
  · next hunknown =>
    rw [ends_bind]
    have hnew := Option.not_isSome_iff_eq_none.1 hunknown
    refine (declareClass_confined hs hplain hnew).mono ?_ fun _ _ h => h.elim
    rintro c t ⟨ht, hforms⟩
    dsimp only
    rw [ends_bind, ends_apart, ends_transaction]
    have hstart := (ht.setReturned false).begin
    refine Ends.mono (classBody_confined { ctx with function? := none, className? := some name }
      parameters hmembers hstart hforms) ?_ ?_
    · exact fun result u hu => ⟨hu.1.of_eq rfl rfl, trivial⟩
    · exact fun d u hu => hu.of_eq rfl rfl

end Context

end Nominal
