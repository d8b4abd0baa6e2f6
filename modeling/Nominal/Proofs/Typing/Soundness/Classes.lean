import Nominal.Proofs.Typing.FrameEffect
import Nominal.Proofs.Typing.Soundness.Statements

/-!
# Classes are well typed

A class is entered into the table before anything is known of it. Its parameters come first and are
complete before the first member is checked (`Context.classParameters_ends`). From then on it only
grows (`CheckState.EvolvesIn`): a member brings a new field, since its name is neither that of a
parameter nor that of another member (`CheckState.Builds`), or one more overload of a method.
-/

namespace Nominal

/-! ## The class that is being checked -/

/-- The state `t` comes later, and meanwhile the classes grew; those before `c` did not change. -/
structure CheckState.EvolvesIn (c : ClassRef) (s t : CheckState) : Prop where
  entries : s.registry.entries ⊆ t.registry.entries
  earlier : s.classes.classes.take c.key <+: t.classes.classes
  classes : s.classes.Grows t.classes

/-- The class `c` has no fields but its parameters and the variables of the current frame. -/
def CheckState.Builds (s : CheckState) (c : ClassRef) (parameters : List Parameter) : Prop :=
  ∃ info, s.classes.classes[c.key]? = some info ∧
    ∀ name m, info.members.find? name = some m →
      name ∈ parameters.map Parameter.name ∨ s.frame.bindings.contains name = true

namespace CheckState

variable {s t u : CheckState} {outer : Scope} {c : ClassRef} {w : Setting}

/-- Classes that are known already do not change. -/
theorem Evolves.getElem? (h : s.Evolves t) {key : Nat} {info : ClassInfo}
    (hinfo : s.classes.classes[key]? = some info) : t.classes.classes[key]? = some info := by
  obtain ⟨later, hlater⟩ := h.classes
  rw [← hlater, List.getElem?_append_left (List.getElem?_eq_some_iff.1 hinfo).1]
  exact hinfo

theorem Evolves.inClass (h : s.Evolves t) (c : ClassRef) : s.EvolvesIn c t :=
  ⟨h.entries, (List.take_prefix _ _).trans h.classes, .of_extends h.classes⟩

theorem EvolvesIn.trans (hst : s.EvolvesIn c t) (htu : t.EvolvesIn c u) : s.EvolvesIn c u where
  entries _ h := htu.entries (hst.entries h)
  earlier :=
    (List.prefix_take_iff.2 ⟨hst.earlier, List.length_take_le _ _⟩).trans htu.earlier
  classes := hst.classes.trans htu.classes

theorem EvolvesIn.within (h : s.EvolvesIn c t) (ht : t.Within w) : s.Within w :=
  ⟨fun d hd => ht.registry d (h.entries hd), h.classes.trans ht.classes⟩

/-- What a class declares may change as long as it is registered. -/
theorem Sound.updateClass (hs : s.Sound outer) {f : ClassInfo → ClassInfo}
    (hf : ∀ info, info.Sound s.registry.entries → (f info).Sound s.registry.entries) :
    { s with classes := s.classes.update c f }.Sound outer where
  frames g hg := by
    show g.Sound s.registry.entries (s.classes.update c f).classes.length
    rw [ClassTable.length_update]
    exact hs.frames g hg
  classes info hinfo := by
    obtain ⟨key, hkey⟩ := List.getElem?_of_mem hinfo
    by_cases hc : c.key = key
    · subst hc
      cases hbefore : s.classes.classes[c.key]? with
      | none =>
        -- the table has as many classes as before
        have hlt := (List.getElem?_eq_some_iff.1 hkey).1
        rw [ClassTable.length_update] at hlt
        rw [List.getElem?_eq_getElem hlt] at hbefore
        cases hbefore
      | some before =>
        rw [ClassTable.getElem?_update_self hbefore] at hkey
        cases hkey
        exact hf before (hs.classes before (List.mem_of_getElem? hbefore))
    · rw [ClassTable.getElem?_update_of_ne hc] at hkey
      exact hs.classes info (List.mem_of_getElem? hkey)

end CheckState

theorem ClassInfo.Sound.addMember {info : ClassInfo} {entries : List Declaration}
    (h : info.Sound entries) {name : String} {m : Member} (hm : ⟨m.id, name, m.type⟩ ∈ entries) :
    (info.addMember name m).Sound entries :=
  ⟨Table.forall_insert h.members hm, h.methods⟩

theorem ClassInfo.Sound.addMethod {info : ClassInfo} {entries : List Declaration}
    (h : info.Sound entries) {name : String} {o : Overload} (ho : o.DeclaredIn entries name) :
    (info.addMethod name o).Sound entries :=
  ⟨h.members, Methods.forall_add h.methods ho⟩

/-- A field of a new name. -/
theorem ClassInfo.grows_addMember {info : ClassInfo} {name : String} (m : Member)
    (hname : info.members.find? name = none) : info.Grows (info.addMember name m) := by
  refine ⟨rfl, ?_, fun _ _ h => h⟩
  intro other m' hm'
  have hne : other ≠ name := by
    rintro rfl
    rw [hname] at hm'
    cases hm'
  show (info.members.insert name m).find? other = some m'
  rw [Table.find?_insert_of_ne hne]
  exact hm'

theorem ClassInfo.grows_addMethod (info : ClassInfo) (name : String) (o : Overload) :
    info.Grows (info.addMethod name o) := by
  refine ⟨rfl, fun _ _ h => h, ?_⟩
  intro other o' ho'
  show o' ∈ (info.methods.add name o).get other
  by_cases hother : other = name
  · subst hother
    rw [Methods.get_add_self]
    exact List.mem_append_left _ ho'
  · rw [Methods.get_add_of_ne hother]
    exact ho'

/-- Changing one class leaves those before it alone. -/
theorem ClassTable.prefix_update {t : ClassTable} {c : ClassRef} {earlier : List ClassInfo}
    (h : earlier <+: t.classes) (hc : earlier.length ≤ c.key) (f : ClassInfo → ClassInfo) :
    earlier <+: (t.update c f).classes := by
  rw [List.prefix_iff_getElem?] at h ⊢
  intro i hi
  rw [ClassTable.getElem?_update_of_ne (by omega)]
  exact h i hi

namespace Context

open Check

variable {ctx : Context} {name : String} {nameSpan span : Span} {c : ClassRef}

/-! ## Parameters -/

theorem declareParameter_keeps_classes (ctx : Context) (p : Parameter) :
    (ctx.declareParameter p).Keeps CheckState.classes :=
  ctx.declareParameter_keeps (fun _ _ _ => rfl) p

/-- One more parameter, which is a field as well. -/
theorem classParameter_ends (p : Parameter) {s : CheckState} (hs : s.Sound ctx.outer) :
    (ctx.classParameter c p).Ends s
      (fun id t => t.Sound ctx.outer ∧ s.registry.entries ⊆ t.registry.entries ∧
        ∃ slot, t.classes = s.classes.update c
            (fun info => (info.addParameter slot).addMember p.name ⟨slot, id⟩) ∧
          ⟨id, p.name, slot⟩ ∈ t.registry.entries)
      (fun _ _ => True) := by
  unfold classParameter
  rw [ends_bind]
  refine ((declareParameter_ends p hs).and (ctx.declareParameter_keeps_classes p s)).mono ?_
    fun _ _ _ => trivial
  rintro ⟨id, slot⟩ t ⟨⟨ht, hevolves, hmem⟩, hclasses⟩
  rw [ends_bind, ends_updateClass]
  refine ⟨?_, hevolves.entries, slot, by rw [← hclasses], hmem⟩
  refine ht.updateClass fun info hinfo => ClassInfo.Sound.addMember ?_ hmem
  exact ⟨hinfo.members, hinfo.methods⟩

/-- All parameters: they are those that the class knows from then on. -/
theorem classParameters_ends (ctx : Context) (parameters : List Parameter) {s : CheckState}
    (hs : s.Sound ctx.outer) {earlier : List ClassInfo} (hearlier : earlier <+: s.classes.classes)
    (hlength : earlier.length ≤ c.key) {info : ClassInfo}
    (hinfo : s.classes.classes[c.key]? = some info) :
    (parameters.mapM (ctx.classParameter c)).Ends s
      (fun ids t => t.Sound ctx.outer ∧ s.registry.entries ⊆ t.registry.entries ∧
        earlier <+: t.classes.classes ∧
        ∃ slots info', t.classes.classes[c.key]? = some info' ∧
          info'.parameters = info.parameters ++ slots ∧
          (∀ name m, info'.members.find? name = some m →
            (∃ m', info.members.find? name = some m') ∨ name ∈ parameters.map Parameter.name) ∧
          List.Forall₂ (fun id slot => ∃ name, ⟨id, name, slot⟩ ∈ t.registry.entries) ids slots)
      (fun _ _ => True) := by
  induction parameters generalizing s info with
  | nil =>
    refine ⟨hs, List.Subset.refl _, hearlier, [], info, hinfo, ?_, ?_, .nil⟩
    · rw [List.append_nil]
    · exact fun name m hm => .inl ⟨m, hm⟩
  | cons p rest ih =>
    rw [List.mapM_cons, ends_bind]
    refine (classParameter_ends p hs).mono ?_ fun _ _ _ => trivial
    rintro id t ⟨ht, hentries, slot, hclasses, hmem⟩
    -- the classes before `c` are as they were, and `c` has the parameter
    have hearlier' : earlier <+: t.classes.classes := by
      rw [hclasses]
      exact ClassTable.prefix_update hearlier hlength _
    have hinfo' : t.classes.classes[c.key]? =
        some ((info.addParameter slot).addMember p.name ⟨slot, id⟩) := by
      rw [hclasses]
      exact ClassTable.getElem?_update_self hinfo _
    rw [ends_bind]
    refine (ih ht hearlier' hinfo').mono ?_ fun _ _ _ => trivial
    rintro ids u ⟨hu, hentries', hearlier'', slots, info', hinfo'', hparameters, hmembers, hids⟩
    have hslots := List.Forall₂.cons ⟨p.name, hentries' hmem⟩ hids
    have hall : s.registry.entries ⊆ u.registry.entries := fun _ h => hentries' (hentries h)
    refine ⟨hu, hall, hearlier'', slot :: slots, info', hinfo'', ?_, ?_, hslots⟩
    · rw [hparameters]
      exact List.append_assoc info.parameters [slot] slots
    · intro name m hm
      rcases hmembers name m hm with ⟨m', hm'⟩ | hrest
      · replace hm' : (info.members.insert p.name ⟨slot, id⟩).find? name = some m' := hm'
        rw [Table.find?_insert] at hm'
        split at hm'
        · next hname =>
          rw [hname]
          exact .inr List.mem_cons_self
        · exact .inl ⟨m', hm'⟩
      · exact .inr (List.mem_cons_of_mem _ hrest)

/-! ## Members -/

/-- A member that has the name of a parameter is refused. -/
theorem expectNoParameter_ends (parameters : List Parameter) (member : Stmt) (s : CheckState) :
    (ctx.expectNoParameter parameters member).Ends s
      (fun _ t => t = s ∧ ∀ name nameSpan, member.memberName? = some (name, nameSpan) →
        name ∉ parameters.map Parameter.name)
      (fun _ _ => True) := by
  unfold expectNoParameter
  split
  · next name nameSpan hname =>
    split
    · trivial
    · next hfree =>
      refine ⟨rfl, fun other otherSpan hother hmem => hfree ?_⟩
      rw [hname] at hother
      cases hother
      obtain ⟨p, hp, hpname⟩ := List.mem_map.1 hmem
      exact List.any_eq_true.2 ⟨p, hp, by simp [hpname]⟩
  · next hname =>
    refine ⟨rfl, fun other otherSpan hother => ?_⟩
    rw [hname] at hother
    cases hother

/-- The members that were checked before stay fields when the frame keeps its variables. -/
theorem builds_of_frame {parameters : List Parameter} {s t : CheckState}
    (hs : s.Builds c parameters) (hevolves : s.Evolves t)
    (hframe : ∀ name, s.frame.bindings.contains name = true →
      t.frame.bindings.contains name = true) :
    t.Builds c parameters := by
  obtain ⟨info, hinfo, hmembers⟩ := hs
  exact ⟨info, hevolves.getElem? hinfo, fun name m hm => (hmembers name m hm).imp id (hframe name)⟩

/-- A variable becomes a field. -/
theorem enterField_ends {parameters : List Parameter} {t : CheckState} (ht : t.Sound ctx.outer)
    (hbuilds : t.Builds c parameters) {b : Binding} (hb : t.frame.bindings.find? name = some b)
    (hnew : ∀ info, t.classes.classes[c.key]? = some info → info.members.find? name = none) :
    (updateClass c fun info => info.addMember name ⟨b.type, b.id⟩).Ends t
      (fun _ u => u.Sound ctx.outer ∧ t.EvolvesIn c u ∧ u.Builds c parameters)
      (fun _ _ => True) := by
  obtain ⟨info, hinfo, hmembers⟩ := hbuilds
  rw [ends_updateClass]
  refine ⟨?_, ⟨List.Subset.refl _, ?_, ?_⟩, _, ClassTable.getElem?_update_self hinfo _, ?_⟩
  · exact ht.updateClass fun info h => h.addMember (ht.frame.bindings name b hb)
  · exact ClassTable.prefix_update (List.take_prefix _ _) (List.length_take_le _ _) _
  · exact .of_update fun info' hinfo' => ClassInfo.grows_addMember _ (hnew info' hinfo')
  · exact Table.forall_insert hmembers (.inr (Table.contains_of_find? hb))

/-- A function becomes a method. -/
theorem enterMethod_ends {parameters : List Parameter} {t : CheckState} (ht : t.Sound ctx.outer)
    (hbuilds : t.Builds c parameters) {o : Overload} (ho : o ∈ t.frame.functions.get name) :
    (updateClass c fun info => info.addMethod name o).Ends t
      (fun _ u => u.Sound ctx.outer ∧ t.EvolvesIn c u ∧ u.Builds c parameters)
      (fun _ _ => True) := by
  obtain ⟨info, hinfo, hmembers⟩ := hbuilds
  rw [ends_updateClass]
  refine ⟨?_, ⟨List.Subset.refl _, ?_, ?_⟩, _, ClassTable.getElem?_update_self hinfo _, hmembers⟩
  · exact ht.updateClass fun info h => h.addMethod (ht.frame.functions name o ho)
  · exact ClassTable.prefix_update (List.take_prefix _ _) (List.length_take_le _ _) _
  · exact .of_update fun info' _ => info'.grows_addMethod name o

/-- A checked member is entered under a name that is new to the class, or as one more overload. -/
theorem enterMember_ends {parameters : List Parameter} {member : Stmt} {typed : TypedStmt}
    {s t : CheckState} (hs : s.Builds c parameters) (hevolves : s.Evolves t)
    (ht : t.Sound ctx.outer)
    (hname : ∀ name nameSpan, member.memberName? = some (name, nameSpan) →
      name ∉ parameters.map Parameter.name)
    (hframe : member.Declares typed s.frame t.frame) :
    (ctx.enterMember c member typed).Ends t
      (fun _ u => u.Sound ctx.outer ∧ t.EvolvesIn c u ∧ u.Builds c parameters)
      (fun _ _ => True) := by
  obtain ⟨form, span⟩ := member
  obtain ⟨typedForm, typedSpan⟩ := typed
  unfold enterMember
  cases form with
  | varDecl name nameSpan mode type? value? =>
    obtain ⟨decl, initializer?, type, hform, -, hentries, -, -⟩ := hframe
    cases hform
    have hb := Table.find?_of_entries_append hentries
    have hvariable : Scope.findVariable? (t.frame :: ctx.outer) name = some ⟨decl, type⟩ := by
      unfold Scope.findVariable?
      rw [List.findSome?_cons, hb]
    have hbuilds := builds_of_frame hs hevolves fun _ h =>
      Table.contains_of_entries_append hentries h
    simp only [Stmt.memberName?, ends_bind, ends_scope, hvariable]
    refine enterField_ends ht hbuilds hb fun info hinfo => ?_
    -- the class did not change while the member was checked
    obtain ⟨before, hbefore, hmembers⟩ := hs
    have hsame := hevolves.getElem? hbefore
    rw [hinfo] at hsame
    cases hsame
    cases hfind : info.members.find? name with
    | none => rfl
    | some m =>
      -- a field would be that of a parameter or of an earlier member
      rcases hmembers name m hfind with hparameter | hvariable
      · exact absurd hparameter (hname name nameSpan rfl)
      · rw [Table.not_contains_of_entries_append hentries] at hvariable
        cases hvariable
  | fnDecl name nameSpan signature =>
    obtain ⟨decl, function, ids, stmts, hform, hbindings, -, hself, -, -⟩ := hframe
    cases hform
    refine enterMethod_ends ht (builds_of_frame hs hevolves fun _ h => hbindings ▸ h) ?_
    rw [hself]
    exact List.mem_append_right _ (List.mem_singleton.2 rfl)
  | classDecl name nameSpan ps members =>
    obtain ⟨_, _, _, -, hbindings, -, -⟩ := hframe
    exact ⟨ht, (CheckState.Evolves.refl t).inClass c,
      builds_of_frame hs hevolves fun _ h => hbindings ▸ h⟩
  | _ =>
    refine ⟨ht, (CheckState.Evolves.refl t).inClass c, builds_of_frame hs hevolves fun _ h => ?_⟩
    rw [show t.frame = s.frame from hframe]
    exact h

/-- What is asked of the check of the members of `c`, one after the other. -/
abbrev ChecksMembers (members : Context → Check (List TypedStmt)) (c : ClassRef)
    (parameters : List Parameter) : Prop :=
  ∀ ctx s, ctx.function? = none → s.Sound ctx.outer → s.Builds c parameters →
    (members ctx).Ends s
      (fun stmts t => t.Sound ctx.outer ∧ s.EvolvesIn c t ∧
        ∀ w, t.Within w → TypedStmt.AllWellTyped w stmts none)
      (fun _ _ => True)

theorem checkMembers_nil (c : ClassRef) (parameters : List Parameter) :
    ChecksMembers (fun _ => return []) c parameters :=
  fun _ s _ hs _ => ⟨hs, (CheckState.Evolves.refl s).inClass c, fun _ _ => trivial⟩

theorem checkMembers_cons {parameters : List Parameter} {member : Stmt}
    {rest : Context → Check (List TypedStmt)}
    (hmember : ∀ ctx, (member.check ctx).ChecksStmt ctx.outer ctx.function?)
    (hrest : ChecksMembers rest c parameters) :
    ChecksMembers (fun ctx => do
      ctx.expectNoParameter parameters member
      let typed ← ctx.nested member.span member.check
      ctx.enterMember c member typed
      return typed :: (← rest ctx)) c parameters := by
  intro ctx s hctx hs hbuilds
  have hframe : (ctx.nested member.span member.check).Ends s
      (fun typed t => member.Declares typed s.frame t.frame) (fun _ _ => True) := by
    rw [ends_nested]
    split
    · exact (member.check_frame _ s).mono (fun _ _ h => h) fun _ _ _ => trivial
    · trivial
  -- the three steps of one member, then the members after it
  rw [ends_bind]
  refine (expectNoParameter_ends parameters member s).mono ?_ fun _ _ _ => trivial
  rintro - s' ⟨hsame, hname⟩
  rw [hsame, ends_bind]
  refine (Ends.and (nested_typed hmember s hs) hframe).mono ?_ fun _ _ _ => trivial
  rintro typed t ⟨⟨ht, hevolves, htyped⟩, hdeclares⟩
  rw [ends_bind]
  refine (enterMember_ends hbuilds hevolves ht hname hdeclares).mono ?_ fun _ _ _ => trivial
  rintro - u ⟨hu, hentered, hbuilds'⟩
  rw [ends_bind]
  refine (hrest ctx u hctx hu hbuilds').mono ?_ fun _ _ _ => trivial
  rintro stmts v ⟨hv, hlater, hstmts⟩
  have hfirst := hentered.trans hlater
  have hall := (hevolves.inClass c).trans hfirst
  refine ⟨hv, hall, fun w hw => ⟨?_, hstmts w hw⟩⟩
  -- the member was typed in a state that the last one has grown out of
  have hwithin := hfirst.within hw
  rw [← hctx]
  exact htyped w hwithin

/-! ## The whole class -/

/-- A new class, whose name stands in the current frame. -/
theorem declareClass_ends {outer : Scope} {s : CheckState} (hs : s.Sound outer) :
    (declareClass name).Ends s
      (fun c t => t.Sound outer ∧ s.registry.entries ⊆ t.registry.entries ∧
        c.key = s.classes.classes.length ∧
        t.classes.classes = s.classes.classes ++ [.new name])
      (fun _ _ => True) := by
  have hlength : (s.classes.declare name).2.classes.length = s.classes.classes.length + 1 :=
    List.length_append
  have hcount : s.classes.classes.length ≤ (s.classes.declare name).2.classes.length := by omega
  have hkey : (s.classes.declare name).1.key < (s.classes.declare name).2.classes.length := by
    show s.classes.classes.length < _
    omega
  unfold declareClass
  rw [ends_modifyGet]
  refine ⟨⟨?_, ?_⟩, List.Subset.refl _, rfl, rfl⟩
  · intro f hf
    rcases List.mem_cons.1 hf with rfl | houter
    · have hframe := hs.frame.mono (List.Subset.refl _) hcount
      dsimp only
      cases hdeclare : s.frame.declareType name (.cls (s.classes.declare name).1) with
      | none => exact hframe
      | some frame => exact hframe.declareType hdeclare hkey
    · exact (hs.frames f (List.mem_cons_of_mem _ houter)).mono (List.Subset.refl _) hcount
  · intro info hinfo
    rcases List.mem_append.1 hinfo with hold | hnew
    · exact hs.classes info hold
    · rw [List.mem_singleton.1 hnew]
      exact ClassInfo.sound_new name _

/-- The parameters and the members of a new class. -/
theorem classBody_ends (ctx : Context) (parameters : List Parameter)
    {members : Context → Check (List TypedStmt)}
    (hmembers : ChecksMembers members c parameters) (hctx : ctx.function? = none) {s : CheckState}
    (hs : s.Sound ctx.outer) {earlier : List ClassInfo} (hkey : c.key = earlier.length)
    (hclasses : s.classes.classes = earlier ++ [.new name]) :
    (ctx.classBody c parameters members).Ends s
      (fun result t => t.Sound ctx.outer ∧ s.registry.entries ⊆ t.registry.entries ∧
        earlier <+: t.classes.classes ∧
        ∀ w, t.Within w → w.RegistersAll result.1 (w.classes.info c).parameters ∧
          TypedStmt.AllWellTyped w result.2 none)
      (fun _ _ => True) := by
  have hearlier : earlier <+: s.classes.classes := hclasses ▸ List.prefix_append _ _
  have hinfo : s.classes.classes[c.key]? = some (.new name) := by
    rw [hclasses, hkey]
    exact List.getElem?_concat_length
  unfold classBody inNewFrame
  rw [ends_inFrame, ends_bind]
  refine (classParameters_ends { ctx with outer := s.frame :: ctx.outer } parameters
    (hs.inside (Frame.sound_empty _ _)) hearlier (Nat.le_of_eq hkey.symm) hinfo).mono ?_
    fun _ _ _ => trivial
  rintro ids t ⟨ht, hentries, hearlier', slots, info, hinfo', hparameters, hfields, hids⟩
  -- the members start in an empty frame, when all fields are parameters
  have hbuilds : ({ t with frame := .empty } : CheckState).Builds c parameters := by
    refine ⟨info, hinfo', fun name m hm => .inl ?_⟩
    rcases hfields name m hm with ⟨m', hm'⟩ | hparameter
    · cases hm'
    · exact hparameter
  rw [ends_bind, ends_inFrame]
  refine (hmembers { ctx with outer := t.frame :: s.frame :: ctx.outer } _ hctx
    (ht.inside (Frame.sound_empty _ _)) hbuilds).mono ?_ fun _ _ _ => trivial
  rintro stmts u ⟨hu, hevolves, hstmts⟩
  have hall : s.registry.entries ⊆ u.registry.entries := fun _ h => hevolves.entries (hentries h)
  refine ⟨hu.outside.outside, hall, ?_, fun w hw => ⟨?_, ?_⟩⟩
  · have hbefore : earlier <+: t.classes.classes.take c.key :=
      List.prefix_take_iff.2 ⟨hearlier', Nat.le_of_eq hkey.symm⟩
    exact hbefore.trans hevolves.earlier
  · -- the parameters of the class are the same ever after
    have hgrows : t.classes.Grows w.classes := hevolves.classes.trans hw.classes
    rw [hgrows.parameters (List.getElem?_eq_some_iff.1 hinfo').1,
      ClassTable.info_of_getElem? hinfo', hparameters]
    refine hids.imp fun id slot ⟨name, hmem⟩ => ⟨name, ?_⟩
    exact hw.registry _ (hevolves.entries hmem)
  · exact hstmts w ⟨hw.registry, hw.classes⟩

theorem classDecl_typed (parameters : List Parameter)
    {members : ClassRef → Context → Check (List TypedStmt)} {function? : Option FnType}
    (hmembers : ∀ c, ChecksMembers (members c) c parameters) :
    (ctx.classDecl name nameSpan parameters members span).ChecksStmt ctx.outer function? := by
  intro s hs
  rw [classDecl_eq]
  refine .scope_bind ?_
  split
  · exact .fail _ _
  · unfold TypedFrom
    rw [ends_bind]
    refine (declareClass_ends hs).mono ?_ fun _ _ _ => trivial
    rintro c t ⟨ht, hentries, hkey, hclasses⟩
    dsimp only
    rw [ends_bind, ends_apart, ends_transaction]
    -- the body starts in a transaction, where nothing has returned
    have hstart := (ht.setReturned false).begin
    refine (classBody_ends { ctx with function? := none, className? := some name } parameters
      (hmembers c) rfl hstart hkey hclasses).mono ?_ fun _ _ _ => trivial
    rintro ⟨ids, stmts⟩ u ⟨hu, hentries', hearlier, htyped⟩
    refine ⟨hu.of_entries_eq rfl rfl (by simp), ⟨?_, hearlier⟩,
      fun w hw => htyped w ⟨?_, hw.classes⟩⟩
    · intro d hd
      simpa using hentries' (by simpa using hentries hd)
    · simpa using hw.registry

end Context

end Nominal
