import Nominal.Proofs.Typing.Classes.Accepted
import Nominal.Proofs.Typing.Classes.Members
import Nominal.Proofs.Typing.Retained

/-!
# What a class is made of

What is known of a class is made of the parameters and the members that were accepted, in their
order, and of nothing else (`ClassInfo.Formed`). Each of them is checked against a frame, and the
class is entered without a check of its own; so a class keeps its form because the frame of the
members has the same methods, and together with that of the parameters the same fields
(`CheckState.FormsMembers`). The class itself is looked at in `ClassSite.check_ends`.
-/

namespace Nominal

/-- The field that something accepted became: it has its name, and the number and the type that are
in the registry. -/
def Accepted.IsField (a : Accepted String DeclId) (field : String × Member) : Prop :=
  field.1 = a.item ∧ field.2.id = a.value ∧
    ⟨a.value, a.item, field.2.type⟩ ∈ a.state.registry.entries

/-- The fields that parameters and members become. -/
def Accepted.fields (ps : List (Accepted Parameter DeclId)) (ms : List (Accepted Stmt TypedStmt)) :
    List (Accepted String DeclId) :=
  ps.map field ++ ms.filterMap field?

/-- What is known of the class is what comes of the parameters `ps` and the members `ms`. -/
structure ClassInfo.Formed (info : ClassInfo) (ps : List (Accepted Parameter DeclId))
    (ms : List (Accepted Stmt TypedStmt)) : Prop where
  fields : List.Forall₂ Accepted.IsField (Accepted.fields ps ms) info.members.entries
  distinct : ((Accepted.fields ps ms).map Accepted.item).Nodup
  parameters : info.parameters =
    (info.members.entries.take ps.length).map fun field => field.2.type
  methods : ∀ name, info.methods.get name = ms.filterMap (Accepted.overload? name)
  /-- No name is that of a field and of a method. -/
  apart : ∀ name, info.members.contains name = true → info.methods.get name = []
  uncovered : ∀ name, (info.methods.get name).Pairwise fun earlier later =>
    earlier.signature.covers later.signature = false

theorem Accepted.names_of_fields {fields : List (Accepted String DeclId)}
    {entries : List (String × Member)} (h : List.Forall₂ IsField fields entries) :
    fields.map Accepted.item = entries.map Prod.fst := by
  induction h with
  | nil => rfl
  | cons hfield _ ih => rw [List.map_cons, List.map_cons, hfield.1, ih]

/-- A table has no name twice. -/
theorem Accepted.nodup_of_fields {fields : List (Accepted String DeclId)} {members : Table Member}
    (h : List.Forall₂ IsField fields members.entries) : (fields.map Accepted.item).Nodup := by
  rw [names_of_fields h]
  exact members.nodup

/-- A member that is not a field adds none. -/
theorem Accepted.fields_concat_of_none (ps : List (Accepted Parameter DeclId))
    (ms : List (Accepted Stmt TypedStmt)) {a : Accepted Stmt TypedStmt} (h : a.field? = none) :
    fields ps (ms ++ [a]) = fields ps ms := by
  unfold fields
  rw [List.filterMap_append, List.filterMap_cons_none h, List.filterMap_nil, List.append_nil]

/-- A member that is not an overload of the name adds none. -/
theorem Accepted.overloads_concat_of_none (ms : List (Accepted Stmt TypedStmt)) {name : String}
    {a : Accepted Stmt TypedStmt} (h : a.overload? name = none) :
    (ms ++ [a]).filterMap (overload? name) = ms.filterMap (overload? name) := by
  rw [List.filterMap_append, List.filterMap_cons_none h, List.filterMap_nil, List.append_nil]

theorem ClassInfo.formed_new (name : String) : (ClassInfo.new name).Formed [] [] where
  fields := .nil
  distinct := .nil
  parameters := rfl
  methods _ := rfl
  apart _ _ := rfl
  uncovered _ := .nil

namespace ClassInfo.Formed

variable {info : ClassInfo} {ps : List (Accepted Parameter DeclId)}
  {ms : List (Accepted Stmt TypedStmt)} {name : String} {slot : Slot Ty}

/-- One more parameter, of a new name. -/
theorem addParameter (h : info.Formed ps []) {a : Accepted Parameter DeclId}
    (hnew : info.members.contains a.item.name = false)
    (hregistered : ⟨a.value, a.item.name, slot⟩ ∈ a.state.registry.entries) :
    ((info.addParameter slot).addMember a.item.name ⟨slot, a.value⟩).Formed (ps ++ [a]) [] := by
  have hentries : (info.members.insert a.item.name ⟨slot, a.value⟩).entries =
      info.members.entries ++ [(a.item.name, ⟨slot, a.value⟩)] :=
    Table.entries_insert_of_not_contains hnew
  have hfields : List.Forall₂ Accepted.IsField (Accepted.fields (ps ++ [a]) [])
      (info.members.insert a.item.name ⟨slot, a.value⟩).entries := by
    rw [hentries]
    unfold Accepted.fields
    rw [List.map_append, List.filterMap_nil, List.append_nil]
    have hbefore := h.fields
    unfold Accepted.fields at hbefore
    rw [List.filterMap_nil, List.append_nil] at hbefore
    exact List.rel_append hbefore (.cons ⟨rfl, rfl, hregistered⟩ .nil)
  have hlength : ps.length = info.members.entries.length := by
    simpa [Accepted.fields] using h.fields.length_eq
  refine ⟨hfields, Accepted.nodup_of_fields hfields, ?_, h.methods, fun name _ => h.methods name,
    h.uncovered⟩
  show info.parameters ++ [slot] =
    ((info.members.insert a.item.name ⟨slot, a.value⟩).entries.take _).map _
  rw [hentries, h.parameters, hlength, List.take_length, List.take_of_length_le (by simp [hlength]),
    List.map_append]
  rfl

/-- One more field, of a name that the class does not have. -/
theorem addField (h : info.Formed ps ms) {a : Accepted Stmt TypedStmt} {decl : DeclId}
    (hfield : a.field? = some ⟨name, decl, a.state⟩) (hoverload : ∀ name, a.overload? name = none)
    (hnew : info.members.contains name = false) (hfree : info.methods.get name = [])
    (hregistered : ⟨decl, name, slot⟩ ∈ a.state.registry.entries) :
    (info.addMember name ⟨slot, decl⟩).Formed ps (ms ++ [a]) := by
  have hentries : (info.members.insert name ⟨slot, decl⟩).entries =
      info.members.entries ++ [(name, ⟨slot, decl⟩)] :=
    Table.entries_insert_of_not_contains hnew
  have hfields : List.Forall₂ Accepted.IsField (Accepted.fields ps (ms ++ [a]))
      (info.members.insert name ⟨slot, decl⟩).entries := by
    rw [hentries]
    unfold Accepted.fields
    rw [List.filterMap_append, List.filterMap_cons_some hfield, List.filterMap_nil,
      ← List.append_assoc]
    exact List.rel_append h.fields (.cons ⟨rfl, rfl, hregistered⟩ .nil)
  refine ⟨hfields, Accepted.nodup_of_fields hfields, ?_, ?_, ?_, h.uncovered⟩
  · have hlength : ps.length ≤ info.members.entries.length := by
      rw [← h.fields.length_eq]
      simp [Accepted.fields]
    show info.parameters = ((info.members.insert name ⟨slot, decl⟩).entries.take _).map _
    rw [hentries, List.take_append_of_le_length hlength]
    exact h.parameters
  · intro other
    rw [Accepted.overloads_concat_of_none ms (hoverload other)]
    exact h.methods other
  · intro other hother
    by_cases hname : other = name
    · rw [hname]
      exact hfree
    · refine h.apart other ?_
      replace hother : (info.members.insert name ⟨slot, decl⟩).contains other = true := hother
      rw [Table.contains_iff, Table.names_insert, hnew] at hother
      rcases List.mem_append.1 hother with hold | hlast
      · exact Table.contains_iff.2 hold
      · exact absurd (List.mem_singleton.1 hlast) hname

/-- One more overload, of a name that is not that of a field, and that no earlier one covers. -/
theorem addOverload (h : info.Formed ps ms) {a : Accepted Stmt TypedStmt} {o : Overload}
    (hfield : a.field? = none)
    (hoverload : ∀ other, a.overload? other = if name = other then some o else none)
    (hnew : info.members.contains name = false)
    (huncovered : ∀ earlier ∈ info.methods.get name,
      earlier.signature.covers o.signature = false) :
    (info.addMethod name o).Formed ps (ms ++ [a]) := by
  have hsame := Accepted.fields_concat_of_none ps ms hfield
  have hget (other : String) : (info.addMethod name o).methods.get other =
      if name = other then info.methods.get name ++ [o] else info.methods.get other := by
    show (info.methods.add name o).get other = _
    split
    · next hname => rw [← hname, Methods.get_add_self]
    · next hname => exact Methods.get_add_of_ne fun heq => hname heq.symm
  refine ⟨hsame ▸ h.fields, hsame ▸ h.distinct, h.parameters, ?_, ?_, ?_⟩
  · intro other
    rw [hget]
    split
    · next hname =>
      rw [List.filterMap_append, ← h.methods other,
        List.filterMap_cons_some (by rw [hoverload, if_pos hname]), List.filterMap_nil, hname]
    · next hname =>
      rw [Accepted.overloads_concat_of_none ms (by rw [hoverload, if_neg hname])]
      exact h.methods other
  · intro other hother
    have hne : name ≠ other := by
      rintro rfl
      rw [show info.members.contains name = true from hother] at hnew
      cases hnew
    rw [hget, if_neg hne]
    exact h.apart other hother
  · intro other
    rw [hget]
    split
    · refine List.pairwise_append.2 ⟨h.uncovered name, List.pairwise_singleton _ _, ?_⟩
      intro earlier hearlier later hlater
      rw [List.mem_singleton.1 hlater]
      exact huncovered earlier hearlier
    · exact h.uncovered other

/-- A member that is neither a field nor a method. -/
theorem addOther (h : info.Formed ps ms) {a : Accepted Stmt TypedStmt} (hfield : a.field? = none)
    (hoverload : ∀ name, a.overload? name = none) : info.Formed ps (ms ++ [a]) := by
  have hsame := Accepted.fields_concat_of_none ps ms hfield
  refine ⟨hsame ▸ h.fields, hsame ▸ h.distinct, h.parameters, ?_, h.apart, h.uncovered⟩
  intro name
  rw [Accepted.overloads_concat_of_none ms (hoverload name)]
  exact h.methods name

end ClassInfo.Formed

theorem Stmt.nested_retains (stmt : Stmt) (ctx : Context) (s : CheckState) :
    (ctx.nested stmt.span stmt.check).Ends s (fun _ t => s.classes.classes <+: t.classes.classes)
      (fun _ t => s.classes.classes <+: t.classes.classes) := by
  rw [Context.ends_nested]
  split
  · exact stmt.check_retains _ s
  · exact List.prefix_refl _

/-! ## Parameters -/

namespace CheckState

/-- The class `c` is made of `ps` and `ms`. -/
def Forms (s : CheckState) (c : ClassRef) (ps : List (Accepted Parameter DeclId))
    (ms : List (Accepted Stmt TypedStmt)) : Prop :=
  ∃ info, s.classes.classes[c.key]? = some info ∧ info.name = c.name ∧ info.Formed ps ms

/-- The class `c` has the parameters `ps`, which are variables of the current frame, and no members
yet. -/
def FormsParameters (s : CheckState) (c : ClassRef) (ps : List (Accepted Parameter DeclId)) :
    Prop :=
  ∃ info, s.classes.classes[c.key]? = some info ∧ info.name = c.name ∧ info.Formed ps [] ∧
    ∀ name, info.members.contains name = true → s.frame.bindings.contains name = true

/-- The class `c` is made of the parameters `ps` and the members `ms`. Its methods are the functions
of the current frame, and its fields are named like parameters or like variables of the frame. -/
structure FormsMembers (s : CheckState) (c : ClassRef) (parameters : List Parameter)
    (ps : List (Accepted Parameter DeclId)) (ms : List (Accepted Stmt TypedStmt))
    (info : ClassInfo) : Prop where
  entry : s.classes.classes[c.key]? = some info
  name : info.name = c.name
  formed : info.Formed ps ms
  functions : ∀ name, s.frame.functions.get name = info.methods.get name
  fields : ∀ name, info.members.contains name = true →
    name ∈ parameters.map Parameter.name ∨ s.frame.bindings.contains name = true

/-- A class that was known before is the same as long as the classes only grew. -/
theorem getElem?_of_prefix {known : List ClassInfo} {t : CheckState} {key : Nat} {info : ClassInfo}
    (hinfo : known[key]? = some info) (h : known <+: t.classes.classes) :
    t.classes.classes[key]? = some info := by
  obtain ⟨later, hlater⟩ := h
  rw [← hlater, List.getElem?_append_left (List.getElem?_eq_some_iff.1 hinfo).1]
  exact hinfo

end CheckState

namespace Context

open Check

variable {ctx : Context} {c : ClassRef} {parameters : List Parameter}
  {ps : List (Accepted Parameter DeclId)} {ms : List (Accepted Stmt TypedStmt)}

/-- One more parameter. When it is refused, the class stays as it is. -/
theorem classParameter_forms (ctx : Context) (p : Parameter) {s : CheckState}
    (hs : s.FormsParameters c ps) :
    (ctx.classParameter c p).Ends s
      (fun id t => t.FormsParameters c (ps ++ [⟨p, id, t⟩]))
      (fun _ t => t.Forms c ps []) := by
  obtain ⟨info, hentry, hname, hformed, hframe⟩ := hs
  unfold classParameter
  rw [ends_bind]
  refine ((ctx.declareParameter_adds p s).and (ctx.declareParameter_keeps_classes p s)).mono ?_ ?_
  · rintro ⟨id, slot⟩ t ⟨⟨hdeclare, hregistered⟩, hclasses⟩
    rw [ends_bind, ends_updateClass]
    have hentry' : t.classes.classes[c.key]? = some info := by
      rw [show t.classes = s.classes from hclasses]
      exact hentry
    obtain ⟨hfree, -, hafter⟩ := Frame.declareVariable_eq_some hdeclare
    -- the frame refuses a name that is there already, and all fields are there
    have hnew : info.members.contains p.name = false := by
      rw [← Bool.not_eq_true]
      intro hold
      rw [hframe p.name hold] at hfree
      cases hfree
    refine ⟨_, ClassTable.getElem?_update_self hentry' _, hname,
      hformed.addParameter (a := ⟨p, id, _⟩) hnew hregistered, ?_⟩
    intro other hother
    replace hother : (info.members.insert p.name ⟨slot, id⟩).contains other = true := hother
    show t.frame.bindings.contains other = true
    rw [hafter, Table.contains_iff, Table.names_insert, hfree]
    rw [Table.contains_iff, Table.names_insert, hnew] at hother
    refine (List.mem_append.1 hother).elim (fun hold => ?_) (List.mem_append_right _)
    exact List.mem_append_left _ (Table.contains_iff.1 (hframe other (Table.contains_iff.2 hold)))
  · rintro d t ⟨-, hclasses⟩
    refine ⟨info, ?_, hname, hformed⟩
    rw [show t.classes = s.classes from hclasses]
    exact hentry

/-! ## Members -/

/-- A checked member is entered into the class, which has neither a field nor an equal method of its
name. -/
theorem enterMember_forms {stmt : Stmt} {typed : TypedStmt} {s t : CheckState} {info : ClassInfo}
    (hs : s.FormsMembers c parameters ps ms info) (hclasses : s.classes.classes <+: t.classes.classes)
    (hname : ∀ name nameSpan, stmt.memberName? = some (name, nameSpan) →
      name ∉ parameters.map Parameter.name)
    (hadds : stmt.Adds typed s t) :
    (ctx.enterMember c stmt typed).Ends t
      (fun _ u => ∃ info', u.FormsMembers c parameters ps (ms ++ [⟨stmt, typed, u⟩]) info')
      (fun _ _ => False) := by
  have hentry := CheckState.getElem?_of_prefix hs.entry hclasses
  obtain ⟨form, span⟩ := stmt
  obtain ⟨typedForm, typedSpan⟩ := typed
  -- a name that the frame does not have yet is that of no field
  have hnew {name : String} {nameSpan : Span} (hfree : s.frame.bindings.contains name = false)
      (hmember : Stmt.memberName? ⟨form, span⟩ = some (name, nameSpan)) :
      info.members.contains name = false := by
    rw [← Bool.not_eq_true]
    intro hold
    rcases hs.fields name hold with hparameter | hvariable
    · exact hname name nameSpan hmember hparameter
    · rw [hfree] at hvariable
      cases hvariable
  unfold enterMember
  cases form with
  | varDecl name nameSpan mode type? value? =>
    obtain ⟨decl, initializer?, type, hform, hdeclare, hregistered⟩ := hadds
    cases hform
    obtain ⟨hfree, hnofunction, hafter⟩ := Frame.declareVariable_eq_some hdeclare
    have hvariable : Scope.findVariable? (t.frame :: ctx.outer) name = some ⟨decl, type⟩ := by
      unfold Scope.findVariable?
      rw [List.findSome?_cons, Frame.find?_of_declareVariable hdeclare]
    simp only [Stmt.memberName?, ends_bind, ends_scope, hvariable, ends_updateClass]
    refine ⟨_, ClassTable.getElem?_update_self hentry _, hs.name, ?_, ?_, ?_⟩
    · refine hs.formed.addField rfl (fun _ => rfl) (hnew hfree rfl) ?_ hregistered
      rw [← hs.functions, Methods.get_of_not_contains hnofunction]
    · intro other
      show t.frame.functions.get other = _
      rw [hafter]
      exact hs.functions other
    · intro other hother
      replace hother : (info.members.insert name ⟨type, decl⟩).contains other = true := hother
      show _ ∨ t.frame.bindings.contains other = true
      rw [Table.contains_iff, Table.names_insert, hnew hfree rfl] at hother
      rw [hafter, Table.contains_iff, Table.names_insert, hfree]
      rcases List.mem_append.1 hother with hold | hlast
      · refine (hs.fields other (Table.contains_iff.2 hold)).imp id fun hvariable => ?_
        exact List.mem_append_left _ (Table.contains_iff.1 hvariable)
      · exact .inr (List.mem_append_right _ hlast)
  | fnDecl name nameSpan signature =>
    obtain ⟨decl, function, ids, stmts, hform, hdeclare⟩ := hadds
    cases hform
    have huncovered := Frame.uncovered_of_declareFunction hdeclare
    obtain ⟨hfree, hafter⟩ := Frame.declareFunction_eq_some hdeclare
    simp only [Stmt.memberName?, ends_updateClass]
    refine ⟨_, ClassTable.getElem?_update_self hentry _, hs.name, ?_, ?_, ?_⟩
    · refine hs.formed.addOverload rfl (fun _ => rfl) (hnew hfree rfl) ?_
      rw [← hs.functions]
      exact huncovered
    · intro other
      show t.frame.functions.get other = (info.methods.add name _).get other
      rw [hafter]
      by_cases hother : other = name
      · rw [hother, Methods.get_add_self, Methods.get_add_self, hs.functions]
      · rw [Methods.get_add_of_ne hother, Methods.get_add_of_ne hother, hs.functions]
    · intro other hother
      refine (hs.fields other hother).imp id fun hvariable => ?_
      show t.frame.bindings.contains other = true
      rw [hafter]
      exact hvariable
  | _ =>
    obtain ⟨hbindings, hfunctions⟩ := hadds
    refine ⟨info, hentry, hs.name, hs.formed.addOther rfl fun _ => rfl, ?_, ?_⟩
    · intro other
      rw [hfunctions]
      exact hs.functions other
    · intro other hother
      rw [hbindings]
      exact hs.fields other hother

/-- One more member. When it is refused, the class stays as it is. -/
theorem classMember_forms (ctx : Context) (stmt : Stmt) {s : CheckState}
    (hs : ∃ info, s.FormsMembers c parameters ps ms info) :
    (ctx.classMember c parameters stmt).Ends s
      (fun typed t => ∃ info, t.FormsMembers c parameters ps (ms ++ [⟨stmt, typed, t⟩]) info)
      (fun _ t => t.Forms c ps ms) := by
  obtain ⟨info, hs⟩ := hs
  have hretains := Retains.stepwise s.classes.classes
  have hkept (t : CheckState) (h : s.classes.classes <+: t.classes.classes) : t.Forms c ps ms :=
    ⟨info, CheckState.getElem?_of_prefix hs.entry h, hs.name, hs.formed⟩
  unfold classMember
  rw [ends_bind]
  refine ((expectNoParameter_ends parameters stmt s).and
    (hretains.expectNoParameter parameters stmt s (List.prefix_refl _))).mono ?_
    fun _ t ht => hkept t ht.2
  rintro - _ ⟨⟨rfl, hname⟩, -⟩
  rw [ends_bind]
  refine ((stmt.nested_adds ctx _).and
    (stmt.nested_retains ctx _)).mono ?_
    fun _ t ht => hkept t ht.2
  rintro typed t ⟨hadds, hclasses⟩
  rw [ends_bind]
  exact (enterMember_forms hs hclasses hname hadds).mono (fun _ _ hu => hu) fun _ _ h => h.elim

end Context

/-! ## The whole class -/

namespace ClassSite

open Check Context

/-- All parameters and all members are accepted. -/
structure IsComplete (site : ClassSite) : Prop where
  parameters : site.acceptedParameters.map Accepted.item = site.parameters
  members : site.acceptedMembers.map Accepted.item = site.members

variable (site : ClassSite)

/-- The parameters and the members of the class, from the state in which its name is declared. -/
theorem classBody_ends :
    ({ site.ctx with function? := none, className? := some site.name }.classBody site.ref
        site.parameters (Stmt.checkMembers site.members site.parameters site.ref)).Ends
      { site.declared with registry := site.declared.registry.begin, returned := false }
      (fun result t => t.Forms site.ref site.acceptedParameters site.acceptedMembers ∧
        site.IsComplete ∧ result =
          (site.acceptedParameters.map Accepted.value, site.acceptedMembers.map Accepted.value))
      (fun _ t => t.Forms site.ref site.acceptedParameters site.acceptedMembers ∧
        ¬ site.IsComplete) := by
  have hstart : site.declared.atClass.FormsParameters site.ref [] := by
    refine ⟨.new site.name, ?_, rfl, ClassInfo.formed_new _, fun _ h => ?_⟩
    · exact List.getElem?_concat_length
    · cases h
  have hparameters : (site.parameters.mapM (site.body.classParameter site.ref)).Ends
      site.declared.atClass
      (fun ids t => t.FormsParameters site.ref site.acceptedParameters ∧
        site.acceptedParameters.map Accepted.item = site.parameters ∧
        site.acceptedParameters.map Accepted.value = ids)
      (fun _ t => t.Forms site.ref site.acceptedParameters [] ∧
        site.acceptedParameters.length < site.parameters.length) :=
    mapM_accepted (fun ps s => s.FormsParameters site.ref ps) (fun ps s => s.Forms site.ref ps [])
      (fun ps p s hs => site.body.classParameter_forms p hs) site.parameters hstart
  unfold classBody inNewFrame
  rw [ends_inFrame, ends_bind]
  show (site.parameters.mapM (site.body.classParameter site.ref)).Ends site.declared.atClass _ _
  cases hrun : site.parameters.mapM (site.body.classParameter site.ref) site.declared.atClass with
  | error d t =>
    -- no member is looked at
    obtain ⟨hforms, hlt⟩ := hparameters.of_error hrun
    have hmembers : site.acceptedMembers = [] := by
      unfold acceptedMembers
      rw [hrun]
    unfold Ends
    rw [hrun, hmembers]
    refine ⟨hforms, fun hcomplete => ?_⟩
    have hlength := congrArg List.length hcomplete.parameters
    rw [List.length_map] at hlength
    exact absurd hlength (Nat.ne_of_lt hlt)
  | ok ids t =>
    obtain ⟨⟨info, hentry, hname, hformed, -⟩, hitems, hids⟩ := hparameters.of_ok hrun
    have hmembers : site.acceptedMembers =
        accepted ((site.body.inside t.frame).classMember site.ref site.parameters) site.members
          t.atBlock := by
      unfold acceptedMembers
      rw [hrun]
    -- the members start in an empty frame, when all fields are parameters
    have hempty : t.atBlock.FormsMembers site.ref site.parameters site.acceptedParameters []
        info := by
      refine ⟨hentry, hname, hformed, fun name => (hformed.methods name).symm, ?_⟩
      refine fun name h => .inl ?_
      have hfield : name ∈ (Accepted.fields site.acceptedParameters []).map Accepted.item := by
        rw [Accepted.names_of_fields hformed.fields]
        exact Table.contains_iff.1 h
      rw [← hitems]
      simpa [Accepted.fields, Accepted.field] using hfield
    have hrest := mapM_accepted
      (fun ms s => ∃ info, s.FormsMembers site.ref site.parameters site.acceptedParameters ms info)
      (fun ms s => s.Forms site.ref site.acceptedParameters ms)
      (fun ms stmt s hs => (site.body.inside t.frame).classMember_forms stmt hs) site.members
      ⟨info, hempty⟩
    rw [List.nil_append, ← hmembers, ← checkMembers_eq] at hrest
    unfold Ends
    rw [hrun]
    show (_ >>= _ : Check _).Ends t _ _
    rw [ends_bind, ends_inFrame]
    refine hrest.mono ?_ ?_
    · rintro stmts u ⟨⟨info', hu⟩, hmembers', hstmts⟩
      exact ⟨⟨info', hu.entry, hu.name, hu.formed⟩, ⟨hitems, hmembers'⟩, by rw [hids, hstmts]⟩
    · rintro d u ⟨hforms, hlt⟩
      refine ⟨hforms, fun hcomplete => ?_⟩
      have hlength := congrArg List.length hcomplete.members
      rw [List.length_map] at hlength
      exact absurd hlength (Nat.ne_of_lt hlt)

/-- Whichever way the declaration of a class ends, the class is made of the parameters and the
members that were accepted. The declaration succeeds exactly when these are all. -/
theorem check_ends (hnew : site.IsNew) (nameSpan span : Span) :
    (site.check nameSpan span).Ends site.before
      (fun typed t => t.Forms site.ref site.acceptedParameters site.acceptedMembers ∧
        site.IsComplete ∧ typed.form = .classDecl site.ref
          (site.acceptedParameters.map Accepted.value) (site.acceptedMembers.map Accepted.value))
      (fun _ t => t.Forms site.ref site.acceptedParameters site.acceptedMembers ∧
        ¬ site.IsComplete) := by
  show (site.ctx.classDecl site.name nameSpan site.parameters
    (Stmt.checkMembers site.members site.parameters) span).Ends _ _ _
  rw [classDecl_eq, ends_bind, ends_scope, hnew, if_neg (by simp), ends_bind]
  unfold declareClass
  rw [ends_modifyGet]
  dsimp only
  rw [ends_bind, ends_apart, ends_transaction]
  refine site.classBody_ends.mono ?_ fun _ _ h => h
  rintro result t ⟨hforms, hcomplete, rfl⟩
  exact ⟨hforms, hcomplete, rfl⟩

end ClassSite

end Nominal
