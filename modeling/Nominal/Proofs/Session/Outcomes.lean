import Nominal.Proofs.Session.Dangling
import Nominal.Proofs.Syntax.Spans
import Nominal.Proofs.Typing.Mirrors.Trees

/-!
# Outcomes of statements

A session that checks a program has one outcome for each statement, in order (`Tallies`): a typed
statement that mirrors it, or a diagnostic that stands at one of its spans (`Session.Named.checkAll`).
From this follow the two results on whole programs.

* The statements of a program that was parsed stand on consecutive stretches of the tokens. What is
  accepted keeps its span, and what is reported covers tokens of the statement that was rejected, so
  nothing points into another statement or out of the source (`Session.check_outcomes`).
* What is accepted mirrors what was written, and the numbers in it that replace names are those of
  committed declarations of these names (`Session.check_mirrors`).
-/

namespace Nominal

/-! ## One outcome for each -/

/-- Each of the items is accepted and gives a typed statement, or is rejected and gives a diagnostic,
one after the other. -/
inductive Tallies {α : Type} (accepted : α → TypedStmt → Prop) (rejected : α → Diagnostic → Prop) :
    List α → List TypedStmt → List Diagnostic → Prop
  | nil : Tallies accepted rejected [] [] []
  | accept {a : α} {typed : TypedStmt} {as : List α} {stmts : List TypedStmt}
    {diagnostics : List Diagnostic} (h : accepted a typed)
    (hrest : Tallies accepted rejected as stmts diagnostics) :
    Tallies accepted rejected (a :: as) (typed :: stmts) diagnostics
  | reject {a : α} {d : Diagnostic} {as : List α} {stmts : List TypedStmt}
    {diagnostics : List Diagnostic} (h : rejected a d)
    (hrest : Tallies accepted rejected as stmts diagnostics) :
    Tallies accepted rejected (a :: as) stmts (d :: diagnostics)

namespace Tallies

variable {α β : Type} {accepted : α → TypedStmt → Prop} {rejected : α → Diagnostic → Prop}
  {accepted' : β → TypedStmt → Prop} {rejected' : β → Diagnostic → Prop} {as : List α}
  {stmts : List TypedStmt} {diagnostics : List Diagnostic}

theorem length (h : Tallies accepted rejected as stmts diagnostics) :
    stmts.length + diagnostics.length = as.length := by
  induction h with
  | nil => rfl
  | accept _ _ ih =>
    simp only [List.length_cons]
    omega
  | reject _ _ ih =>
    simp only [List.length_cons]
    omega

theorem map {f : α → β} (h : Tallies accepted rejected as stmts diagnostics)
    (haccepted : ∀ a ∈ as, ∀ typed, accepted a typed → accepted' (f a) typed)
    (hrejected : ∀ a ∈ as, ∀ d, rejected a d → rejected' (f a) d) :
    Tallies accepted' rejected' (as.map f) stmts diagnostics := by
  induction h with
  | nil => exact .nil
  | @accept a typed as stmts diagnostics ha hrest ih =>
    refine .accept (haccepted a List.mem_cons_self typed ha) ?_
    exact ih (fun b hb => haccepted b (List.mem_cons_of_mem a hb))
      fun b hb => hrejected b (List.mem_cons_of_mem a hb)
  | @reject a d as stmts diagnostics ha hrest ih =>
    refine .reject (hrejected a List.mem_cons_self d ha) ?_
    exact ih (fun b hb => haccepted b (List.mem_cons_of_mem a hb))
      fun b hb => hrejected b (List.mem_cons_of_mem a hb)

theorem mono {accepted' : α → TypedStmt → Prop} {rejected' : α → Diagnostic → Prop}
    (h : Tallies accepted rejected as stmts diagnostics)
    (haccepted : ∀ a ∈ as, ∀ typed, accepted a typed → accepted' a typed)
    (hrejected : ∀ a ∈ as, ∀ d, rejected a d → rejected' a d) :
    Tallies accepted' rejected' as stmts diagnostics := by
  have hmapped := h.map (f := id) haccepted hrejected
  rwa [List.map_id] at hmapped

theorem exists_rejected (h : Tallies accepted rejected as stmts diagnostics) :
    ∀ d ∈ diagnostics, ∃ a ∈ as, rejected a d := by
  induction h with
  | nil => exact fun _ hd => nomatch hd
  | accept _ _ ih =>
    intro d hd
    obtain ⟨a, ha, hrejected⟩ := ih d hd
    exact ⟨a, List.mem_cons_of_mem _ ha, hrejected⟩
  | reject hfirst _ ih =>
    intro d hd
    rcases List.mem_cons.1 hd with rfl | hrest
    · exact ⟨_, List.mem_cons_self, hfirst⟩
    · obtain ⟨a, ha, hrejected⟩ := ih d hrest
      exact ⟨a, List.mem_cons_of_mem _ ha, hrejected⟩

theorem exists_accepted (h : Tallies accepted rejected as stmts diagnostics) :
    ∀ typed ∈ stmts, ∃ a ∈ as, accepted a typed := by
  induction h with
  | nil => exact fun _ htyped => nomatch htyped
  | accept hfirst _ ih =>
    intro typed htyped
    rcases List.mem_cons.1 htyped with rfl | hrest
    · exact ⟨_, List.mem_cons_self, hfirst⟩
    · obtain ⟨a, ha, haccepted⟩ := ih typed hrest
      exact ⟨a, List.mem_cons_of_mem _ ha, haccepted⟩
  | reject _ _ ih =>
    intro typed htyped
    obtain ⟨a, ha, haccepted⟩ := ih typed htyped
    exact ⟨a, List.mem_cons_of_mem _ ha, haccepted⟩

/-- Both lists are in the order of the items. -/
theorem pairwise {R : α → α → Prop} {S : TypedStmt → TypedStmt → Prop}
    {S' : Diagnostic → Diagnostic → Prop} (h : Tallies accepted rejected as stmts diagnostics)
    (has : as.Pairwise R)
    (haccepted : ∀ a b typed typed', R a b → accepted a typed → accepted b typed' → S typed typed')
    (hrejected : ∀ a b d d', R a b → rejected a d → rejected b d' → S' d d') :
    stmts.Pairwise S ∧ diagnostics.Pairwise S' := by
  induction h with
  | nil => exact ⟨.nil, .nil⟩
  | accept hfirst hrest ih =>
    obtain ⟨hbefore, hpairs⟩ := List.pairwise_cons.1 has
    obtain ⟨hstmts, hdiagnostics⟩ := ih hpairs
    refine ⟨List.pairwise_cons.2 ⟨fun typed htyped => ?_, hstmts⟩, hdiagnostics⟩
    obtain ⟨b, hb, hlater⟩ := hrest.exists_accepted typed htyped
    exact haccepted _ b _ typed (hbefore b hb) hfirst hlater
  | reject hfirst hrest ih =>
    obtain ⟨hbefore, hpairs⟩ := List.pairwise_cons.1 has
    obtain ⟨hstmts, hdiagnostics⟩ := ih hpairs
    refine ⟨hstmts, List.pairwise_cons.2 ⟨fun d hd => ?_, hdiagnostics⟩⟩
    obtain ⟨b, hb, hlater⟩ := hrest.exists_rejected d hd
    exact hrejected _ b _ d (hbefore b hb) hfirst hlater

end Tallies

/-! ## Sessions whose names are known -/

/-- Any place will do. -/
theorem Stmt.all_layout (stmt : Stmt) : stmt.layout.All fun _ => True :=
  Layout.all_of_forall (fun _ => trivial) stmt.layout

/-- A statement that fails leaves the names of the frame as they were. -/
theorem Frame.Named.of_spares {before after : Frame} {entries : List Declaration} {stmt : Stmt}
    (h : before.Named entries) (hspares : stmt.Spares before after) (htitled : after.Titled) :
    after.Named entries := by
  obtain ⟨count, hsound⟩ := h.sound
  obtain ⟨hbindings, hfunctions, htypes⟩ := hspares
  have hbound : ∃ count', ∀ name c, after.types.find? name = some (.cls c) → c.key < count' := by
    rcases htypes with hsame | ⟨name, _, _, _, c, -, hentries⟩
    · rw [hsame]
      exact ⟨count, hsound.types⟩
    · -- the class that is left is one more than those from before
      refine ⟨max count (c.key + 1), fun other c' hc' => ?_⟩
      have hmem := Table.find?_eq_some.1 hc'
      rw [hentries, List.mem_append] at hmem
      rcases hmem with hold | hnew
      · have hlt := hsound.types other c' (Table.find?_eq_some.2 hold)
        omega
      · cases List.mem_singleton.1 hnew
        omega
  obtain ⟨count', hkeys⟩ := hbound
  refine ⟨⟨count', ?_, ?_, hkeys⟩, htitled⟩
  · rw [hbindings]
    exact hsound.bindings
  · rw [hfunctions]
    exact hsound.functions

theorem Frame.named_root (entries : List Declaration) : Frame.root.Named entries where
  sound := ⟨0, sound_root entries 0⟩
  titled name type h := by
    have hmem := Table.find?_eq_some.1 h
    have hentries : Frame.root.types.entries =
        [("Int", .int), ("Bool", .bool), ("String", .string), ("Nothing", .nothing)] := rfl
    rw [hentries] at hmem
    simp only [List.mem_cons, Prod.mk.injEq, List.not_mem_nil, or_false] at hmem
    rcases hmem with ⟨rfl, rfl⟩ | ⟨rfl, rfl⟩ | ⟨rfl, rfl⟩ | ⟨rfl, rfl⟩
    all_goals rfl

namespace Session

/-- What holds between statements of the root frame and of the registry. -/
structure Named (s : Session) : Prop where
  settled : s.Settled
  layers : s.state.registry.layers = []
  state : s.state.Named []

theorem named_new (limit : Nat) : (new limit).Named where
  settled := settled_new limit
  layers := rfl
  state f hf := by
    rw [List.mem_singleton.1 hf]
    exact Frame.named_root _

variable {s : Session} {stmt : Stmt}

/-! ## One statement -/

/-- A statement is accepted and mirrored, or it is reported at one of its spans. -/
theorem Named.nested (hs : s.Named) {place : Span → Prop} (hplace : stmt.layout.All place) :
    (s.context.nested stmt.span stmt.check).Ends s.state
      (fun typed t => t.Named [] ∧ s.state.registry.entries ⊆ t.registry.entries ∧
        ∀ known, t.Tells known → stmt.Mirrors known typed)
      (fun d t => t.Named [] ∧ s.state.registry.entries ⊆ t.registry.entries ∧ place d.span) := by
  have hrenders := nestedStmt_renders s.context hplace fun ctx =>
    stmt.check_renders ctx hplace
  refine (((hrenders s.state hs.state).and (nested_frame hs.settled stmt)).and
    (nested_evolves hs.layers stmt)).mono (fun typed t h => h.1.1) ?_
  -- a failure says nothing of the frame, but the statement leaves it as it was
  rintro d t ⟨⟨⟨hspan, htitled⟩, hspares⟩, hevolves⟩
  refine ⟨fun f hf => ?_, hevolves.entries, hspan⟩
  rw [List.mem_singleton.1 hf]
  exact (hs.state.frame.of_spares hspares htitled).mono hevolves.entries

/-- The outcome of one statement, as far as it is told by what is known of the numbers in the end. -/
theorem Named.checkStmt (hs : s.Named) {place : Span → Prop} (hplace : stmt.layout.All place) :
    (s.checkStmt stmt).2.Named ∧
      s.state.registry.entries ⊆ (s.checkStmt stmt).2.state.registry.entries ∧
      ((∃ typed, (s.checkStmt stmt).1 = some typed ∧ (s.checkStmt stmt).2.report = s.report ∧
          ∀ known, (s.checkStmt stmt).2.state.Tells known → stmt.Mirrors known typed) ∨
        ∃ d, (s.checkStmt stmt).1 = none ∧ (s.checkStmt stmt).2.report = s.report ++ [d] ∧
          place d.span) := by
  have hsettled := hs.settled.checkStmt stmt
  have hlayers := checkStmt_layers_nil hs.layers stmt
  obtain ⟨typed, t, hrun, ht, hentries, hmirrors⟩ | ⟨d, t, hrun, ht, hentries, hspan⟩ :=
    checkStmt_ends (hs.nested hplace)
  · rw [hrun] at hsettled hlayers ⊢
    exact ⟨⟨hsettled, hlayers, ht⟩, hentries, .inl ⟨typed, rfl, rfl, hmirrors⟩⟩
  · rw [hrun] at hsettled hlayers ⊢
    exact ⟨⟨hsettled, hlayers, ht⟩, hentries, .inr ⟨d, rfl, rfl, hspan⟩⟩

/-! ## All statements -/

/-- The outcomes of statements, which come with what is known of their places. -/
theorem Named.checkAll (hs : s.Named) {α : Type} (stmtOf : α → Stmt) {place : α → Span → Prop}
    (items : List α) (hplace : ∀ a ∈ items, (stmtOf a).layout.All (place a)) :
    let checked := s.checkAll (items.map stmtOf)
    checked.2.Named ∧ s.state.registry.entries ⊆ checked.2.state.registry.entries ∧
      ∃ diagnostics, checked.2.report = s.report ++ diagnostics ∧
        ∀ known, checked.2.state.Tells known →
          Tallies (fun a typed => (stmtOf a).Mirrors known typed) (fun a d => place a d.span) items
            checked.1 diagnostics := by
  induction items generalizing s with
  | nil =>
    refine ⟨hs, List.Subset.refl _, [], ?_, fun known _ => .nil⟩
    rw [List.append_nil]
    rfl
  | cons a rest ih =>
    obtain ⟨ha, hrest⟩ := List.forall_mem_cons.1 hplace
    obtain ⟨hnamed, hentries, houtcome⟩ := hs.checkStmt ha
    obtain ⟨hlast, hentries', diagnostics, hreport, htallies⟩ := ih hnamed hrest
    dsimp only
    rw [List.map_cons, checkAll_cons]
    refine ⟨hlast, fun _ h => hentries' (hentries h), ?_⟩
    obtain ⟨typed, hsome, hsame, hmirrors⟩ | ⟨d, hnone, hone, hspan⟩ := houtcome
    · refine ⟨diagnostics, by rw [hreport, hsame], fun known hknown => ?_⟩
      rw [hsome]
      exact .accept (hmirrors known (hknown.of_subset hentries')) (htallies known hknown)
    · have hboth : (s.checkAll (stmtOf a :: rest.map stmtOf)).2.report =
          s.report ++ d :: diagnostics := by
        rw [checkAll_cons, hreport, hone, List.append_assoc]
        rfl
      refine ⟨d :: diagnostics, hboth, fun known hknown => ?_⟩
      rw [hnone]
      exact .reject hspan (htallies known hknown)

theorem Reachable.named (hs : s.Reachable) : s.Named :=
  hs.induct named_new fun _ stmt h => (h.checkStmt stmt.all_layout).1

end Session

/-! ## Statements of a source -/

/-- A program that was parsed from the tokens of a source has its statements on consecutive stretches
of these tokens, up to the end token. -/
theorem exists_parts_of_parse {source file parsedFile : String} {limit : Nat} {tokens : List Token}
    {program : Block} (htokens : tokenize source file = .ok tokens)
    (hparse : parse tokens parsedFile limit = .ok program) :
    ∃ (parts : List (Stmt × List Token)) (last : Token), parts.map Prod.fst = program.body ∧
      tokens = (parts.map Prod.snd).flatten ++ [last] ∧ last.kind = .eof ∧
      ∀ part ∈ parts, part.1.layout.On part.2 := by
  have hended := tokenize_ended htokens
  have hremaining := TokenStream.remaining_ofTokens hended parsedFile
  have hgood := TokenStream.good_ofTokens hended parsedFile
  obtain ⟨t, hrun⟩ := exists_run_of_parse hparse
  obtain ⟨⟨ht, body, hbody, hsplit, -⟩, -⟩ := (Grammar.program_places limit hgood).of_ok hrun
  obtain ⟨-, -, hend⟩ := (Grammar.program_sound limit hgood).of_ok hrun
  rw [ht.remaining_of_eof hend, hremaining] at hsplit
  obtain ⟨parts, hfst, hsnd, hparts⟩ := hbody.exists_parts
  exact ⟨parts, t.current, hfst, by rw [hsnd, hsplit], hend, hparts⟩

/-- No token stops behind the end of the source. -/
theorem stop_le_of_tokenize {source file : String} {tokens : List Token}
    (hsize : source.utf8ByteSize < UInt32.size) (htokens : tokenize source file = .ok tokens)
    {t : Token} (ht : t ∈ tokens) : t.span.stop.offset.toNat ≤ source.utf8ByteSize := by
  obtain ⟨left, slice, right, hsplit, -, hstop, -⟩ := (tokenize_tiles hsize htokens).token_at t ht
  rw [List.nil_append] at hsplit
  rw [hstop.offset, ← byteCount_toList source, hsplit, byteCount_append _ right]
  omega

/-- The outcomes stand where the parts do: what is accepted covers all tokens of its part, and what is
reported covers some. -/
abbrev Covered (parts : List (Stmt × List Token)) (stmts : List TypedStmt)
    (diagnostics : List Diagnostic) : Prop :=
  Tallies (fun part typed => typed.span = part.1.span ∧ typed.span.Covers part.2)
    (fun part d => ∃ ts, ts <:+: part.2 ∧ d.span.Covers ts) parts stmts diagnostics

theorem Layout.On.covers_stmt {stmt : Stmt} {ts : List Token} (h : stmt.layout.On ts) :
    stmt.span.Covers ts := by
  obtain ⟨form, span⟩ := stmt
  exact h.covers rfl

namespace Covered

variable {parts : List (Stmt × List Token)} {stmts : List TypedStmt}
  {diagnostics : List Diagnostic} (h : Covered parts stmts diagnostics)
  (horder : Token.InOrder (parts.map Prod.snd).flatten)
include horder

omit h in
/-- The tokens of a part come one after the other. -/
theorem inOrder {part : Stmt × List Token} (hpart : part ∈ parts) : Token.InOrder part.2 :=
  horder.sublist (List.sublist_flatten_of_mem (List.mem_map_of_mem hpart))

omit h in
/-- The tokens of a part come before those of the parts behind it. -/
theorem pairwise_before :
    parts.Pairwise fun p q => ∀ t ∈ p.2, ∀ u ∈ q.2, t.span.Before u.span :=
  List.pairwise_map.1 (List.pairwise_flatten.1 horder.ordered).2

include h

/-- Each outcome is at its statement. -/
theorem inside (hon : ∀ part ∈ parts, part.1.layout.On part.2) :
    Tallies (fun stmt typed => typed.span = stmt.span) (fun stmt d => d.span.Inside stmt.span)
      (parts.map Prod.fst) stmts diagnostics := by
  refine h.map (fun part _ typed htyped => htyped.1) ?_
  rintro part hpart d ⟨ts, hts, hd⟩
  have hstmt := (hon part hpart).covers_stmt
  exact hstmt.inside (inOrder horder hpart) hd hts

/-- Typed statements and diagnostics are in the order of the parts. -/
theorem ordered : (stmts.map TypedStmt.span).Pairwise Span.Before ∧
    (diagnostics.map Diagnostic.span).Pairwise Span.Before := by
  rw [List.pairwise_map, List.pairwise_map]
  refine h.pairwise (pairwise_before horder) ?_ ?_
  · intro p q typed typed' hpq htyped htyped'
    exact htyped.2.before htyped'.2 hpq
  · rintro p q d d' hpq ⟨ts, hts, hd⟩ ⟨us, hus, hd'⟩
    exact hd.before hd' fun t ht u hu => hpq t (hts.subset ht) u (hus.subset hu)

/-- A diagnostic goes forward, and stops where some token does. -/
theorem stops {d : Diagnostic} (hd : d ∈ diagnostics) : d.span.start.offset ≤ d.span.stop.offset ∧
    ∃ t ∈ (parts.map Prod.snd).flatten, d.span.stop = t.span.stop := by
  obtain ⟨part, hpart, ts, hts, hcovers⟩ := h.exists_rejected d hd
  obtain ⟨-, -, last, hlast, -, hstop⟩ := hcovers.ends
  have hmem := List.mem_flatten.2 ⟨part.2, List.mem_map_of_mem hpart, hts.subset hlast⟩
  exact ⟨hcovers.forward ((inOrder horder hpart).sublist hts.sublist), last, hmem, hstop⟩

end Covered

namespace Session

variable {s : Session}

/-- Statements that stand on tokens have their outcomes there. -/
theorem Named.checkAll_covered (hs : s.Named) {parts : List (Stmt × List Token)}
    (hon : ∀ part ∈ parts, part.1.layout.On part.2) :
    ∃ diagnostics, (s.checkAll (parts.map Prod.fst)).2.report = s.report ++ diagnostics ∧
      Covered parts (s.checkAll (parts.map Prod.fst)).1 diagnostics := by
  obtain ⟨-, -, diagnostics, hreport, htallies⟩ := hs.checkAll Prod.fst parts
    fun part hpart => (hon part hpart).all_covers (List.infix_refl part.2)
  refine ⟨diagnostics, hreport, ?_⟩
  -- for the spans nothing has to be known of the numbers
  refine (htallies (fun _ _ => True) fun _ _ => trivial).mono ?_ fun part _ d hd => hd
  intro part hpart typed hmirrors
  have hspan := hmirrors.span
  exact ⟨hspan, hspan ▸ (hon part hpart).covers_stmt⟩

/-- Checking a program that was parsed has one outcome for each of its statements, in order. A
statement that is accepted keeps its span, which covers the tokens it was read from. A statement that
is rejected is reported by one diagnostic, which covers some of these tokens. As numbers, the
diagnostic is inside the statement, the two lists are in the order of the source, and nothing is
behind its end, if the source takes less than 4 GiB. -/
theorem check_outcomes {source file parsedFile : String} {limit : Nat} {tokens : List Token}
    {program : Block} (htokens : tokenize source file = .ok tokens)
    (hparse : parse tokens parsedFile limit = .ok program) {s : Session} (hs : s.Reachable) :
    let checked := s.check program
    ∃ (parts : List (Stmt × List Token)) (last : Token) (diagnostics : List Diagnostic),
      parts.map Prod.fst = program.body ∧ tokens = (parts.map Prod.snd).flatten ++ [last] ∧
      last.kind = .eof ∧ checked.2.report = s.report ++ diagnostics ∧
      checked.1.length + diagnostics.length = program.body.length ∧
      Covered parts checked.1 diagnostics ∧
      (source.utf8ByteSize < UInt32.size →
        Tallies (fun stmt typed => typed.span = stmt.span) (fun stmt d => d.span.Inside stmt.span)
          program.body checked.1 diagnostics ∧
        (program.body.map Stmt.span).Pairwise Span.Before ∧
        (checked.1.map TypedStmt.span).Pairwise Span.Before ∧
        (diagnostics.map Diagnostic.span).Pairwise Span.Before ∧
        ∀ d ∈ diagnostics, d.span.start.offset ≤ d.span.stop.offset ∧
          d.span.stop.offset.toNat ≤ source.utf8ByteSize) := by
  obtain ⟨parts, last, hbody, hsplit, hend, hon⟩ := exists_parts_of_parse htokens hparse
  obtain ⟨diagnostics, hreport, hcovered⟩ := hs.named.checkAll_covered hon
  have hlength := hcovered.length
  rw [← List.length_map (f := Prod.fst), hbody] at hlength
  rw [hbody] at hreport hcovered
  refine ⟨parts, last, diagnostics, hbody, hsplit, hend, hreport, ?_, hcovered, fun hsize => ?_⟩
  · exact hlength
  -- the tokens of a short source come one after the other, and so do their parts
  have horder := (hsplit ▸ tokenize_inOrder hsize htokens).left
  obtain ⟨hstmts, hdiagnostics⟩ := hcovered.ordered horder
  refine ⟨hbody ▸ hcovered.inside horder hon, ?_, hstmts, hdiagnostics, ?_⟩
  · rw [← hbody, List.map_map, List.pairwise_map]
    refine (Covered.pairwise_before horder).imp_of_mem fun hp hq hpq => ?_
    exact (hon _ hp).covers_stmt.before (hon _ hq).covers_stmt hpq
  · intro d hd
    obtain ⟨hforward, t, ht, hstop⟩ := hcovered.stops horder hd
    have hmem : t ∈ tokens := by
      rw [hsplit]
      exact List.mem_append_left _ ht
    exact ⟨hforward, hstop ▸ stop_le_of_tokenize hsize htokens hmem⟩

/-- Three statements that are accepted and three that are not: an unknown name, an operand of another
type in the body of a function, and a call of this function, which is not declared. -/
def mixedSource : String :=
  "val a = 1;\nprint b;\n" ++
  "fun f(x: Int) -> Int \x7b print (x - (true)); return x; \x7d\n" ++
  "class C \x7b val c: Int = a; \x7d\n" ++
  "print new C().c;\nprint f(1);"

theorem check_outcomes_mixedSource :
    mixedSource.utf8ByteSize < UInt32.size ∧
    ∃ (tokens : List Token) (program : Block) (diagnostics : List Diagnostic),
      tokenize mixedSource interactiveFile = .ok tokens ∧
      parse tokens interactiveFile defaultNestingLimit = .ok program ∧
      (new defaultNestingLimit).Reachable ∧
      ((new defaultNestingLimit).check program).2.report = diagnostics ∧
      ((new defaultNestingLimit).check program).1.length + diagnostics.length = 3 + 3 ∧
      (diagnostics.map fun d => (d.span.start.offset, d.span.stop.offset)) =
        [(17, 18), (50, 60), (126, 127)] ∧
      Tallies (fun stmt typed => typed.span = stmt.span) (fun stmt d => d.span.Inside stmt.span)
        program.body ((new defaultNestingLimit).check program).1 diagnostics := by
  have hsize : mixedSource.utf8ByteSize < UInt32.size := by decide +kernel
  have hnew : (new defaultNestingLimit).Reachable := .new defaultNestingLimit
  obtain ⟨tokens, program, htokens, hparse, hbody, hspans⟩ :=
    exists_program mixedSource defaultNestingLimit
      (P := fun program => program.body.length = 3 + 3 ∧
        (((new defaultNestingLimit).check program).2.report.map fun d =>
          (d.span.start.offset, d.span.stop.offset)) = [(17, 18), (50, 60), (126, 127)])
      (by decide +kernel)
  obtain ⟨parts, last, diagnostics, -, -, -, hreport, hlength, -, hinside⟩ :=
    check_outcomes htokens hparse hnew
  have hall : ((new defaultNestingLimit).check program).2.report = diagnostics := hreport
  rw [hall] at hspans
  rw [hbody] at hlength
  obtain ⟨htallies, -⟩ := hinside hsize
  exact ⟨hsize, tokens, program, diagnostics, htokens, hparse, hnew, hall, hlength, hspans,
    htallies⟩

/-! ## Numbers of committed declarations -/

end Session

/-- The number is that of a committed declaration of this name. -/
def Registry.Names (r : Registry) (id : DeclId) (name : String) : Prop :=
  ∃ type, r.resolve id = .ok (some ⟨id, name, type⟩)

namespace Session

variable {s : Session}

/-- Between statements each entry of the registry is committed, and found under its number. -/
theorem Accounted.tells {log kept : List Declaration} (hs : s.Accounted log kept) :
    s.state.Tells s.state.registry.Names := by
  have hentries : s.state.registry.entries = s.state.registry.committed := by
    simp [Registry.entries, hs.layers]
  have hnodup := hs.logged.nodup.sublist (hs.logged.entries.map Declaration.id)
  rw [hentries] at hnodup
  intro d hd
  rw [hentries] at hd
  exact ⟨d.type, Registry.resolve_of_mem hs.layers hnodup hd⟩

theorem Reachable.checkEach (hs : s.Reachable) (programs : List Block) :
    (s.checkEach programs).2.Reachable := by
  induction programs generalizing s with
  | nil => exact hs
  | cons program rest ih => exact ih (hs.check program)

/-- In a session over any programs, what checking one more program returns mirrors the statements
that are accepted, in their order, and the numbers that stand for names are those of committed
declarations of these names. -/
theorem check_mirrors (limit : Nat) (programs : List Block) (program : Block) :
    let s := ((new limit).checkEach programs).2
    let checked := s.check program
    ∃ diagnostics, checked.2.report = s.report ++ diagnostics ∧
      Tallies (fun stmt typed => stmt.Mirrors checked.2.state.registry.Names typed)
        (fun _ _ => True) program.body checked.1 diagnostics := by
  intro s checked
  have hs : s.Reachable := (Reachable.new limit).checkEach programs
  obtain ⟨-, -, diagnostics, hreport, htallies⟩ :=
    hs.named.checkAll id program.body fun stmt _ => stmt.all_layout
  rw [List.map_id] at hreport htallies
  obtain ⟨log, kept, hearlier, -⟩ := (accounted_new limit).checkEach programs
  obtain ⟨log', kept', haccounted, -⟩ := hearlier.checkAll program.body
  exact ⟨diagnostics, hreport, htallies _ haccounted.tells⟩

end Session

end Nominal
