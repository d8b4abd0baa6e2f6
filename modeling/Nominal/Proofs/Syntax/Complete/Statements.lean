import Nominal.Proofs.Syntax.Complete.Expressions

/-!
# The rules for statements are complete

Each rule for a statement reads back the statement that it is for (`Inner.stmtAt_complete`), and
from this the promise of `Inner.Complete` follows for any number of levels
(`Grammar.inner_complete`).
-/

namespace Nominal

namespace Inner

open Parse Piece Token TokenStream

variable {inner : Inner} {room : Nat}

/-- An expression before a mark that ends it, or before a body that does not continue it. -/
theorem Complete.exprAlone (hi : inner.Complete room) {e : Expr} (hregular : e.Regular)
    (hlegible : e.Legible) (hnesting : e.nesting ≤ room) :
    (inner.expr .default).Recovers e.pieces (Grammar.standard.power · = .default)
      fun b => b.bare = e.bare := by
  intro s rest hall hfollow
  exact hi.expr e .default hregular hlegible hnesting (by decide) s rest hall
    (hregular.fits_default hfollow)

theorem expressionStmt_complete (hi : inner.Complete room) {e : Expr} (span : Span)
    (hregular : e.Regular) (hlegible : e.Legible) (hnesting : e.nesting ≤ room) :
    inner.expressionStmt.Recovers (Stmt.mk (.expression e) span).pieces (fun _ => True)
      fun b => b.bare = (Stmt.mk (.expression e) span).bare := by
  intro s rest hall _
  simp only [expressionStmt, succeeds_bind, succeeds_expect, succeeds_spanFrom, succeeds_pure]
  refine (hi.exprAlone hregular hlegible hnesting).before hall
    (fun _ h => by rw [h.firstKind rfl]; rfl) fun b t hall hb => ?_
  obtain ⟨hend, rfl⟩ := through_lastMark hall
  exact ⟨hend, rfl, by simp [Stmt.bare, StmtForm.bare, hb]⟩

/-- What can be left out is read when it is there, and otherwise nothing is. -/
theorem after?_complete {α β : Type} (mark : Kind) {read : Parse α} {a? : Option α}
    {pieces : α → List Piece} {bare : α → β} {follow : α → Kind → Prop}
    (hread : ∀ a ∈ a?, read.Recovers (pieces a) (follow a) fun b => bare b = bare a) :
    (after? mark read).Recovers (Piece.after mark (a?.map pieces))
      (fun k => (∀ a ∈ a?, follow a k) ∧ (a? = none → k ≠ mark))
      fun b? => b?.map bare = a?.map bare := by
  intro s rest hall hfollow
  simp only [after?, succeeds_bind, succeeds_kind]
  cases a? with
  | none =>
    obtain ⟨-, rfl⟩ := through_nil.1 hall
    have hne : s.kind ≠ mark := hfollow.2 rfl
    simp [hne]
  | some a =>
    obtain ⟨hk, hall⟩ := through_mark hall
    rw [if_pos hk]
    simp only [succeeds_bind, succeeds_advance, succeeds_pure]
    refine (hread a rfl _ _ hall (hfollow.1 a rfl)).mono ?_
    rintro b t ⟨rfl, hb⟩
    exact ⟨rfl, by simp [hb]⟩

/-- Before a mark, a part that can be left out starts with its own mark or is not there. -/
theorem firstKind_after {k last : Kind} {ps? : Option (List Piece)} {all rest : List Token}
    (h : Through (Piece.after k ps? ++ [.mark last]) all rest) : firstKind all ∈ [k, last] := by
  cases ps? with
  | none =>
    have hkind : firstKind all = last := h.firstKind rfl
    simp [hkind]
  | some ps =>
    have hkind : firstKind all = k := h.firstKind rfl
    simp [hkind]

theorem varDecl_complete (hi : inner.Complete room) {name : String} {nameSpan : Span} {mode : Mode}
    {type? : Option TypeExpr} {value? : Option Expr} (span : Span)
    (hregular : ∀ value ∈ value?, value.Regular) (hlegible : ∀ value ∈ value?, value.Legible)
    (htype : ∀ type ∈ type?, type.nesting ≤ room)
    (hvalue : ∀ value ∈ value?, value.nesting ≤ room) :
    inner.varDecl.Recovers (Stmt.mk (.varDecl name nameSpan mode type? value?) span).pieces
      (fun _ => True)
      fun b => b.bare = (Stmt.mk (.varDecl name nameSpan mode type? value?) span).bare := by
  intro s rest hall _
  rw [Stmt.pieces, StmtForm.pieces_varDecl, List.append_assoc, List.append_assoc,
    List.cons_append] at hall
  simp only [varDecl, succeeds_bind, succeeds_advance, succeeds_expectDetailed, succeeds_expect,
    succeeds_spanFrom, succeeds_pure]
  obtain ⟨hmode, hall⟩ := through_mark hall
  obtain ⟨hname, hword, hall⟩ := through_token hall
  refine ⟨hname, ?_⟩
  have hkeyword : (if s.current.kind = .kwVar then Mode.var else .val) = mode := by
    rw [show s.current.kind = mode.keyword from hmode]
    cases mode <;> rfl
  refine (after?_complete .colon fun type h => hi.type type (htype type h)).before hall
    (fun mid h => ?_) fun type' t hall htype' => ?_
  · have hkind := firstKind_after h
    refine ⟨fun _ _ h => ?_, fun _ h => ?_⟩
    · rw [h] at hkind
      exact absurd hkind (by decide)
    · rw [h] at hkind
      exact absurd hkind (by decide)
  refine (after?_complete .assignment fun value h =>
    hi.exprAlone (hregular value h) (hlegible value h) (hvalue value h)).before hall
    (fun mid h => ?_) fun value' u hall hvalue' => ?_
  · rw [h.firstKind rfl]
    exact ⟨fun _ _ => rfl, fun _ => by decide⟩
  obtain ⟨hend, rfl⟩ := through_lastMark hall
  exact ⟨hend, rfl, by simp [Stmt.bare, hkeyword, hword, htype', hvalue']⟩

theorem fnDecl_complete (hi : inner.Complete room) {name : String} {nameSpan : Span}
    {sig : Signature} (span : Span)
    (hregular : ∀ stmt ∈ sig.body.body, stmt.Regular)
    (hlegible : ∀ stmt ∈ sig.body.body, stmt.Legible)
    (hhead : Signature.headNesting sig.parameters sig.result? ≤ room)
    (hbody : ∀ stmt ∈ sig.body.body, stmt.nesting ≤ room) :
    inner.fnDecl.Recovers (Stmt.mk (.fnDecl name nameSpan sig) span).pieces (fun _ => True)
      fun b => b.bare = (Stmt.mk (.fnDecl name nameSpan sig) span).bare := by
  intro s rest hall _
  obtain ⟨parameters, result?, ⟨body, bodySpan⟩⟩ := sig
  rw [Stmt.pieces, StmtForm.pieces, Stmt.eachPieces_eq] at hall
  have hpeek := peek_one_eq hall rfl
  obtain ⟨-, hall⟩ := through_mark hall
  obtain ⟨hname, hword, hall⟩ := through_token hall
  simp only [fnDecl, succeeds_bind, succeeds_get, hpeek, hname, if_true, succeeds_advance,
    succeeds_spanFrom, succeeds_pure]
  refine (signature_complete hi _ hregular hlegible hhead hbody _ _ hall trivial).mono ?_
  rintro b t ⟨rfl, hb⟩
  exact ⟨rfl, by simp [Stmt.bare, hword, hb]⟩

/-- An expression statement that starts with `fun` is no declaration. -/
theorem fnDecl_expression (hi : inner.Complete room) {e : Expr} (span : Span)
    (hregular : e.Regular) (hlegible : e.Legible) (hnesting : e.nesting ≤ room)
    {s : TokenStream} {rest : List Token} (hk : s.kind = .kwFun)
    (hall : Through (Stmt.mk (.expression e) span).pieces s.remaining rest) :
    inner.fnDecl.Succeeds s fun b t =>
      t.remaining = rest ∧ b.bare = (Stmt.mk (.expression e) span).bare := by
  obtain ⟨first, more, kind, hpieces, hkind, -, hfun⟩ :=
    (e.opens hregular).append [.mark .semicolon]
  have hfirst : Through (first :: more) s.remaining rest := hpieces ▸ hall
  obtain ⟨others, rfl⟩ := hfun ((hfirst.firstKind hkind).symm.trans hk)
  have hpeek := peek_one_eq hfirst hkind
  obtain ⟨-, -, hrest⟩ := through_next hfirst hkind
  obtain ⟨hopen, -⟩ := through_mark hrest
  simp only [fnDecl, succeeds_bind, succeeds_get, hpeek, hopen]
  exact expressionStmt_complete hi span hregular hlegible hnesting s rest hall trivial

theorem classMember_complete (hi : inner.Complete room) (m : Stmt) (hregular : m.Regular)
    (hlegible : m.Legible) (hmember : m.memberName?.isSome) (hnesting : m.nesting ≤ room + 1) :
    inner.classMember.Recovers m.pieces (fun _ => True) fun b => b.bare = m.bare := by
  intro s rest hall _
  obtain ⟨form, span⟩ := m
  simp only [classMember, succeeds_bind, succeeds_get]
  cases form with
  | varDecl name nameSpan mode type? value? =>
    obtain ⟨htype, hvalue⟩ := StmtForm.nesting_varDecl_le.1 hnesting
    have hread := varDecl_complete hi span (StmtForm.regular_varDecl.1 hregular)
      (StmtForm.legible_varDecl.1 hlegible) htype hvalue s rest hall trivial
    rw [Stmt.pieces, StmtForm.pieces_varDecl, List.append_assoc, List.append_assoc] at hall
    obtain ⟨hkind, -⟩ := through_mark hall
    rw [hkind]
    cases mode with
    | val => exact hread
    | var => exact hread
  | fnDecl name nameSpan sig =>
    obtain ⟨parameters, result?, ⟨body, bodySpan⟩⟩ := sig
    obtain ⟨hhead, hbody⟩ := Nat.max_le.1 (Nat.le_of_succ_le_succ hnesting)
    have hregulars : ∀ stmt ∈ body, stmt.Regular := Stmt.allRegular_iff.1 hregular
    have hlegibles : ∀ stmt ∈ body, stmt.Legible := Stmt.allLegible_iff.1 hlegible
    have hread := fnDecl_complete hi span hregulars hlegibles hhead (Stmt.eachNesting_le.1 hbody) s
      rest hall trivial
    rw [Stmt.pieces, StmtForm.pieces] at hall
    have hpeek := peek_one_eq hall rfl
    obtain ⟨hkind, hall⟩ := through_mark hall
    obtain ⟨hname, -⟩ := through_token hall
    simp only [hkind, hpeek, hname, if_true]
    exact hread
  | _ => cases hmember

/-- The parentheses around no parameters of a class can be there or not. -/
theorem classParameters_cases {parameters : List Parameter} {ps : List Piece} {s : TokenStream}
    {rest : List Token}
    (hall : Through (Parameter.classPieces parameters ++ .mark .openCurly :: ps) s.remaining rest) :
    s.kind = .openParen ∧ Through (parenthesised (parameters.map Parameter.pieces) ++
      .mark .openCurly :: ps) s.remaining rest ∨
    s.kind = .openCurly ∧ parameters = [] ∧ Through (.mark .openCurly :: ps) s.remaining rest := by
  cases parameters with
  | nil =>
    obtain ⟨mid, ⟨hne, ts, hts, hsplit⟩, hps⟩ := through_append.1 hall
    cases hts with
    | cons hp hnil =>
      cases hnil
      cases hp with
      | noParens =>
        have hremaining : s.remaining = mid := hsplit
        rw [← hremaining] at hps
        exact .inr ⟨hps.firstKind rfl, rfl, hps⟩
      | parens ht hu =>
        have hparens : Through (parenthesised []) s.remaining mid :=
          ⟨hne, _, .cons ht (.cons hu .nil), hsplit⟩
        exact .inl ⟨hparens.firstKind rfl, through_append.2 ⟨mid, hparens, hps⟩⟩
  | cons p parameters => exact .inl ⟨hall.firstKind rfl, hall⟩

/-- The members of a class are read up to the closing brace. -/
theorem members_complete (hi : inner.Complete room) {members : List Stmt}
    (hregular : ∀ m ∈ members, m.Regular) (hlegible : ∀ m ∈ members, m.Legible)
    (hmember : ∀ m ∈ members, m.memberName?.isSome)
    (hnesting : ∀ m ∈ members, m.nesting ≤ room + 1) {s : TokenStream} {rest : List Token}
    (hall : Through (braced (members.map Stmt.pieces)) s.remaining rest) :
    s.kind = .openCurly ∧ (repeatUntil (· == .closeCurly) inner.classMember).Succeeds s.next
      fun bs t => t.kind = .closeCurly ∧ t.next.remaining = rest ∧
        bs.map Stmt.bare = members.map Stmt.bare := by
  rw [braced, List.cons_append] at hall
  obtain ⟨hopen, hall⟩ := through_mark hall
  obtain ⟨mid, hbody, hlast⟩ := through_append.1 hall
  have hmid : firstKind mid = .closeCurly := hlast.firstKind rfl
  refine ⟨hopen, (succeeds_repeatUntil (fun m hm => classMember_complete hi m (hregular m hm)
    (hlegible m hm) (hmember m hm) (hnesting m hm)) ?_ Stmt.pieces_required hbody (by simp [hmid])
    trivial).mono ?_⟩
  · intro m hm all mid hall
    have hkind := firstKind_stmt (hregular m hm) hall
    simp only [List.mem_cons, List.not_mem_nil, or_false, not_or] at hkind
    simp [hkind]
  · rintro bs t ⟨rfl, hbare⟩
    obtain ⟨hclose, rfl⟩ := through_lastMark hlast
    exact ⟨hclose, rfl, hbare⟩

theorem classDecl_complete (hi : inner.Complete room) {name : String} {nameSpan : Span}
    {parameters : List Parameter} {members : List Stmt} (span : Span)
    (hregular : ∀ m ∈ members, m.Regular) (hlegible : ∀ m ∈ members, m.Legible)
    (hmember : ∀ m ∈ members, m.memberName?.isSome)
    (hhead : ∀ p ∈ parameters, p.type.nesting ≤ room)
    (hnesting : ∀ m ∈ members, m.nesting ≤ room + 1) :
    inner.classDecl.Recovers (Stmt.mk (.classDecl name nameSpan parameters members) span).pieces
      (fun _ => True)
      fun b => b.bare = (Stmt.mk (.classDecl name nameSpan parameters members) span).bare := by
  intro s rest hall _
  rw [Stmt.pieces, StmtForm.pieces, Stmt.eachPieces_eq] at hall
  obtain ⟨-, hall⟩ := through_mark hall
  obtain ⟨hname, hword, hall⟩ := through_token hall
  simp only [classDecl, succeeds_bind, succeeds_advance, succeeds_expectDetailed, succeeds_kind]
  refine ⟨hname, ?_⟩
  obtain ⟨hk, hrest⟩ | ⟨hk, rfl, hrest⟩ := classParameters_cases hall
  · simp only [hk, if_true, succeeds_bind, succeeds_expect, succeeds_spanFrom, succeeds_pure]
    refine (parameters_complete hi parameters hhead).before hrest (fun _ _ => trivial)
      fun qs t hall hqs => ?_
    obtain ⟨hopen, hmembers⟩ := members_complete hi hregular hlegible hmember hnesting hall
    refine ⟨hopen, hmembers.mono ?_⟩
    rintro bs u ⟨hclose, hu, hbs⟩
    exact ⟨hclose, hu, by simp [Stmt.bare, StmtForm.bare, hword, hqs, hbs]⟩
  · rw [if_neg (by simp [hk])]
    simp only [succeeds_bind, succeeds_expect, succeeds_spanFrom, succeeds_pure]
    obtain ⟨-, hmembers⟩ := members_complete hi hregular hlegible hmember hnesting hrest
    refine ⟨hk, hmembers.mono ?_⟩
    rintro bs u ⟨hclose, hu, hbs⟩
    exact ⟨hclose, hu, by simp [Stmt.bare, StmtForm.bare, hword, hbs]⟩

theorem ret_complete (hi : inner.Complete room) {value? : Option Expr} (span : Span)
    (hregular : ∀ value ∈ value?, value.Regular) (hlegible : ∀ value ∈ value?, value.Legible)
    (hnesting : ∀ value ∈ value?, value.nesting ≤ room) :
    inner.ret.Recovers (Stmt.mk (.ret value?) span).pieces (fun _ => True)
      fun b => b.bare = (Stmt.mk (.ret value?) span).bare := by
  intro s rest hall _
  simp only [ret, succeeds_bind, succeeds_advance, succeeds_kind]
  cases value? with
  | none =>
    obtain ⟨-, hall⟩ := through_mark hall
    obtain ⟨hend, rfl⟩ := through_lastMark hall
    simp [hend, Stmt.bare]
  | some value =>
    rw [Stmt.pieces, StmtForm.pieces, List.cons_append] at hall
    obtain ⟨-, hall⟩ := through_mark hall
    obtain ⟨_, hvalue, -⟩ := through_append.1 hall
    have hne : s.next.kind ≠ .semicolon := fun h =>
      firstKind_expr (hregular value rfl) hvalue (by simp [← kind_eq, h])
    rw [if_neg hne]
    simp only [succeeds_bind, succeeds_map, succeeds_expect, succeeds_spanFrom, succeeds_pure]
    refine (hi.exprAlone (hregular value rfl) (hlegible value rfl) (hnesting value rfl)).before hall
      (fun _ h => by rw [h.firstKind rfl]; rfl) fun b t hall hb => ?_
    obtain ⟨hend, rfl⟩ := through_lastMark hall
    exact ⟨hend, rfl, by simp [Stmt.bare, hb]⟩

/-- The first token of a body that does not continue its condition. -/
theorem power_of_body {body : Stmt} (hregular : body.Regular) (hapart : body.continuesExpr = false)
    {all rest : List Token} (hall : Through body.pieces all rest) :
    Grammar.standard.power (firstKind all) = .default := by
  obtain ⟨first, more, kind, hpieces, hkind, hopens⟩ := body.opens hregular
  rw [hpieces] at hall
  rw [hall.firstKind hkind]
  refine Grammar.power_of_opens hopens fun hmem => ?_
  simp only [Stmt.continuesExpr, hpieces, List.head?_cons, Option.bind_some, hkind] at hapart
  simp only [List.mem_cons, List.not_mem_nil, or_false] at hmem
  rcases hmem with rfl | rfl
  · cases hapart
  · cases hapart

theorem branch_complete (hi : inner.Complete room) {condition : Expr} {thenBody : Stmt}
    {elseBody? : Option Stmt} (span : Span)
    (hregular : (Stmt.mk (.branch condition thenBody elseBody?) span).Regular)
    (hlegible : (Stmt.mk (.branch condition thenBody elseBody?) span).Legible)
    (hnesting : (Stmt.mk (.branch condition thenBody elseBody?) span).nesting ≤ room + 1) :
    inner.branch.Recovers (Stmt.mk (.branch condition thenBody elseBody?) span).pieces
      (fun k => (Stmt.mk (.branch condition thenBody elseBody?) span).endsOpen → k ≠ .kwElse)
      fun b => b.bare = (Stmt.mk (.branch condition thenBody elseBody?) span).bare := by
  intro s rest hall hfollow
  obtain ⟨hcondition, hthen, helse⟩ := StmtForm.regular_branch.1 hregular
  obtain ⟨hlegible, hlegible', hapart, hopen⟩ := StmtForm.legible_branch.1 hlegible
  obtain ⟨hnesting, hnesting', hnesting''⟩ := StmtForm.nesting_branch_le.1 hnesting
  rw [Stmt.pieces, StmtForm.pieces_branch, List.append_assoc, List.append_assoc] at hall
  obtain ⟨-, hall⟩ := through_mark hall
  simp only [branch, succeeds_bind, succeeds_advance, succeeds_spanFrom, succeeds_pure]
  refine (hi.exprAlone hcondition hlegible hnesting).before hall (fun _ h => ?_)
    fun b t hall hb => ?_
  · obtain ⟨_, hbody, -⟩ := through_append.1 h
    exact power_of_body hthen hapart hbody
  refine (hi.stmt thenBody hthen hlegible' hnesting').before hall (fun mid h => ?_)
    fun c u hall hc => ?_
  · intro hends
    cases elseBody? with
    | none =>
      obtain ⟨-, rfl⟩ := through_nil.1 h
      exact hfollow rfl
    | some elseBody =>
      rw [(hopen elseBody rfl).2] at hends
      cases hends
  refine (after?_complete .kwElse fun elseBody h => hi.stmt elseBody (helse elseBody h)
    (hopen elseBody h).1 (hnesting'' elseBody h)) _ _ hall ⟨?_, ?_⟩ |>.mono ?_
  · rintro elseBody rfl
    exact hfollow
  · rintro rfl
    exact hfollow rfl
  · rintro d v ⟨rfl, hd⟩
    exact ⟨rfl, by simp [Stmt.bare, hb, hc, hd]⟩

theorem loop_complete (hi : inner.Complete room) {condition : Expr} {body : Stmt} (span : Span)
    (hregular : condition.Regular ∧ body.Regular)
    (hlegible : condition.Legible ∧ body.Legible ∧ body.continuesExpr = false)
    (hnesting : condition.nesting ≤ room ∧ body.nesting ≤ room) :
    inner.loop.Recovers (Stmt.mk (.loop condition body) span).pieces
      (fun k => body.endsOpen → k ≠ .kwElse)
      fun b => b.bare = (Stmt.mk (.loop condition body) span).bare := by
  intro s rest hall hfollow
  rw [Stmt.pieces, StmtForm.pieces, List.cons_append] at hall
  obtain ⟨-, hall⟩ := through_mark hall
  simp only [loop, succeeds_bind, succeeds_advance, succeeds_spanFrom, succeeds_pure]
  refine (hi.exprAlone hregular.1 hlegible.1 hnesting.1).before hall
    (fun _ h => power_of_body hregular.2 hlegible.2.2 h) fun b t hall hb => ?_
  refine (hi.stmt body hregular.2 hlegible.2.1 hnesting.2 _ _ hall hfollow).mono ?_
  rintro c u ⟨rfl, hc⟩
  exact ⟨rfl, by simp [Stmt.bare, StmtForm.bare, hb, hc]⟩

theorem print_complete (hi : inner.Complete room) {value : Expr} (span : Span)
    (hregular : value.Regular) (hlegible : value.Legible) (hnesting : value.nesting ≤ room) :
    inner.print.Recovers (Stmt.mk (.print value) span).pieces (fun _ => True)
      fun b => b.bare = (Stmt.mk (.print value) span).bare := by
  intro s rest hall _
  rw [Stmt.pieces, StmtForm.pieces, List.cons_append] at hall
  obtain ⟨-, hall⟩ := through_mark hall
  simp only [print, succeeds_bind, succeeds_advance, succeeds_expect, succeeds_spanFrom,
    succeeds_pure]
  refine (hi.exprAlone hregular hlegible hnesting).before hall
    (fun _ h => by rw [h.firstKind rfl]; rfl) fun b t hall hb => ?_
  obtain ⟨hend, rfl⟩ := through_lastMark hall
  exact ⟨hend, rfl, by simp [Stmt.bare, StmtForm.bare, hb]⟩

theorem blockStmt_complete (hi : inner.Complete room) (b : Block) (span : Span)
    (hregular : ∀ stmt ∈ b.body, stmt.Regular) (hlegible : ∀ stmt ∈ b.body, stmt.Legible)
    (hnesting : ∀ stmt ∈ b.body, stmt.nesting ≤ room) :
    inner.blockStmt.Recovers (Stmt.mk (.block b) span).pieces (fun _ => True)
      fun c => c.bare = (Stmt.mk (.block b) span).bare := by
  intro s rest hall _
  obtain ⟨body, bodySpan⟩ := b
  rw [Stmt.pieces, StmtForm.pieces, Stmt.eachPieces_eq] at hall
  simp only [blockStmt, succeeds_bind, succeeds_pure]
  refine (block_complete hi _ hregular hlegible hnesting s rest hall trivial).mono ?_
  rintro c t ⟨rfl, hc⟩
  exact ⟨rfl, by simp [Stmt.bare, hc]⟩

/-- Statements are read back by the rule for the token they begin with. -/
theorem stmtAt_complete (hi : inner.Complete room) (stmt : Stmt) (hregular : stmt.Regular)
    (hlegible : stmt.Legible) (hnesting : stmt.nesting ≤ room + 1) :
    (inner.stmtAt .standard).Recovers stmt.pieces (fun k => stmt.endsOpen → k ≠ .kwElse)
      fun b => b.bare = stmt.bare := by
  intro s rest hall hfollow
  simp only [stmtAt, succeeds_bind, succeeds_kind]
  obtain ⟨form, span⟩ := stmt
  cases form with
  | expression e =>
    have hregular : e.Regular := hregular
    have hlegible : e.Legible := hlegible
    have hnesting := Nat.le_of_succ_le_succ hnesting
    have hnud : (Grammar.standard.nud s.kind).isSome := ((e.opens hregular).append _).firstKind hall
    by_cases hk : s.kind = .kwFun
    · rw [hk]
      exact fnDecl_expression hi span hregular hlegible hnesting hk hall
    · have hrule : Grammar.standard.stmt s.kind = none := by
        revert hnud hk
        cases s.kind <;> decide
      rw [hrule]
      exact expressionStmt_complete hi span hregular hlegible hnesting s rest hall trivial
  | varDecl name nameSpan mode type? value? =>
    obtain ⟨htype, hvalue⟩ := StmtForm.nesting_varDecl_le.1 hnesting
    have hread := varDecl_complete hi span (StmtForm.regular_varDecl.1 hregular)
      (StmtForm.legible_varDecl.1 hlegible) htype hvalue s rest hall trivial
    rw [Stmt.pieces, StmtForm.pieces_varDecl, List.append_assoc, List.append_assoc] at hall
    obtain ⟨hk, -⟩ := through_mark hall
    rw [hk]
    cases mode with
    | val => exact hread
    | var => exact hread
  | classDecl name nameSpan parameters members =>
    obtain ⟨hregulars, hmember⟩ := hregular
    obtain ⟨hhead, hmembers⟩ := Nat.max_le.1 hnesting
    obtain ⟨hparameters, -⟩ := Signature.headNesting_le.1 (Nat.le_of_succ_le_succ hhead)
    have hk : s.kind = .kwClass := hall.firstKind rfl
    rw [hk]
    exact classDecl_complete hi span (Stmt.allRegular_iff.1 hregulars)
      (Stmt.allLegible_iff.1 hlegible) hmember hparameters (Stmt.eachNesting_le.1 hmembers) s rest
      hall trivial
  | fnDecl name nameSpan sig =>
    obtain ⟨parameters, result?, ⟨body, bodySpan⟩⟩ := sig
    obtain ⟨hhead, hbody⟩ := Nat.max_le.1 (Nat.le_of_succ_le_succ hnesting)
    have hregulars : ∀ stmt ∈ body, stmt.Regular := Stmt.allRegular_iff.1 hregular
    have hlegibles : ∀ stmt ∈ body, stmt.Legible := Stmt.allLegible_iff.1 hlegible
    have hk : s.kind = .kwFun := hall.firstKind rfl
    rw [hk]
    exact fnDecl_complete hi span hregulars hlegibles hhead (Stmt.eachNesting_le.1 hbody) s rest
      hall trivial
  | ret value? =>
    have hk : s.kind = .kwReturn := by
      cases value? with
      | none => exact hall.firstKind rfl
      | some value => exact hall.firstKind rfl
    rw [hk]
    exact ret_complete hi span (StmtForm.regular_ret.1 hregular) (StmtForm.legible_ret.1 hlegible)
      (StmtForm.nesting_ret_le.1 hnesting) s rest hall trivial
  | block b =>
    obtain ⟨body, bodySpan⟩ := b
    have hk : s.kind = .openCurly := hall.firstKind rfl
    rw [hk]
    exact blockStmt_complete hi ⟨body, bodySpan⟩ span (Stmt.allRegular_iff.1 hregular)
      (Stmt.allLegible_iff.1 hlegible) (Stmt.eachNesting_le.1 (Nat.le_of_succ_le_succ hnesting)) s
      rest hall trivial
  | branch condition thenBody elseBody? =>
    have hk : s.kind = .kwIf := by
      rw [Stmt.pieces, StmtForm.pieces_branch] at hall
      exact hall.firstKind rfl
    rw [hk]
    exact branch_complete hi span hregular hlegible hnesting s rest hall hfollow
  | loop condition body =>
    have hk : s.kind = .kwWhile := hall.firstKind rfl
    rw [hk]
    exact loop_complete hi span hregular hlegible (Nat.max_le.1 (Nat.le_of_succ_le_succ hnesting)) s
      rest hall hfollow
  | print value =>
    have hregular : value.Regular := hregular
    have hk : s.kind = .kwPrint := hall.firstKind rfl
    rw [hk]
    exact print_complete hi span hregular hlegible (Nat.le_of_succ_le_succ hnesting) s rest hall
      trivial

end Inner

/-! ## All levels -/

namespace Grammar

/-- With `room` levels left the readers read back every tree with at most `room` levels. -/
theorem inner_complete (limit room : Nat) : (standard.inner limit room).Complete room := by
  induction room with
  | zero =>
    refine ⟨fun stmt _ _ h => ?_, fun e _ _ _ h => ?_, fun a h => ?_⟩
    · exact absurd stmt.nesting_pos (Nat.not_lt.2 h)
    · exact absurd e.nesting_pos (Nat.not_lt.2 h)
    · exact absurd a.nesting_pos (Nat.not_lt.2 h)
  | succ room ih =>
    exact ⟨fun stmt => Inner.stmtAt_complete ih stmt,
      fun e power hregular hlegible hnesting hpower =>
        Inner.exprAt_complete ih e hpower hregular hlegible hnesting,
      Inner.typeAt_complete ih⟩

end Grammar

end Nominal
