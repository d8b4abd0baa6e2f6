import Nominal.Proofs.Syntax.Spelling

/-!
# Trees as tokens, with spans

`Block.layout` prints a tree as `Block.pieces` does and keeps the spans: a node of the tree becomes
a `Layout.node` around its parts, and a name or an operator whose span the tree keeps becomes a
`Layout.word`. `Layout.On` says that a layout stands on certain tokens with the right spans: a word
has the span of its token, and a node reaches from the start of its first token to the end of its
last one.

The parts of a node stand on consecutive tokens. So where tokens come one after the other in the
source, the spans of the parts are inside that of the node and one after the other
(`Layout.On.nests`).
-/

namespace Nominal

/-- A printed tree with the spans of its nodes. -/
inductive Layout where
  /-- Tokens of which the tree keeps no span. -/
  | piece (p : Piece)
  /-- A token of which the tree keeps the span. -/
  | word (p : Piece) (span : Span)
  /-- A node of the tree, with its parts from left to right. -/
  | node (span : Span) (parts : List Layout)

namespace Layout

mutual

/-- The layout stands on the tokens, and has the spans that it should have there. -/
inductive On : Layout → List Token → Prop
  | piece {p : Piece} {ts : List Token} (hp : p.Spells ts) : On (.piece p) ts
  | word {p : Piece} {t : Token} (hp : p.Spells [t]) : On (.word p t.span) [t]
  | node {parts : List Layout} {ts : List Token} {first last : Token} (hparts : AllOn parts ts)
    (hfirst : ts.head? = some first) (hlast : ts.getLast? = some last) :
    On (.node ⟨first.span.start, last.span.stop⟩ parts) ts

/-- The layouts stand on the tokens, one after the other. -/
inductive AllOn : List Layout → List Token → Prop
  | nil : AllOn [] []
  | cons {l : Layout} {ls : List Layout} {ts us : List Token} (hl : On l ts) (hls : AllOn ls us) :
    AllOn (l :: ls) (ts ++ us)

end

mutual

/-- The pieces of a layout without the spans. -/
def pieces : Layout → List Piece
  | .piece p => [p]
  | .word p _ => [p]
  | .node _ parts => allPieces parts

def allPieces : List Layout → List Piece
  | [] => []
  | l :: ls => l.pieces ++ allPieces ls

end

/-- Whether there is always a token for the layout. -/
def isRequired : Layout → Bool
  | .piece p => p.isRequired
  | .word _ _ => true
  | .node _ _ => true

/-- The span that the tree keeps, if it keeps one. -/
def span? : Layout → Option Span
  | .piece _ => none
  | .word _ span => some span
  | .node span _ => some span

variable {l : Layout} {ls ms : List Layout} {ts us : List Token}

theorem AllOn.single (h : l.On ts) : AllOn [l] ts := by
  simpa using AllOn.cons h .nil

theorem On.ne_nil (h : l.On ts) (hl : l.isRequired) : ts ≠ [] := by
  cases h with
  | piece hp => exact hp.ne_nil hl
  | word => simp
  | node _ hfirst _ => exact List.ne_nil_of_mem (List.mem_of_head? hfirst)

theorem AllOn.ne_nil : ∀ {ls : List Layout} {ts : List Token}, AllOn ls ts →
    ls.any isRequired → ts ≠ []
  | _, _, .cons hl hls, hreq => by
    rw [List.any_cons, Bool.or_eq_true] at hreq
    obtain hreq | hreq := hreq
    · simp [hl.ne_nil hreq]
    · simp [hls.ne_nil hreq]

theorem AllOn.append : ∀ {ls : List Layout} {ts : List Token}, AllOn ls ts → AllOn ms us →
    AllOn (ls ++ ms) (ts ++ us)
  | _, _, .nil, h' => h'
  | _, _, .cons hl hls, h' => by
    rw [List.append_assoc]
    exact .cons hl (hls.append h')

theorem allPieces_eq (ls : List Layout) : allPieces ls = (ls.map pieces).flatten := by
  induction ls with
  | nil => rfl
  | cons l ls ih => simp [allPieces, ih]

mutual

/-- What a layout stands on is a spelling of its pieces. -/
theorem On.spelling : ∀ {l : Layout} {ts : List Token}, l.On ts → Piece.Spelling l.pieces ts
  | _, _, .piece hp => .single hp
  | _, _, .word hp => .single hp
  | _, _, .node hparts _ _ => hparts.spelling

theorem AllOn.spelling : ∀ {ls : List Layout} {ts : List Token}, AllOn ls ts →
    Piece.Spelling (allPieces ls) ts
  | _, _, .nil => .nil
  | _, _, .cons hl hls => hl.spelling.append hls.spelling

end

end Layout

/-! ## Printing with spans -/

namespace Layout

/-- Layouts between parentheses with commas between them. -/
def parenthesised (items : List Layout) : List Layout :=
  piece (.mark .openParen) :: items.intersperse (piece (.mark .comma)) ++
    [piece (.mark .closeParen)]

/-- Layouts between braces. -/
def braced (statements : List Layout) : List Layout :=
  piece (.mark .openCurly) :: statements ++ [piece (.mark .closeCurly)]

/-- A mark and the layout behind it, if there is one. -/
def after (kind : Kind) : Option Layout → List Layout
  | some l => [piece (.mark kind), l]
  | none => []

end Layout

open Layout

mutual

/-- A type, printed with its spans. -/
def TypeExpr.layout : TypeExpr → Layout
  | .named name span => node span [piece (.token .identifier name)]
  | .function parameters result span =>
    node span (piece (.token .identifier "Function") ::
      parenthesised (TypeExpr.eachLayout parameters) ++ [piece (.mark .arrow), result.layout])

def TypeExpr.eachLayout : List TypeExpr → List Layout
  | [] => []
  | a :: as => a.layout :: TypeExpr.eachLayout as

end

/-- A parameter, printed with its spans. -/
def Parameter.layout (p : Parameter) : Layout :=
  node p.span [piece (if p.mode = .var then .mark .kwVar else .optionalVal),
    piece (.token .identifier p.name), piece (.mark .colon), p.type.layout]

/-- The parameters of a class. Without any, the parentheses can be left out. -/
def Parameter.classLayouts : List Parameter → List Layout
  | [] => [piece .optionalParens]
  | p :: ps => parenthesised ((p :: ps).map Parameter.layout)

/-- What follows `fun` and a name, given the layout of the body. -/
def Signature.layoutsWith (parameters : List Parameter) (result? : Option TypeExpr)
    (body : Layout) : List Layout :=
  parenthesised (parameters.map Parameter.layout) ++
    (result?.elim [] fun result => [piece .resultMark, result.layout]) ++ [body]

mutual

/-- An expression, printed with its spans. -/
def Expr.layout : Expr → Layout
  | ⟨form, span⟩ => node span form.layouts

def ExprForm.layouts : ExprForm → List Layout
  | .number value => [piece (.number value)]
  | .text value => [piece (.token .string value)]
  | .bool value => [piece (.mark (if value then .kwTrue else .kwFalse))]
  | .symbol name => [piece (.token .identifier name)]
  | .member owner name nameSpan =>
    [owner.layout, piece (.mark .dot), word (.token .identifier name) nameSpan]
  | .assign target value => [target.layout, piece (.mark .assignment), value.layout]
  | .binary left operator right =>
    [left.layout, word (.token operator.kind operator.value) operator.span, right.layout]
  | .unary operator operand =>
    [word (.token operator.kind operator.value) operator.span, operand.layout]
  | .call callee arguments => callee.layout :: parenthesised (Expr.eachLayout arguments)
  | .new className arguments =>
    piece (.mark .kwNew) :: piece (.token .identifier className) ::
      parenthesised (Expr.eachLayout arguments)
  | .lambda ⟨parameters, result?, ⟨body, bodySpan⟩⟩ =>
    piece (.mark .kwFun) ::
      Signature.layoutsWith parameters result? (node bodySpan (braced (Stmt.eachLayout body)))
  | .group inner => [piece (.mark .openParen), inner.layout, piece (.mark .closeParen)]

def Expr.eachLayout : List Expr → List Layout
  | [] => []
  | e :: es => e.layout :: Expr.eachLayout es

/-- A statement, printed with its spans. -/
def Stmt.layout : Stmt → Layout
  | ⟨form, span⟩ => node span form.layouts

def StmtForm.layouts : StmtForm → List Layout
  | .expression e => [e.layout, piece (.mark .semicolon)]
  | .varDecl name nameSpan mode type? (some value) =>
    piece (.mark mode.keyword) :: word (.token .identifier name) nameSpan ::
      (after .colon (type?.map TypeExpr.layout) ++
        [piece (.mark .assignment), value.layout, piece (.mark .semicolon)])
  | .varDecl name nameSpan mode type? none =>
    piece (.mark mode.keyword) :: word (.token .identifier name) nameSpan ::
      (after .colon (type?.map TypeExpr.layout) ++ [piece (.mark .semicolon)])
  | .classDecl name nameSpan parameters members =>
    piece (.mark .kwClass) :: word (.token .identifier name) nameSpan ::
      (Parameter.classLayouts parameters ++ braced (Stmt.eachLayout members))
  | .fnDecl name nameSpan ⟨parameters, result?, ⟨body, bodySpan⟩⟩ =>
    piece (.mark .kwFun) :: word (.token .identifier name) nameSpan ::
      Signature.layoutsWith parameters result? (node bodySpan (braced (Stmt.eachLayout body)))
  | .ret (some value) => [piece (.mark .kwReturn), value.layout, piece (.mark .semicolon)]
  | .ret none => [piece (.mark .kwReturn), piece (.mark .semicolon)]
  | .block ⟨body, bodySpan⟩ => [node bodySpan (braced (Stmt.eachLayout body))]
  | .branch condition thenBody (some elseBody) =>
    [piece (.mark .kwIf), condition.layout, thenBody.layout, piece (.mark .kwElse),
      elseBody.layout]
  | .branch condition thenBody none =>
    [piece (.mark .kwIf), condition.layout, thenBody.layout]
  | .loop condition body => [piece (.mark .kwWhile), condition.layout, body.layout]
  | .print value => [piece (.mark .kwPrint), value.layout, piece (.mark .semicolon)]

def Stmt.eachLayout : List Stmt → List Layout
  | [] => []
  | s :: rest => s.layout :: Stmt.eachLayout rest

end

/-- A program, printed with its spans. -/
def Block.layout (b : Block) : Layout :=
  node b.span (Stmt.eachLayout b.body)

@[simp] theorem TypeExpr.eachLayout_eq (as : List TypeExpr) :
    TypeExpr.eachLayout as = as.map TypeExpr.layout := by
  induction as with
  | nil => rfl
  | cons a as ih => simp [eachLayout, ih]

@[simp] theorem Expr.eachLayout_eq (es : List Expr) : Expr.eachLayout es = es.map Expr.layout := by
  induction es with
  | nil => rfl
  | cons e es ih => simp [eachLayout, ih]

@[simp] theorem Stmt.eachLayout_eq (stmts : List Stmt) :
    Stmt.eachLayout stmts = stmts.map Stmt.layout := by
  induction stmts with
  | nil => rfl
  | cons s rest ih => simp [eachLayout, ih]

/-- An expression has a span, and so a token. -/
@[simp] theorem Expr.isRequired_layout (e : Expr) : e.layout.isRequired := by
  obtain ⟨form, span⟩ := e
  rfl

namespace StmtForm

/-- The parts of a variable declaration in one line, with or without a value. -/
theorem layouts_varDecl (name : String) (nameSpan : Span) (mode : Mode) (type? : Option TypeExpr)
    (value? : Option Expr) :
    (varDecl name nameSpan mode type? value?).layouts =
      [piece (.mark mode.keyword), word (.token .identifier name) nameSpan] ++
        after .colon (type?.map TypeExpr.layout) ++ after .assignment (value?.map Expr.layout) ++
        [piece (.mark .semicolon)] := by
  cases value? <;> simp [layouts, after]

/-- The parts of a branch in one line, with or without an `else`. -/
theorem layouts_branch (condition : Expr) (thenBody : Stmt) (elseBody? : Option Stmt) :
    (branch condition thenBody elseBody?).layouts =
      [piece (.mark .kwIf)] ++ [condition.layout] ++ [thenBody.layout] ++
        after .kwElse (elseBody?.map Stmt.layout) := by
  cases elseBody? <;> simp [layouts, after]

end StmtForm

/-- The parentheses around no parameters are ones that could be left out. -/
theorem Parameter.on_classLayouts {parameters : List Parameter} {ts : List Token}
    (h : AllOn (parenthesised (parameters.map Parameter.layout)) ts) :
    AllOn (Parameter.classLayouts parameters) ts := by
  cases parameters with
  | nil =>
    have hpair : AllOn [piece (.mark .openParen), piece (.mark .closeParen)] ts := h
    have hspelling : Piece.Spelling (Parameter.classPieces []) ts :=
      Parameter.spelling_classPieces hpair.spelling
    cases hspelling with
    | cons hp hnil =>
      cases hnil
      rw [List.append_nil]
      exact .single (.piece hp)
  | cons p ps => exact h

/-! ## Without the spans -/

namespace Layout

@[simp] theorem allPieces_nil : allPieces [] = [] :=
  rfl

@[simp] theorem allPieces_cons (l : Layout) (ls : List Layout) :
    allPieces (l :: ls) = l.pieces ++ allPieces ls :=
  rfl

@[simp] theorem allPieces_append (ls ms : List Layout) :
    allPieces (ls ++ ms) = allPieces ls ++ allPieces ms := by
  simp [allPieces_eq]

@[simp] theorem allPieces_parenthesised (items : List Layout) :
    allPieces (parenthesised items) = Piece.parenthesised (items.map pieces) := by
  have hitems : allPieces (items.intersperse (piece (.mark .comma))) =
      List.intercalate [.mark .comma] (items.map pieces) := by
    induction items with
    | nil => rfl
    | cons l ls ih =>
      cases ls with
      | nil => simp
      | cons m ls =>
        rw [List.map_cons, List.map_cons, List.intercalate_cons_cons, ← List.map_cons, ← ih]
        simp [pieces]
  simp [parenthesised, Piece.parenthesised, hitems, pieces]

@[simp] theorem allPieces_braced (statements : List Layout) :
    allPieces (braced statements) = Piece.braced (statements.map pieces) := by
  simp [braced, Piece.braced, pieces, allPieces_eq statements]

@[simp] theorem allPieces_after (kind : Kind) (l? : Option Layout) :
    allPieces (after kind l?) = Piece.after kind (l?.map pieces) := by
  cases l? <;> simp [after, Piece.after, pieces]

end Layout

mutual

@[simp] theorem TypeExpr.pieces_layout : ∀ a : TypeExpr, a.layout.pieces = a.pieces
  | .named name span => by simp [TypeExpr.layout, TypeExpr.pieces, Layout.pieces]
  | .function parameters result span => by
    simp only [TypeExpr.layout, TypeExpr.pieces, allPieces_append, allPieces_cons, allPieces_nil,
      allPieces_parenthesised, TypeExpr.pieces_eachLayout parameters, result.pieces_layout,
      Layout.pieces, List.append_nil, List.cons_append, List.nil_append]

theorem TypeExpr.pieces_eachLayout : ∀ as : List TypeExpr,
    (TypeExpr.eachLayout as).map Layout.pieces = TypeExpr.eachPieces as
  | [] => rfl
  | a :: as => by
    rw [TypeExpr.eachLayout, TypeExpr.eachPieces, List.map_cons, a.pieces_layout,
      TypeExpr.pieces_eachLayout as]

end

@[simp] theorem Parameter.pieces_layout (p : Parameter) : p.layout.pieces = p.pieces := by
  simp [Parameter.layout, Parameter.pieces, Layout.pieces]

@[simp] theorem Parameter.allPieces_classLayouts (parameters : List Parameter) :
    allPieces (Parameter.classLayouts parameters) = Parameter.classPieces parameters := by
  cases parameters with
  | nil => rfl
  | cons p ps => simp [Parameter.classLayouts, Parameter.classPieces, Function.comp_def]

@[simp] theorem Signature.allPieces_layoutsWith (parameters : List Parameter)
    (result? : Option TypeExpr) (span : Span) (statements : List Layout) :
    allPieces (Signature.layoutsWith parameters result? (node span (braced statements))) =
      Signature.piecesWith parameters result? (statements.map Layout.pieces) := by
  cases result? <;>
    simp [Signature.layoutsWith, Signature.piecesWith, Layout.pieces, Function.comp_def]

mutual

/-- Without its spans, the layout of a tree is the printed tree. -/
theorem Expr.pieces_layout : ∀ e : Expr, e.layout.pieces = e.pieces
  | ⟨form, _⟩ => form.allPieces_layouts

theorem ExprForm.allPieces_layouts : ∀ form : ExprForm, allPieces form.layouts = form.pieces
  | .number _ | .text _ | .bool _ | .symbol _ => rfl
  | .member owner _ _ => by
    simp [ExprForm.layouts, ExprForm.pieces, Layout.pieces, owner.pieces_layout]
  | .assign target value => by
    simp [ExprForm.layouts, ExprForm.pieces, Layout.pieces, target.pieces_layout,
      value.pieces_layout]
  | .binary left _ right => by
    simp [ExprForm.layouts, ExprForm.pieces, Layout.pieces, left.pieces_layout,
      right.pieces_layout]
  | .unary _ operand => by
    simp [ExprForm.layouts, ExprForm.pieces, Layout.pieces, operand.pieces_layout]
  | .call callee arguments => by
    rw [ExprForm.layouts, ExprForm.pieces, allPieces_cons, allPieces_parenthesised,
      callee.pieces_layout, Expr.pieces_eachLayout arguments]
  | .new _ arguments => by
    simp only [ExprForm.layouts, ExprForm.pieces, allPieces_cons, allPieces_parenthesised,
      Expr.pieces_eachLayout arguments, Layout.pieces, List.singleton_append]
  | .lambda ⟨parameters, result?, ⟨body, _⟩⟩ => by
    simp only [ExprForm.layouts, ExprForm.pieces, allPieces_cons, Signature.allPieces_layoutsWith,
      Stmt.pieces_eachLayout body, Layout.pieces, List.singleton_append]
  | .group inner => by
    simp [ExprForm.layouts, ExprForm.pieces, Layout.pieces, inner.pieces_layout]

theorem Expr.pieces_eachLayout : ∀ es : List Expr,
    (Expr.eachLayout es).map Layout.pieces = Expr.eachPieces es
  | [] => rfl
  | e :: es => by
    rw [Expr.eachLayout, Expr.eachPieces, List.map_cons, e.pieces_layout,
      Expr.pieces_eachLayout es]

theorem Stmt.pieces_layout : ∀ s : Stmt, s.layout.pieces = s.pieces
  | ⟨form, _⟩ => form.allPieces_layouts

theorem StmtForm.allPieces_layouts : ∀ form : StmtForm, allPieces form.layouts = form.pieces
  | .expression e => by simp [StmtForm.layouts, StmtForm.pieces, Layout.pieces, e.pieces_layout]
  | .varDecl _ _ _ type? (some value) => by
    cases type? <;>
      simp [StmtForm.layouts, StmtForm.pieces, Layout.pieces, value.pieces_layout]
  | .varDecl _ _ _ type? none => by
    cases type? <;> simp [StmtForm.layouts, StmtForm.pieces, Layout.pieces]
  | .classDecl _ _ parameters members => by
    simp only [StmtForm.layouts, StmtForm.pieces, allPieces_cons, allPieces_append,
      allPieces_braced, Parameter.allPieces_classLayouts, Stmt.pieces_eachLayout members,
      Layout.pieces, List.singleton_append]
  | .fnDecl _ _ ⟨parameters, result?, ⟨body, _⟩⟩ => by
    simp only [StmtForm.layouts, StmtForm.pieces, allPieces_cons, Signature.allPieces_layoutsWith,
      Stmt.pieces_eachLayout body, Layout.pieces, List.singleton_append]
  | .ret (some value) => by
    simp [StmtForm.layouts, StmtForm.pieces, Layout.pieces, value.pieces_layout]
  | .ret none => rfl
  | .block ⟨body, _⟩ => by
    simp only [StmtForm.layouts, StmtForm.pieces, allPieces_cons, allPieces_nil, List.append_nil,
      Layout.pieces, allPieces_braced, Stmt.pieces_eachLayout body]
  | .branch condition thenBody (some elseBody) => by
    simp [StmtForm.layouts, StmtForm.pieces, Layout.pieces, condition.pieces_layout,
      thenBody.pieces_layout, elseBody.pieces_layout]
  | .branch condition thenBody none => by
    simp [StmtForm.layouts, StmtForm.pieces, Layout.pieces, condition.pieces_layout,
      thenBody.pieces_layout]
  | .loop condition body => by
    simp [StmtForm.layouts, StmtForm.pieces, Layout.pieces, condition.pieces_layout,
      body.pieces_layout]
  | .print value => by
    simp [StmtForm.layouts, StmtForm.pieces, Layout.pieces, value.pieces_layout]

theorem Stmt.pieces_eachLayout : ∀ stmts : List Stmt,
    (Stmt.eachLayout stmts).map Layout.pieces = Stmt.eachPieces stmts
  | [] => rfl
  | s :: rest => by
    rw [Stmt.eachLayout, Stmt.eachPieces, List.map_cons, s.pieces_layout,
      Stmt.pieces_eachLayout rest]

end

theorem Block.pieces_layout (b : Block) : b.layout.pieces = b.pieces := by
  rw [Block.layout, Block.pieces, Layout.pieces, allPieces_eq, Stmt.pieces_eachLayout]

/-! ## Spans in order -/

namespace Span

/-- The stretch `a` is part of `b`. -/
structure Inside (a b : Span) : Prop where
  start : b.start.offset ≤ a.start.offset
  stop : a.stop.offset ≤ b.stop.offset

/-- The stretch `a` ends before `b` starts, so the two have nothing in common. -/
def Before (a b : Span) : Prop :=
  a.stop.offset ≤ b.start.offset

end Span

/-- The tokens come one after the other. -/
structure Token.InOrder (ts : List Token) : Prop where
  forward : ∀ t ∈ ts, t.span.start.offset ≤ t.span.stop.offset
  ordered : ts.Pairwise fun t u => t.span.Before u.span

namespace Token.InOrder

variable {ts us : List Token} {t u : Token}

theorem left (h : InOrder (ts ++ us)) : InOrder ts :=
  ⟨fun t ht => h.forward t (List.mem_append_left us ht), (List.pairwise_append.1 h.ordered).1⟩

theorem right (h : InOrder (ts ++ us)) : InOrder us :=
  ⟨fun t ht => h.forward t (List.mem_append_right ts ht), (List.pairwise_append.1 h.ordered).2.1⟩

theorem before (h : InOrder (ts ++ us)) (ht : t ∈ ts) (hu : u ∈ us) : t.span.Before u.span :=
  (List.pairwise_append.1 h.ordered).2.2 t ht u hu

/-- No token starts before the first one. -/
theorem head_le (h : InOrder ts) (hfirst : ts.head? = some t) (hu : u ∈ ts) :
    t.span.start.offset ≤ u.span.start.offset := by
  obtain ⟨rest, rfl⟩ := List.head?_eq_some_iff.1 hfirst
  obtain rfl | hrest := List.mem_cons.1 hu
  · exact UInt32.le_refl _
  · exact UInt32.le_trans (h.forward t List.mem_cons_self)
      ((List.pairwise_cons.1 h.ordered).1 u hrest)

/-- No token ends behind the last one. -/
theorem le_last (h : InOrder ts) (hlast : ts.getLast? = some t) (hu : u ∈ ts) :
    u.span.stop.offset ≤ t.span.stop.offset := by
  obtain ⟨rest, rfl⟩ := List.getLast?_eq_some_iff.1 hlast
  obtain hrest | hsame := List.mem_append.1 hu
  · exact UInt32.le_trans (h.before hrest (List.mem_singleton_self t))
      (h.forward t (List.mem_append_right rest (List.mem_singleton_self t)))
  · obtain rfl := List.mem_singleton.1 hsame
    exact UInt32.le_refl _

end Token.InOrder

namespace Layout

/-- The spans of the parts of every node are inside that of the node, and one after the other. -/
inductive Nests : Layout → Prop
  | piece {p : Piece} : Nests (.piece p)
  | word {p : Piece} {span : Span} : Nests (.word p span)
  | node {span : Span} {parts : List Layout}
    (inside : ∀ part ∈ parts, ∀ s ∈ part.span?, s.Inside span)
    (before : (parts.filterMap span?).Pairwise Span.Before)
    (nests : ∀ part ∈ parts, part.Nests) : Nests (.node span parts)

variable {l : Layout} {ls : List Layout} {ts : List Token}

/-- What a layout with a span stands on begins and ends where the span does. -/
theorem On.exists_of_span? (h : l.On ts) {s : Span} (hs : s ∈ l.span?) :
    ∃ first ∈ ts, ∃ last ∈ ts, s.start = first.span.start ∧ s.stop = last.span.stop := by
  cases h with
  | piece => cases hs
  | @word p t =>
    obtain rfl := Option.some.inj hs
    exact ⟨t, List.mem_singleton_self t, t, List.mem_singleton_self t, rfl, rfl⟩
  | @node parts ts first last hparts hfirst hlast =>
    obtain rfl := Option.some.inj hs
    exact ⟨first, List.mem_of_head? hfirst, last, List.mem_of_getLast? hlast, rfl, rfl⟩

theorem AllOn.exists_of_span? : ∀ {ls : List Layout} {ts : List Token}, AllOn ls ts →
    ∀ l ∈ ls, ∀ s ∈ l.span?,
      ∃ first ∈ ts, ∃ last ∈ ts, s.start = first.span.start ∧ s.stop = last.span.stop
  | _, _, .nil => fun _ hl => nomatch hl
  | _, _, .cons hl hls => by
    refine List.forall_mem_cons.2 ⟨fun s hs => ?_, fun part hpart s hs => ?_⟩
    · obtain ⟨first, hfirst, last, hlast, hspan⟩ := hl.exists_of_span? hs
      exact ⟨first, List.mem_append_left _ hfirst, last, List.mem_append_left _ hlast, hspan⟩
    · obtain ⟨first, hfirst, last, hlast, hspan⟩ := hls.exists_of_span? part hpart s hs
      exact ⟨first, List.mem_append_right _ hfirst, last, List.mem_append_right _ hlast, hspan⟩

/-- The spans of layouts that stand on consecutive tokens are one after the other. -/
theorem AllOn.before : ∀ {ls : List Layout} {ts : List Token}, AllOn ls ts →
    Token.InOrder ts → (ls.filterMap span?).Pairwise Span.Before
  | _, _, .nil, _ => .nil
  | _, _, .cons (l := l) hl hls, h => by
    have hrest := hls.before h.right
    cases hspan : l.span? with
    | none =>
      -- a piece keeps no span, so there is nothing to compare
      rwa [List.filterMap_cons_none hspan]
    | some s =>
      rw [List.filterMap_cons_some hspan]
      refine List.pairwise_cons.2 ⟨fun s' hs' => ?_, hrest⟩
      obtain ⟨part, hpart, hs'⟩ := List.mem_filterMap.1 hs'
      obtain ⟨-, -, last, hlast, -, hstop⟩ := hl.exists_of_span? hspan
      obtain ⟨first, hfirst, -, -, hstart, -⟩ := hls.exists_of_span? part hpart s' hs'
      rw [Span.Before, hstop, hstart]
      exact h.before hlast hfirst

mutual

/-- Where the tokens come one after the other, so do the parts of every node. -/
theorem On.nests : ∀ {l : Layout} {ts : List Token}, l.On ts → Token.InOrder ts → l.Nests
  | _, _, .piece _, _ => .piece
  | _, _, .word _, _ => .word
  | _, _, .node hparts hfirst hlast, h => by
    refine .node (fun part hpart s hs => ?_) (hparts.before h) (hparts.nests h)
    obtain ⟨first, hfirst', last, hlast', hstart, hstop⟩ := hparts.exists_of_span? part hpart s hs
    exact ⟨hstart ▸ h.head_le hfirst hfirst', hstop ▸ h.le_last hlast hlast'⟩

theorem AllOn.nests : ∀ {ls : List Layout} {ts : List Token}, AllOn ls ts → Token.InOrder ts →
    ∀ l ∈ ls, l.Nests
  | _, _, .nil, _ => fun _ hl => nomatch hl
  | _, _, .cons hl hls, h => List.forall_mem_cons.2 ⟨hl.nests h.left, hls.nests h.right⟩

end

end Layout

/-- The statements of the program stand on `body`, one after the other. Its span starts where the
first token does, but ends before the end token, where that one starts. -/
structure Block.StandsOn (program : Block) (body : List Token) (last : Token) : Prop where
  parts : AllOn (program.body.map Stmt.layout) body
  start : program.span.start = (body.headD last).span.start
  stop : program.span.stop = last.span.start

/-- A program stands on a spelling of it. -/
theorem Block.StandsOn.spelling {program : Block} {body : List Token} {last : Token}
    (h : program.StandsOn body last) : Piece.Spelling program.pieces body := by
  rw [← program.pieces_layout, Block.layout, Layout.pieces, Stmt.eachLayout_eq]
  exact h.parts.spelling

theorem Block.StandsOn.nests {program : Block} {body : List Token} {last : Token}
    (h : program.StandsOn body last) (horder : Token.InOrder (body ++ [last])) :
    program.layout.Nests := by
  rw [Block.layout, Stmt.eachLayout_eq]
  refine .node (fun part hpart s hs => ?_) (h.parts.before horder.left) (h.parts.nests horder.left)
  obtain ⟨first, hfirst, final, hfinal, hstart, hstop⟩ := h.parts.exists_of_span? part hpart s hs
  have hhead : (body ++ [last]).head? = some (body.headD last) := by
    cases body <;> rfl
  constructor
  · rw [h.start, hstart]
    exact horder.head_le hhead (List.mem_append_left _ hfirst)
  · -- no part takes the last token, so each ends before it starts
    rw [h.stop, hstop]
    exact horder.before hfinal (List.mem_singleton_self last)

end Nominal
