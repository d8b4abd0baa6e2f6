import Nominal.Proofs.Syntax.Printed
import Nominal.Proofs.Token.Identifier
import Nominal.Proofs.Token.Steps

/-!
# Texts that are cut into given pieces

`Piece.Cuts` says that a text is cut into tokens that certain pieces can be written with, wherever
the text stands in a source. What may follow is part of it, as a token takes as much of the source as
it can. Texts one after the other are cut into the pieces of both (`Piece.Cuts.append`).
-/

namespace Nominal

namespace Piece

/-- Wherever the text stands, with what `follow` allows after it, it is cut into tokens that the
pieces can be written with. -/
def Cuts (text : List Char) (ps : List Piece) (follow : List Char → Prop) : Prop :=
  ∀ (c : Cursor) (after : List Char), c.rest = text ++ after → follow after →
    ∃ (ts : List Token) (d : Cursor), Spelling ps ts ∧ d.rest = after ∧
      c.tokens = (ts ++ ·) <$> d.tokens

variable {text text' : List Char} {ps qs : List Piece} {follow follow' : List Char → Prop}

theorem Cuts.nil : Cuts [] [] follow := by
  intro c after hrest _
  exact ⟨[], c, .nil, hrest, (id_map _).symm⟩

/-- Two texts one after the other, where the second may follow the first. -/
theorem Cuts.append (h : Cuts text ps follow) (h' : Cuts text' qs follow')
    (hfollow : ∀ after, follow' after → follow (text' ++ after)) :
    Cuts (text ++ text') (ps ++ qs) follow' := by
  intro c after hrest hafter
  rw [List.append_assoc] at hrest
  obtain ⟨ts, d, hts, hd, htokens⟩ := h c (text' ++ after) hrest (hfollow after hafter)
  obtain ⟨us, e, hus, he, htokens'⟩ := h' d after hd hafter
  refine ⟨ts ++ us, e, hts.append hus, he, ?_⟩
  rw [htokens, htokens', ← comp_map]
  congr 1
  funext more
  exact (List.append_assoc ts us more).symm

/-- A text that is the first lexeme wherever it stands, and is cut into one token. -/
theorem cuts_of_token {p : Piece} {kind : Kind} {value : String}
    (hfirst : ∀ after, follow after →
      Lexeme.first? (text ++ after) = some ⟨.token kind value, text, after⟩)
    (hp : ∀ span, p.Spells [⟨kind, value, span⟩]) : Cuts text [p] follow := by
  intro c after hrest hafter
  have hc := hfirst after hafter
  rw [← hrest] at hc
  exact ⟨_, c.past text after, .single (hp _), rfl, Cursor.tokens_of_first? hc⟩

theorem cuts_identifier {name : String} (hname : IsIdentifier name) :
    Cuts name.toList [.token .identifier name] Lexeme.NameEnds :=
  cuts_of_token (fun _ hafter => Lexeme.first?_identifier hname hafter) fun _ => .token rfl rfl

theorem cuts_mark {value : String} {kind : Kind}
    (hmark : (value, kind) ∈
      [("(", Kind.openParen), (")", .closeParen), (",", .comma), ("->", .arrow)]) :
    Cuts value.toList [.mark kind] fun _ => True := by
  have htable : ∀ m ∈ [("(", Kind.openParen), (")", .closeParen), (",", .comma), ("->", .arrow)],
      m ∈ Kind.marks ++ Kind.reserved := by decide
  exact cuts_of_token (fun after _ => Lexeme.first?_mark after _ hmark)
    fun _ => .mark rfl (htable _ hmark)

/-- A space before something else is dropped. -/
theorem Cuts.space (h : Cuts text ps follow)
    (hhead : ∃ first rest, text = first :: rest ∧ isBlank first = false) :
    Cuts (' ' :: text) ps follow := by
  intro c after hrest hafter
  have hblank : ∀ d ∈ (text ++ after).head?, isBlank d = false := by
    obtain ⟨first, rest, rfl, hfirst⟩ := hhead
    rintro d ⟨⟩
    exact hfirst
  have hfirst := Lexeme.first?_space hblank
  rw [← List.cons_append, ← hrest] at hfirst
  rw [Cursor.tokens_of_first? hfirst]
  exact h _ after rfl hafter

/-- A source that is cut as a whole gives these tokens and an end token. -/
theorem Cuts.tokenize {source : String} (h : Cuts source.toList ps follow) (hend : follow [])
    (file : String) : ∃ (ts : List Token) (last : Token), Spelling ps ts ∧ last.kind = .eof ∧
      tokenize source file = .ok (ts ++ [last]) := by
  have hrest : (Cursor.ofString source file).rest = source.toList ++ [] := (List.append_nil _).symm
  obtain ⟨ts, d, hts, hd, htokens⟩ := h _ [] hrest hend
  refine ⟨ts, .endAt d.position, hts, rfl, ?_⟩
  rw [Nominal.tokenize, htokens, Cursor.tokens_of_rest_eq_nil hd]
  rfl

end Piece

end Nominal
