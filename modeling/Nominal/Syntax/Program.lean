import Nominal.Syntax.Rules

/-!
# Reading programs under a nesting limit

Each statement, expression and type that is read inside another one is one level further in. The
rules are tied together by the number of levels that are left: with `room` for none, reading stops
with a diagnostic, and otherwise the parts are read with one level less.
-/

namespace Nominal

/-- The nesting limit when none is given. -/
def defaultNestingLimit : Nat :=
  128

namespace Grammar

open Parse

mutual

/-- Reads a statement with `room` levels left. -/
def stmtIn (g : Grammar) (limit : Nat) : Nat → Parse Stmt
  | 0 => failWith fun _ => .nestingTooDeep limit
  | room + 1 => fun s =>
    Inner.stmtAt ⟨g.stmtIn limit room, g.exprIn limit room, g.typeIn limit room⟩ g s

/-- Reads an expression with `room` levels left. -/
def exprIn (g : Grammar) (limit : Nat) : Nat → BindingPower → Parse Expr
  | 0, _ => failWith fun _ => .nestingTooDeep limit
  | room + 1, power => fun s =>
    Inner.exprAt ⟨g.stmtIn limit room, g.exprIn limit room, g.typeIn limit room⟩ g power s

/-- Reads a type with `room` levels left. -/
def typeIn (g : Grammar) (limit : Nat) : Nat → Parse TypeExpr
  | 0 => failWith fun _ => .nestingTooDeep limit
  | room + 1 => fun s =>
    Inner.typeAt ⟨g.stmtIn limit room, g.exprIn limit room, g.typeIn limit room⟩ g s

end

/-- The readers with `room` levels left. -/
def inner (g : Grammar) (limit room : Nat) : Inner :=
  ⟨g.stmtIn limit room, g.exprIn limit room, g.typeIn limit room⟩

/-- Reads a whole program. Its span ends where the end token starts. -/
def program (g : Grammar) (limit : Nat) : Parse Block := do
  let start ← position
  let body ← repeatUntil (· == .eof) (g.stmtIn limit limit)
  return ⟨body, ⟨start, ← position⟩⟩

end Grammar

/-- The program that `tokens` write, or the first thing that is wrong with them. -/
def parse (tokens : List Token) (file : String) (limit : Nat) : Except Diagnostic Block :=
  match Grammar.standard.program limit (.ofTokens file tokens) with
  | .ok block _ => .ok block
  | .error d _ => .error d

end Nominal
