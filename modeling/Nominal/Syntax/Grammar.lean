import Nominal.Token.Kind

/-!
# The grammar as a table

Which rule reads a statement, an expression or a type is decided by the kind of the current token.
A `Grammar` holds these decisions: rules that begin a statement, rules that begin an expression
(`nud`), rules that continue one to its right (`led`) with the power by which they bind, and rules
that begin a type. `Grammar.standard` is the grammar of the language; `Grammar.empty` knows no rule.
-/

namespace Nominal

/-- How tightly a rule binds the expression on its left, from the loosest to the tightest. -/
inductive BindingPower where
  | default
  | comma
  | assignment
  | equality
  | relational
  | additive
  | multiplicative
  | unary
  | call
  | member
  | primary
  deriving DecidableEq

namespace BindingPower

/-- The powers as numbers, in order. -/
def rank : BindingPower → Nat
  | default => 0
  | comma => 1
  | assignment => 2
  | equality => 3
  | relational => 4
  | additive => 5
  | multiplicative => 6
  | unary => 7
  | call => 8
  | member => 9
  | primary => 10

instance : LT BindingPower := ⟨fun a b => a.rank < b.rank⟩

instance (a b : BindingPower) : Decidable (a < b) :=
  inferInstanceAs (Decidable (a.rank < b.rank))

/-- The name of a power. -/
def name : BindingPower → String
  | default => "Default"
  | comma => "Comma"
  | assignment => "Assignment"
  | equality => "Equality"
  | relational => "Relational"
  | additive => "Additive"
  | multiplicative => "Multiplicative"
  | unary => "Unary"
  | call => "Call"
  | member => "Member"
  | primary => "Primary"

end BindingPower

/-- A rule that reads a whole statement. -/
inductive StmtRule where
  | varDecl
  | classDecl
  | fnDecl
  | ret
  | branch
  | loop
  | print
  | block
  deriving DecidableEq

/-- A rule that begins an expression. -/
inductive NudRule where
  | primary
  | unary
  | group
  | new
  | lambda
  deriving DecidableEq

/-- A rule that continues an expression to the right. -/
inductive LedRule where
  | assignment
  | binary
  | call
  | member
  deriving DecidableEq

/-- A rule that reads a type. -/
inductive TypeRule where
  | named
  | function
  deriving DecidableEq

/-- The rules by the kind of the current token. -/
structure Grammar where
  stmt : Kind → Option StmtRule
  nud : Kind → Option NudRule
  led : Kind → Option (BindingPower × LedRule)
  type : Kind → Option TypeRule

namespace Grammar

/-- The grammar without rules. -/
def empty : Grammar :=
  ⟨fun _ => none, fun _ => none, fun _ => none, fun _ => none⟩

/-- The grammar of the language. -/
def standard : Grammar where
  stmt
    | .kwVal => some .varDecl
    | .kwVar => some .varDecl
    | .kwClass => some .classDecl
    | .kwFun => some .fnDecl
    | .kwReturn => some .ret
    | .kwIf => some .branch
    | .kwWhile => some .loop
    | .kwPrint => some .print
    | .openCurly => some .block
    | _ => none
  nud
    | .number => some .primary
    | .identifier => some .primary
    | .string => some .primary
    | .kwTrue => some .primary
    | .kwFalse => some .primary
    | .dash => some .unary
    | .not => some .unary
    | .openParen => some .group
    | .kwNew => some .new
    | .kwFun => some .lambda
    | _ => none
  led
    | .assignment => some (.assignment, .assignment)
    | .equals => some (.equality, .binary)
    | .notEquals => some (.equality, .binary)
    | .less => some (.relational, .binary)
    | .lessEquals => some (.relational, .binary)
    | .greater => some (.relational, .binary)
    | .greaterEquals => some (.relational, .binary)
    | .plus => some (.additive, .binary)
    | .dash => some (.additive, .binary)
    | .star => some (.multiplicative, .binary)
    | .slash => some (.multiplicative, .binary)
    | .openParen => some (.call, .call)
    | .dot => some (.member, .member)
    | _ => none
  type
    | .identifier => some .named
    | _ => none

/-- `table` with `rule` for `kind`. -/
def enter {ρ : Type} (table : Kind → Option ρ) (kind : Kind) (rule : ρ) : Kind → Option ρ :=
  fun k => if k = kind then some rule else table k

/-- The grammar in which a statement that starts with `kind` is read by `rule`. -/
def withStmt (g : Grammar) (kind : Kind) (rule : StmtRule) : Grammar :=
  { g with stmt := enter g.stmt kind rule }

/-- The grammar in which an expression that starts with `kind` is read by `rule`. -/
def withNud (g : Grammar) (kind : Kind) (rule : NudRule) : Grammar :=
  { g with nud := enter g.nud kind rule }

/-- The grammar in which `kind` continues an expression by `rule` and binds with `power`. -/
def withLed (g : Grammar) (kind : Kind) (power : BindingPower) (rule : LedRule) : Grammar :=
  { g with led := enter g.led kind (power, rule) }

/-- The grammar in which a type that starts with `kind` is read by `rule`. -/
def withType (g : Grammar) (kind : Kind) (rule : TypeRule) : Grammar :=
  { g with type := enter g.type kind rule }

/-- The power with which `kind` binds the expression on its left. -/
def power (g : Grammar) (kind : Kind) : BindingPower :=
  ((g.led kind).map Prod.fst).getD .default

end Grammar

end Nominal
