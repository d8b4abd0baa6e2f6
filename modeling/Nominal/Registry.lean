import Nominal.DeclId
import Nominal.Ty.Basic

/-!
# The registry of declarations

Declarations are entered with numbers from a single counter. Between `begin` and `commit` or `abort`
they are staged, in one layer for each open transaction. A layer that commits joins the layer around
it, or the committed declarations when there is none; a layer that aborts is dropped. A number is
never handed out again, whatever became of its declaration.
-/

namespace Nominal

/-- A variable, parameter, function or class member, with the number it was given. -/
structure Declaration where
  id : DeclId
  name : String
  type : Slot Ty

/-- Declarations, with the layers of the open transactions from the innermost outwards. -/
structure Registry where
  lastNumber : Nat
  committed : List Declaration
  layers : List (List Declaration)

/-- Why a declaration can not be looked up. -/
inductive ResolveError where
  | transactionOpen
  deriving DecidableEq

/-- The reason in words. -/
def ResolveError.message : ResolveError → String
  | transactionOpen => "declarations can not be resolved while a transaction is open"

namespace Registry

/-- No declarations, and no open transaction. -/
def empty : Registry :=
  ⟨0, [], []⟩

/-- Enters a declaration under the next number. Outside of transactions it is committed at once. -/
def insert (r : Registry) (name : String) (type : Slot Ty) : DeclId × Registry :=
  let id : DeclId := ⟨r.lastNumber + 1⟩
  let declaration : Declaration := ⟨id, name, type⟩
  match r.layers with
  | [] => (id, ⟨id.number, r.committed ++ [declaration], []⟩)
  | layer :: outer => (id, ⟨id.number, r.committed, (layer ++ [declaration]) :: outer⟩)

/-- Opens a transaction inside those that are open. -/
def begin (r : Registry) : Registry :=
  { r with layers := [] :: r.layers }

/-- Closes the innermost transaction and keeps what it staged. -/
def commit (r : Registry) : Registry :=
  match r.layers with
  | [] => r
  | [layer] => { r with committed := r.committed ++ layer, layers := [] }
  | layer :: outer :: rest => { r with layers := (outer ++ layer) :: rest }

/-- Closes the innermost transaction and drops what it staged. -/
def abort (r : Registry) : Registry :=
  { r with layers := r.layers.tail }

/-- Closes the innermost transaction by `commit` if it succeeded, else by `abort`. -/
def finish (r : Registry) (succeeded : Bool) : Registry :=
  if succeeded then r.commit else r.abort

/-- Runs `f` inside a transaction, which is committed exactly when `f` succeeds. -/
def transaction {ε α : Type} (r : Registry) (f : Registry → Except ε α × Registry) :
    Except ε α × Registry :=
  match f r.begin with
  | (.ok a, r) => (.ok a, r.commit)
  | (.error e, r) => (.error e, r.abort)

/-- Whether a transaction is open. -/
def inTransaction (r : Registry) : Bool :=
  !r.layers.isEmpty

/-- The committed declaration with the number `id`. There is no answer while a transaction is
open. -/
def resolve (r : Registry) (id : DeclId) : Except ResolveError (Option Declaration) :=
  if r.inTransaction then .error .transactionOpen
  else .ok (r.committed.find? fun d => d.id == id)

/-- The number handed out last. -/
def lastId? (r : Registry) : Option DeclId :=
  if r.lastNumber = 0 then none else some ⟨r.lastNumber⟩

end Registry

end Nominal
