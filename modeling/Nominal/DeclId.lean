/-!
# Names for declarations

Every declaration has a number of its own. Numbers are handed out from one upwards.
-/

namespace Nominal

/-- The number of a declaration. -/
structure DeclId where
  number : Nat
  deriving DecidableEq

/-- The number as it is shown. -/
def DeclId.text (id : DeclId) : String :=
  s!"#{id.number}"

end Nominal
