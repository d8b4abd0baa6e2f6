/-!
# Modes

Whether what a name stands for may be reassigned.
-/

namespace Nominal

/-- `val` can be read only; `var` can be reassigned as well. -/
inductive Mode where
  | val
  | var
  deriving DecidableEq

/-- The word that declares the mode. -/
def Mode.word : Mode → String
  | val => "val"
  | var => "var"

end Nominal
