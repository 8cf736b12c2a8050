set_option autoImplicit false

namespace Lox

inductive Policy where
  /-- Report it, take nil for the faulty expression and go on. -/
  | resume
  /-- Report it and end the program. -/
  | abort
deriving DecidableEq, Repr

def Policy.name : Policy → String
  | resume => "continue"
  | abort => "abort"

/-- The settings of a machine. A bound on calls that is not positive allows none. -/
structure Config where
  policy : Policy
  builtins : Bool
  maxDepth : Int
deriving DecidableEq, Repr

def Config.standard : Config :=
  ⟨.resume, true, 2000⟩

end Lox
