import Lox.Machine.Evaluate
import Lox.Program

set_option autoImplicit false

namespace Lox

structure Verdict where
  result : Option Value
  aborted : Bool
  state : State

namespace Machine

variable {M : Type → Type} [Machine M]

/-- Runs the statements of the top level, with the result so far. A return ends the program. -/
@[specialize]
def runAll (world : World) (fuel : Nat) : Option Value → Program → M (Option Value)
  | result, [] => pure result
  | _, .expression expr :: rest => do
    let value ← evaluate world fuel expr
    runAll world fuel (some value) rest
  | result, stmt :: rest => do
    let returned ← frame (.statement stmt) (execute world fuel stmt)
    mark (.finished returned)
    match returned with
    | some _ => pure result
    | none => runAll world fuel result rest

end Machine

namespace World

def runAll (world : World) (fuel : Nat) (program : Program) : Run (Option Value) :=
  Machine.runAll world fuel none program

/-- Runs a program from a state, with fuel for so deep a run; too little of it gives none. The stack
of the host does not give out here, as it may for `World.interpretOn?`. -/
def interpret? (world : World) (fuel : Nat) (program : Program) (state : State) :
    Option Verdict :=
  match world.runAll fuel program state with
  | .done result state => some ⟨result, false, state⟩
  | .fault fault state => some ⟨none, true, state.add (.reported fault)⟩
  | .spent => none

/-- The fuel of a run whose end is awaited: more than any machine can use up. -/
def ample : Nat := 1000000000000000000

/-- Runs a program to its end, which may never come. Nobody gets to see the verdict in place of
none. -/
def interpret (world : World) (program : Program) (state : State) : Verdict :=
  (world.interpret? ample program state).getD ⟨none, true, state⟩

end World

end Lox
