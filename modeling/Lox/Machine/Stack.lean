import Lox.Machine.Interpret

set_option autoImplicit false

namespace Lox

/-- The stack of a host: the limit on its height before anything runs, the highest limit that can be
set, and how high it stands with frames in use, innermost first. What each frame takes, and what lies
below them all, is the host's affair; it never falls when a frame is put on it. -/
structure Stack where
  limit : Nat
  highest : Nat
  height : List Frame → Nat
  grows : ∀ frame frames, height frames ≤ height (frame :: frames)

/-- The limit set for so many calls in progress, thirty more for each of them, if it can be set. It is
never lowered. -/
def Stack.limitFor? (stack : Stack) (maxDepth : Int) : Option Nat :=
  let needed := maxDepth * 30 + stack.limit
  if needed ≤ stack.limit then some stack.limit
  else if needed ≤ stack.highest then some needed.toNat
  else none

structure Room where
  stack : Stack
  limit : Nat
  frames : List Frame

namespace Room

def fits (room : Room) : Bool :=
  room.stack.height room.frames ≤ room.limit

def enter (room : Room) (frame : Frame) : Room :=
  { room with frames := frame :: room.frames }

end Room

/-- A machine on which a run can go on after a fault. -/
class Recovering (M : Type → Type) extends Machine M where
  recover {α : Type} : Policy → (Fault → Run α) → M α → M α

instance : Recovering Run where
  recover := Run.recover

/-- A run at a place on the stack of its host. It comes to nothing if the stack gives out on the way,
and no call is there that could tell of it. -/
def Stacked (M : Type → Type) (α : Type) : Type := Room → M (Option α)

namespace Stacked

variable {M : Type → Type} [Recovering M] {α β : Type}

def andThen (run : Stacked M α) (next : α → Stacked M β) : Stacked M β := fun room => do
  match ← run room with
  | some value => next value room
  | none => pure none

/-- What is done at once, for which there has to be room before and after. -/
def atOnce (around : Bool → Frame) (run : M α) : Stacked M α := fun room =>
  if (room.enter (around false)).fits then do
    let value ← run
    pure (if (room.enter (around true)).fits then some value else none)
  else pure none

def framed (frame : Frame) (run : Stacked M α) : Stacked M α := fun room =>
  if (room.enter frame).fits then run (room.enter frame) else pure none

/-- Stops at a token, for which there always is room: the caller has come back from higher up. -/
def raise (token : Token) (cause : Cause) : Stacked M α := fun _ =>
  Machine.step (Run.fail token cause)

/-- A run as a call in progress. If the stack gives out in it, that is an overflow as if it had been
too deep, but only when the call is over. -/
def asCall (config : Config) (paren : Token) (invocation : Invocation) (run : Stacked M α) :
    Stacked M α := fun room => do
  match ← Machine.asCall config paren invocation (run.framed (.invocation invocation) room) with
  | some value => pure (some value)
  | none => raise paren .stackOverflow room

def report (room : Room) (fault : Fault) : Run (Option Value) :=
  atOnce .report (Run.report fault) room

def settled (policy : Policy) (run : Stacked M Value) : Stacked M Value := fun room =>
  Recovering.recover policy (report room) (run room)

instance : Machine (Stacked M) where
  pure value := fun _ => pure (some value)
  bind := andThen
  step run := atOnce .step (Machine.step run)
  mark mark := fun _ => do
    Machine.mark mark
    pure (some ())
  frame := framed
  within scope run := fun room => Machine.within scope (run room)
  asCall := asCall
  settled := settled

end Stacked

/-- How a program comes to an end on a host: with a verdict, or with none, since the stack gave out
outside all calls, or the limit could not be set. -/
inductive Ending where
  | ended (verdict : Verdict)
  | gaveOut (state : State)
  | refused

/-- The ending of a program whose statements came to this. A fault that ends it is reported, if there
is room. -/
def Ending.ofOutcome? (room : Room) : Outcome (Option (Option Value)) → Option Ending
  | .done (some result) state => some (.ended ⟨result, false, state⟩)
  | .done none state => some (.gaveOut state)
  | .fault fault state =>
    match Stacked.report room fault state with
    | .done (some _) state => some (.ended ⟨none, true, state⟩)
    | .done none state | .fault _ state => some (.gaveOut state)
    | .spent => none
  | .spent => none

/-- Runs a program from a state on the stack of a host. -/
def World.interpretOn? (world : World) (stack : Stack) (fuel : Nat) (program : Program)
    (state : State) : Option Ending :=
  match stack.limitFor? world.config.maxDepth with
  | none => some .refused
  | some limit =>
    let room : Room := ⟨stack, limit, []⟩
    Ending.ofOutcome? room
      (Machine.runAll (M := Stacked Run) world fuel none program room state)

end Lox
