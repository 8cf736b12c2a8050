import Lox.Machine.Interpret
import Lox.Log
import Lox.Report
import Lox.Session.Show

set_option autoImplicit false

namespace Lox

/-- A session: what its runs have come to since the start or the last reset. -/
structure Session where
  world : World
  state : State
  problems : Report
  last : Option Value
  aborted : Bool

/-- What a text did to a session: its value, what happened, and its diagnostics. -/
structure Entry where
  value : Option Value
  events : List Event
  problems : Report

namespace Entry

def output (entry : Entry) : String :=
  asLines (entry.events.filterMap Event.output?)

end Entry

namespace Session

def start (world : World) : Session :=
  ⟨world, .initial world.config [], [], none, false⟩

/-- The session without its past, save that its natives go on answering. -/
def reset (session : Session) : Session :=
  let fresh := start session.world
  { fresh with state := { fresh.state with asked := session.state.asked } }

def printed (session : Session) : Nat :=
  session.state.output.length

/-- What a run of a program that ended so did to the session. -/
def entry (session : Session) (verdict : Verdict) : Entry :=
  let events := verdict.state.since session.state.trace.size
  ⟨verdict.result, events, events.filterMap Event.diagnostic?⟩

def after (session : Session) (verdict : Verdict) : Session :=
  { session with
    state := verdict.state
    problems := session.problems ++ (session.entry verdict).problems
    last := verdict.result
    aborted := verdict.aborted }

/-- Runs a program in the session, with fuel for so deep a run. -/
def merge? (session : Session) (fuel : Nat) (program : Program) : Option (Session × Entry) :=
  (session.world.interpret? fuel program session.state).map fun verdict =>
    (session.after verdict, session.entry verdict)

/-- Runs a text in the session, if it is a program. -/
def eval? (session : Session) (fuel : Nat) (text : String) : Option (Session × Entry) :=
  match Program.ofSource text with
  | .ok program => session.merge? fuel program
  | .error problems =>
    some ({ session with problems := session.problems ++ problems }, ⟨none, [], problems⟩)

def merge (session : Session) (program : Program) : Session × Entry :=
  (session.merge? World.ample program).getD (session, ⟨none, [], []⟩)

def eval (session : Session) (text : String) : Session × Entry :=
  (session.eval? World.ample text).getD (session, ⟨none, [], []⟩)

end Session

end Lox
