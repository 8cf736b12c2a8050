import Lox.Machine.State

set_option autoImplicit false

namespace Lox

inductive Outcome (α : Type) where
  | done (value : α) (state : State)
  | fault (fault : Fault) (state : State)
  | spent

def Run (α : Type) : Type := State → Outcome α

/-- What natives answer: a table drawn beforehand, with the first answer and those that are given
after so many others, for a clock goes on while a program runs. A native sees its arguments alone,
and always answers. -/
structure Host where
  answer : Native → List Value → Value
  later : Nat → Native → List Value → Value := fun _ => answer

/-- What a native answers when so many answers were given before. -/
def Host.answerAfter (host : Host) : Nat → Native → List Value → Value
  | 0 => host.answer
  | count + 1 => host.later count

/-- What stays the same during a run. -/
structure World where
  host : Host
  config : Config

namespace Run

@[always_inline, inline]
def andThen {α β : Type} (run : Run α) (next : α → Run β) : Run β := fun state =>
  match run state with
  | .done value state => next value state
  | .fault fault state => .fault fault state
  | .spent => .spent

instance : Monad Run where
  pure value := fun state => .done value state
  bind := andThen

def spent {α : Type} : Run α := fun _ => .spent

def fail {α : Type} (token : Token) (cause : Cause) : Run α := fun state =>
  .fault ⟨token, cause⟩ state

def note (event : Event) : Run Unit := fun state =>
  .done () (state.add event)

def here : Run ScopeId := fun state =>
  .done state.current state

def lookUp (name : Token) : Run Value := fun state =>
  match state.store.get? state.current name.lexeme with
  | some value => .done value state
  | none => .fault ⟨name, .undefinedVariable name.lexeme⟩ state

/-- Gives a new value to the nearest binding of a name. -/
def assign (name : Token) (value : Value) : Run Unit := fun state =>
  match state.store.resolve state.current name.lexeme with
  | some scope => .done () { state with store := state.store.define scope name.lexeme value }
  | none => .fault ⟨name, .undefinedVariable name.lexeme⟩ state

def define (name : Token) (value : Value) : Run Unit := fun state =>
  .done () { state with store := state.store.define state.current name.lexeme value }

def ask (host : Host) (native : Native) (arguments : List Value) : Run Value := fun state =>
  .done (host.answerAfter state.asked native arguments) { state with asked := state.asked + 1 }

/-- Opens a scope inside another, without going there. -/
def extend (enclosing : ScopeId) (bindings : Bindings) : Run ScopeId := fun state =>
  .done state.store.size { state with store := state.store.extend (some enclosing) bindings }

/-- Runs in another scope and comes back, however the run ends. -/
@[inline]
def within {α : Type} (scope : ScopeId) (run : Run α) : Run α := fun state =>
  let back := state.current
  match run { state with current := scope } with
  | .done value state => .done value { state with current := back }
  | .fault fault state => .fault fault { state with current := back }
  | .spent => .spent

/-- Runs as a call in progress, which ends however the run ends. Too deep, it does not begin. The
host is taken to have frames without end here; `Stacked.asCall` is a call on a host that has not. -/
@[inline]
def asCall {α : Type} (config : Config) (paren : Token) (run : Run α) : Run α := fun state =>
  if config.maxDepth ≤ state.calls then .fault ⟨paren, .stackOverflow⟩ state
  else
    match run { state with calls := state.calls + 1 } with
    | .done value state => .done value { state with calls := state.calls - 1 }
    | .fault fault state => .fault fault { state with calls := state.calls - 1 }
    | .spent => .spent

/-- Reports a fault, and nil stands for the value that there is not. -/
def report (fault : Fault) : Run Value := fun state =>
  .done .nil (state.add (.reported fault))

/-- Goes on after a fault in the way given for it, unless the policy is to abort. -/
@[inline]
def recover {α : Type} (policy : Policy) (handle : Fault → Run α) (run : Run α) : Run α :=
  fun state =>
    match run state with
    | .fault fault state =>
      match policy with
      | .abort => .fault fault state
      | .resume => handle fault state
    | outcome => outcome

/-- The end of an expression: here a fault is reported, unless the policy is to abort. -/
@[inline]
def settled (policy : Policy) (run : Run Value) : Run Value :=
  recover policy report run

end Run

/-- A call in progress: who was called, and with what. -/
structure Invocation where
  callee : Value
  arguments : List Value

/-- What the host is in the middle of while a part of a program runs. -/
inductive Frame where
  | expression (expr : Expr)
  | arguments
  | invocation (invocation : Invocation)
  | statement (stmt : Stmt)
  | block
  /-- A single step, before what it does to the state or after it. -/
  | step (made : Bool)
  | report (made : Bool)

/-- What an evaluator tells of its course: an operator about to be applied, and what a statement of
the top level that is no expression came to. -/
inductive Mark where
  | unary (operator : Token) (right : Value)
  | binary (operator : Token) (left right : Value)
  | finished (returned : Option Value)

/-- What an evaluator asks of the machine that it runs on, apart from putting one run after
another. -/
class Machine (M : Type → Type) extends Monad M where
  /-- A step that is taken at once. -/
  step {α : Type} : Run α → M α
  mark : Mark → M Unit
  /-- A run on a frame of the host's own. -/
  frame {α : Type} : Frame → M α → M α
  /-- A run in another scope. -/
  within {α : Type} : ScopeId → M α → M α
  /-- A run as a call in progress. -/
  asCall {α : Type} : Config → Token → Invocation → M α → M α
  /-- The end of an expression. -/
  settled : Policy → M Value → M Value

/-- The machine that only does what it is asked, on a host with frames without end. -/
@[always_inline]
instance : Machine Run where
  step run := run
  mark _ := fun state => .done () state
  frame _ run := run
  within := Run.within
  asCall config paren _ run := Run.asCall config paren run
  settled := Run.settled

end Lox
