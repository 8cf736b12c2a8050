import Lox.Scope
import Lox.Value
import Lox.Fault
import Lox.Config

set_option autoImplicit false

namespace Lox

inductive Event where
  | printed (text : String)
  /-- A fault was reported. -/
  | reported (fault : Fault)
  /-- A function was entered, in a scope with so many around it. -/
  | entered (name : String) (params : List String) (depth : Nat)
  /-- Two numbers met an operator that is none for numbers. -/
  | noOperator (operator : Token)

namespace Event

def output? : Event → Option String
  | printed text => some text
  | _ => none

def fault? : Event → Option Fault
  | reported fault => some fault
  | _ => none

def diagnostic? (event : Event) : Option Diagnostic :=
  event.fault?.map (·.diagnostic)

end Event

/-- Everything that a run may change: the scopes, the scope in which it is, the number of calls
in progress, the trace, and how many answers natives have given. -/
structure State where
  store : Store
  current : ScopeId
  calls : Nat
  trace : Array Event
  asked : Nat

def Native.clock : Native := ⟨"clock", some 0, 0⟩

namespace State

/-- The scope outside all others. -/
def globals : ScopeId := 0

/-- The state before any program has run, in which the given natives are bound. -/
def initial (config : Config) (natives : List Native) : State :=
  let bound := if config.builtins then Native.clock :: natives else natives
  let bindings := bound.foldl (fun (b : Bindings) n => b.set n.name (.native n)) []
  ⟨Store.empty.extend none bindings, globals, 0, #[], 0⟩

def globalBindings (state : State) : Bindings :=
  state.store.bindings globals

def add (state : State) (event : Event) : State :=
  { state with trace := state.trace.push event }

/-- The events after the first `count`. -/
def since (state : State) (count : Nat) : List Event :=
  (state.trace.extract count state.trace.size).toList

def output (state : State) : List String :=
  state.trace.toList.filterMap Event.output?

def diagnostics (state : State) : List Diagnostic :=
  state.trace.toList.filterMap Event.diagnostic?

end State

end Lox
