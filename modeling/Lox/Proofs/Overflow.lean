import Lox.Proofs.Control
import Lox.Proofs.Widening

set_option autoImplicit false

namespace Lox

def Value.takes (value : Value) (given : Nat) : Bool :=
  match value.arity with
  | none => true
  | some count => given == count

namespace Run

end Run

/-- What a callee does with its arguments, as a call in progress. -/
def Machine.apply {M : Type → Type} [Machine M] (world : World) (fuel : Nat) (callee : Value)
    (values : List Value) : M Value :=
  match callee with
  | .function name params body closure => callFunction world fuel name params body closure values
  | .native native => step (Run.ask world.host native values)
  | _ => pure .nil

theorem Parallel.apply {M N : Type → Type} [Machine M] [Machine N] {left right : World}
    {P : (α : Type) → M α → N α → Prop} {fuel more : Nat} (parallel : Parallel left right P)
    (upto : Upto left right P fuel more) (callee : Value) (values : List Value) :
    P Value (Machine.apply left fuel callee values) (Machine.apply right more callee values) := by
  cases callee with
  | function name params body closure => exact upto.callFunction name params body closure values
  | native native =>
    have same : Machine.apply (M := N) right more (.native native) values =
        Machine.step (Run.ask left.host native values) := by
      rw [parallel.host]
      rfl
    rw [same]
    exact parallel.step (.ask left.host native values)
  | text | number | bool | nil | uninitialized | returned => exact parallel.pure Value.nil

namespace World

variable {world : World}

/-- What a callee does with its arguments, on a frame of its own. -/
def apply (world : World) (fuel : Nat) (callee : Value) (values : List Value) : Stacked Run Value :=
  Stacked.framed (.invocation ⟨callee, values⟩) (Machine.apply world fuel callee values)

/-- A call on a stack has come to where its callee and its arguments have their values, and the stack
does not give out past it. -/
structure Reaches (world : World) (fuel : Nat) (callee : Expr) (paren : Token) (arguments : List Expr)
    (room : Room) (state : State) (value : Value) (values : List Value) (ready : State) : Prop where
  ready : let inside := room.enter (.expression (.call callee paren arguments))
    ∃ middle,
      Machine.evaluate (M := Stacked Run) world fuel callee inside state =
        .done (some value) middle ∧
      Stacked.framed (M := Run) .arguments (Machine.evaluateAll world fuel arguments) inside middle =
        .done (some values) ready
  holds : Stacked.Holds (Machine.evaluate world (fuel + 1) (.call callee paren arguments)) room state

end World

def Frame.size : Frame → Nat
  | expression (.logical ..) | expression (.call ..) => 3
  | expression _ => 2
  | arguments | invocation _ | statement _ | block => 1
  | step _ => 3
  | report _ => 4

namespace Outcome

variable {α : Type}

end Outcome

def Ending.verdict? : Ending → Option Verdict
  | ended verdict => some verdict
  | gaveOut _ | refused => none

namespace World

/-- A call of a function that calls another, which calls a native. -/
def nested : Program :=
  let word (lexeme : String) : Token := .plain .identifier lexeme 1
  let call (name : String) : Stmt :=
    .expression (.call (.var (word name)) (.plain .rightParen ")" 1) [])
  [.function (word "g") [] [call "tick"], .function (word "f") [] [call "g"], call "f"]

end World

end Lox
