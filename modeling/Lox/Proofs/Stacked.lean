import Lox.Machine.Stack
import Lox.Proofs.Trace
import Lox.Proofs.Watched

set_option autoImplicit false

namespace Lox

open Machine

instance : Recovering Watched where
  recover := Watched.recover

section

variable {M N : Type → Type} [Recovering M] [Recovering N]

/-- A relation between runs that is also kept by the parts of opening a scope, and by going on after
a fault with its report. -/
structure Stackable (left right : World) (P : (α : Type) → M α → N α → Prop) : Prop extends
    Parallel left right P where
  extend (enclosing : ScopeId) (bindings : Bindings) :
    P ScopeId (Machine.step (Run.extend enclosing bindings))
      (Machine.step (Run.extend enclosing bindings))
  within {α : Type} {scope : ScopeId} {first : M α} {second : N α} (runs : P α first second) :
    P α (Machine.within scope first) (Machine.within scope second)
  recover {room : Room} {first : M (Option Value)} {second : N (Option Value)}
    (runs : P (Option Value) first second) :
    P (Option Value) (Recovering.recover left.config.policy (Stacked.report room) first)
      (Recovering.recover right.config.policy (Stacked.report room) second)

def Everywhere (P : (α : Type) → M α → N α → Prop) (α : Type) (first : Stacked M α)
    (second : Stacked N α) : Prop :=
  ∀ room, P (Option α) (first room) (second room)

namespace Stackable

variable {left right : World} {P : (α : Type) → M α → N α → Prop}

theorem atOnce (stackable : Stackable left right P) {α : Type} {around : Bool → Frame} {first : M α}
    {second : N α} (runs : P α first second) :
    Everywhere P α (Stacked.atOnce around first) (Stacked.atOnce around second) := by
  intro room
  unfold Stacked.atOnce
  split
  · exact stackable.andThen runs fun value => stackable.pure _
  · exact stackable.pure none

theorem framed (stackable : Stackable left right P) {α : Type} {frame : Frame} {first : Stacked M α}
    {second : Stacked N α} (runs : Everywhere P α first second) :
    Everywhere P α (Stacked.framed frame first) (Stacked.framed frame second) := by
  intro room
  unfold Stacked.framed
  split
  · exact runs _
  · exact stackable.pure none

end Stackable

end

namespace Stacked

theorem atOnce_eq {α : Type} (around : Bool → Frame) (run : Run α) (room : Room) (state : State) :
    atOnce around run room state =
      if (room.enter (around false)).fits then
        match run state with
        | .done value after =>
          .done (if (room.enter (around true)).fits then some value else none) after
        | .fault reason after => .fault reason after
        | .spent => .spent
      else .done none state := by
  unfold atOnce
  split <;> rfl

theorem framed_eq {α : Type} (frame : Frame) (run : Stacked Run α) (room : Room) (state : State) :
    framed frame run room state =
      if (room.enter frame).fits then run (room.enter frame) state else .done none state := by
  unfold framed
  split <;> rfl

theorem report_eq (room : Room) (fault : Fault) (state : State) : report room fault state =
    if (room.enter (.report false)).fits then
      .done (if (room.enter (.report true)).fits then some .nil else none)
        (state.add (.reported fault))
    else .done none state :=
  atOnce_eq .report (Run.report fault) room state

end Stacked

namespace Stacked

variable {α : Type} {room : Room}

/-- The stack holds throughout a run from there: if it gives out at all, a call tells of it. -/
def Holds (run : Stacked Run α) (room : Room) (state : State) : Prop :=
  ∀ after, run room state ≠ .done none after

section

variable {run : Stacked Run Value} {policy : Policy} {state after : State}

end

/-- The stack holds in what comes first. -/
theorem Holds.first {β : Type} {run : Stacked Run α} {next : α → Stacked Run β} {state : State}
    (holds : Holds (run >>= next) room state) : run.Holds room state := by
  intro after gone
  apply holds after
  show Run.andThen (run room) _ state = _
  unfold Run.andThen
  rw [gone]
  rfl

theorem bind_of_done {β : Type} {run : Stacked Run α} {next : α → Stacked Run β}
    {state middle : State} {value : α} (done : run room state = .done (some value) middle) :
    (run >>= next) room state = next value room middle := by
  show Run.andThen (run room) _ state = _
  unfold Run.andThen
  rw [done]

theorem Holds.rest {β : Type} {run : Stacked Run α} {next : α → Stacked Run β}
    {state middle : State} {value : α} (holds : Holds (run >>= next) room state)
    (done : run room state = .done (some value) middle) : (next value).Holds room middle := by
  intro after gone
  exact holds after ((bind_of_done done).trans gone)

theorem Holds.framed_eq {frame : Frame} {run : Stacked Run α} {state : State}
    (holds : (framed frame run).Holds room state) :
    framed frame run room state = run (room.enter frame) state := by
  unfold Holds at holds
  rw [Stacked.framed_eq] at holds ⊢
  split
  · rfl
  · rename_i before
    rw [if_neg before] at holds
    exact absurd rfl (holds state)

theorem Holds.inside {frame : Frame} {run : Stacked Run α} {state : State}
    (holds : (framed frame run).Holds room state) : run.Holds (room.enter frame) state := by
  intro after gone
  exact holds after (holds.framed_eq.trans gone)

theorem asCall_refused {config : Config} {state : State} (paren : Token) (invocation : Invocation)
    (run : Stacked Run α) (deep : config.maxDepth ≤ state.calls) :
    run.asCall config paren invocation room state = .fault ⟨paren, .stackOverflow⟩ state := by
  show Run.andThen (Run.asCall config paren _) _ state = _
  unfold Run.andThen
  rw [Run.asCall_refused paren _ deep]

/-- What a call comes to by what its callee does: where the stack gives out, an overflow. -/
def returned (paren : Token) : Outcome (Option α) → Outcome (Option α)
  | .done (some value) after => .done (some value) { after with calls := after.calls - 1 }
  | .done none after => .fault ⟨paren, .stackOverflow⟩ { after with calls := after.calls - 1 }
  | .fault reason after => .fault reason { after with calls := after.calls - 1 }
  | .spent => .spent

theorem asCall_begun {config : Config} {state : State} (paren : Token) (invocation : Invocation)
    (run : Stacked Run α) (shallow : ¬ config.maxDepth ≤ state.calls) :
    run.asCall config paren invocation room state = returned paren
      (run.framed (.invocation invocation) room { state with calls := state.calls + 1 }) := by
  show Run.andThen (Run.asCall config paren _) _ state = _
  unfold Run.andThen
  rw [Run.asCall_begun paren _ shallow]
  cases run.framed (.invocation invocation) room { state with calls := state.calls + 1 } with
  | done result => cases result <;> rfl
  | fault | spent => rfl

end Stacked

def Room.Endless (room : Room) : Prop :=
  ∀ frames, room.stack.height frames ≤ room.limit

theorem Room.Endless.fits {room : Room} (endless : room.Endless) (frame : Frame) :
    (room.enter frame).fits = true :=
  decide_eq_true (endless (frame :: room.frames))

namespace Stacked

variable {α β : Type}

theorem report_of_endless {room : Room} (endless : room.Endless) (fault : Fault) (state : State) :
    report room fault state = .done (some .nil) (state.add (.reported fault)) := by
  simp only [report_eq, endless.fits, ↓reduceIte]

/-- On a stack without end a run does what it does without a stack. -/
def Frees (α : Type) (stacked : Stacked Run α) (run : Run α) : Prop :=
  ∀ room : Room, room.Endless → ∀ state,
    stacked room state = run.andThen (fun value => pure (some value)) state

theorem frees_atOnce (around : Bool → Frame) (run : Run α) : Frees α (atOnce around run) run := by
  intro room endless state
  simp only [atOnce, endless.fits, ↓reduceIte]
  rfl

theorem Frees.andThen {stacked : Stacked Run α} {run : Run α} {next : α → Stacked Run β}
    {after : α → Run β} (first : Frees α stacked run)
    (rest : ∀ value, Frees β (next value) (after value)) :
    Frees β (stacked >>= next) (run >>= after) := by
  intro room endless state
  have here := first room endless state
  show Run.andThen (stacked room) _ state = Run.andThen (run.andThen after) _ state
  unfold Run.andThen at here ⊢
  rw [here]
  cases run state with
  | done value middle => exact rest value room endless middle
  | fault | spent => rfl

theorem Frees.framed {stacked : Stacked Run α} {run : Run α} (same : Frees α stacked run)
    (frame : Frame) : Frees α (framed frame stacked) run := by
  intro room endless state
  simp only [Stacked.framed, endless.fits, ↓reduceIte]
  exact same (room.enter frame) endless state

theorem Frees.within {stacked : Stacked Run α} {run : Run α} (same : Frees α stacked run)
    (scope : ScopeId) : Frees α (Machine.within scope stacked) (run.within scope) := by
  intro room endless state
  have here := same room endless { state with current := scope }
  show Run.within scope (stacked room) state = _
  unfold Run.andThen at here ⊢
  rw [Run.within_eq, Run.within_eq, here]
  cases run { state with current := scope } <;> rfl

theorem Frees.asCall {stacked : Stacked Run α} {run : Run α} (same : Frees α stacked run)
    (config : Config) (paren : Token) (invocation : Invocation) :
    Frees α (stacked.asCall config paren invocation) (run.asCall config paren) := by
  intro room endless state
  have here := same.framed (.invocation invocation) room endless { state with calls := state.calls + 1 }
  show Run.andThen (Run.asCall config paren _) _ state = Run.andThen _ _ state
  unfold Run.andThen at here ⊢
  by_cases deep : config.maxDepth ≤ state.calls
  · rw [Run.asCall_refused paren _ deep, Run.asCall_refused paren _ deep]
  · rw [Run.asCall_begun paren _ deep, Run.asCall_begun paren _ deep, here]
    cases run { state with calls := state.calls + 1 } <;> rfl

theorem Frees.settled {stacked : Stacked Run Value} {run : Run Value}
    (same : Frees Value stacked run) (policy : Policy) :
    Frees Value (stacked.settled policy) (run.settled policy) := by
  intro room endless state
  have here := same room endless state
  show Run.recover policy (report room) (stacked room) state = _
  simp only [Run.settled, Run.recover, Run.andThen] at here ⊢
  rw [here]
  cases run state with
  | done | spent => rfl
  | fault reason after =>
    cases policy with
    | resume => exact report_of_endless endless reason after
    | abort => rfl

theorem frees_parallel (world : World) : Parallel world world Frees where
  host := rfl
  pure _ := fun _ _ _ => rfl
  step _ := frees_atOnce _ _
  mark _ := fun _ _ _ => rfl
  frame same := same.framed _
  andThen first rest := first.andThen rest
  opened _ bodies := (frees_atOnce _ _).andThen fun scope =>
    (frees_atOnce _ _).andThen fun _ => (bodies.within scope).framed _
  asCall same := same.asCall _ _ _
  settled same := same.settled _

end Stacked

/-- A fault ends a program with a verdict where there is room for its report. -/
theorem Ending.ofOutcome?_fault {room : Room} (before : (room.enter (.report false)).fits = true)
    (after : (room.enter (.report true)).fits = true) (fault : Fault) (state : State) :
    ofOutcome? room (.fault fault state) =
      some (.ended ⟨none, true, state.add (.reported fault)⟩) := by
  simp only [ofOutcome?, Stacked.report_eq, before, after, ↓reduceIte]

/-- All that ends with a verdict. -/
theorem Ending.ended_cases {room : Room} {outcome : Outcome (Option (Option Value))}
    {verdict : Verdict} (ended : ofOutcome? room outcome = some (.ended verdict)) :
    (∃ result state, outcome = .done (some result) state ∧ verdict = ⟨result, false, state⟩) ∨
    ∃ fault state, outcome = .fault fault state ∧ (room.enter (.report false)).fits = true ∧
      (room.enter (.report true)).fits = true ∧
      verdict = ⟨none, true, state.add (.reported fault)⟩ := by
  cases outcome with
  | done result state =>
    cases result with
    | some result =>
      cases ended
      exact Or.inl ⟨result, state, rfl, rfl⟩
    | none => cases ended
  | fault fault state =>
    by_cases before : (room.enter (.report false)).fits = true
    · by_cases after : (room.enter (.report true)).fits = true
      · rw [ofOutcome?_fault before after] at ended
        cases ended
        exact Or.inr ⟨fault, state, rfl, before, after, rfl⟩
      · simp [ofOutcome?, Stacked.report_eq, before, after] at ended
    · simp [ofOutcome?, Stacked.report_eq, before] at ended
  | spent => cases ended

/-- On a host whose stack has no end, and can be given the limit, a program comes to the verdict that
it comes to without a stack. -/
theorem World.interpretOn?_of_endless {world : World} {stack : Stack} {limit : Nat}
    (set : stack.limitFor? world.config.maxDepth = some limit)
    (endless : ∀ frames, stack.height frames ≤ limit) (fuel : Nat) (program : Program)
    (state : State) : world.interpretOn? stack fuel program state =
      (world.interpret? fuel program state).map .ended := by
  have parallel := Stacked.frees_parallel world
  let room : Room := ⟨stack, limit, []⟩
  have roomy : room.Endless := endless
  have frees := parallel.runAll (parallel.upto fuel) program none room roomy state
  unfold interpretOn? interpret? runAll
  simp only [set]
  rw [frees]
  unfold Run.andThen
  cases Machine.runAll (M := Run) world fuel none program state with
  | done | spent => rfl
  | fault reason after => exact Ending.ofOutcome?_fault (roomy.fits _) (roomy.fits _) reason after

end Lox
