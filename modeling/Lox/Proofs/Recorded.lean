import Lox.Proofs.Parallel

set_option autoImplicit false

namespace Lox

inductive Deed where
  /-- A step was taken, to this state. -/
  | passed (state : State)
  /-- An expression came to a value. -/
  | gave (value : Value)
  /-- A callable was given arguments. -/
  | called (invocation : Invocation)
  | noted (mark : Mark)

structure Record (α : Type) where
  deeds : List Deed
  outcome : Outcome α

/-- A run of which a record is kept. -/
def Recorded (α : Type) : Type := State → Record α

namespace Recorded

def andThen {α β : Type} (run : Recorded α) (next : α → Recorded β) : Recorded β := fun state =>
  match (run state).outcome with
  | .done value middle =>
    ⟨(run state).deeds ++ (next value middle).deeds, (next value middle).outcome⟩
  | .fault fault middle => ⟨(run state).deeds, .fault fault middle⟩
  | .spent => ⟨(run state).deeds, .spent⟩

def step {α : Type} (run : Run α) : Recorded α := fun state =>
  ⟨(run state).final?.toList.map .passed, run state⟩

def mark (mark : Mark) : Recorded Unit := fun state =>
  ⟨[.noted mark], .done () state⟩

def within {α : Type} (scope : ScopeId) (run : Recorded α) : Recorded α := fun state =>
  let inner := run { state with current := scope }
  ⟨inner.deeds, Run.within scope (fun _ => inner.outcome) state⟩

def asCall {α : Type} (config : Config) (paren : Token) (invocation : Invocation)
    (run : Recorded α) : Recorded α := fun state =>
  let inner := run { state with calls := state.calls + 1 }
  let during := if config.maxDepth ≤ state.calls then [] else inner.deeds
  ⟨.called invocation :: during, Run.asCall config paren (fun _ => inner.outcome) state⟩

/-- The end of an expression, with the value it came to. -/
def settled (policy : Policy) (run : Recorded Value) : Recorded Value := fun state =>
  let outcome := Run.settled policy (fun _ => (run state).outcome) state
  let value := match outcome with
    | .done value _ => [.gave value]
    | .fault .. | .spent => []
  ⟨(run state).deeds ++ value, outcome⟩

end Recorded

instance : Machine Recorded where
  pure value := fun state => ⟨[], .done value state⟩
  bind := Recorded.andThen
  step := Recorded.step
  mark := Recorded.mark
  frame _ run := run
  within := Recorded.within
  asCall := Recorded.asCall
  settled := Recorded.settled

namespace Recorded

variable {α β : Type}

/-- A recorded run comes to what the run does. -/
def Erases (α : Type) (recorded : Recorded α) (run : Run α) : Prop :=
  ∀ state, (recorded state).outcome = run state

theorem erases_step (run : Run α) : Erases α (step run) run :=
  fun _ => rfl

theorem Erases.andThen {recorded : Recorded α} {run : Run α} {next : α → Recorded β}
    {after : α → Run β} (first : Erases α recorded run)
    (rest : ∀ value, Erases β (next value) (after value)) :
    Erases β (recorded >>= next) (run >>= after) := by
  intro state
  show (Recorded.andThen recorded next state).outcome = Run.andThen run after state
  unfold Recorded.andThen Run.andThen
  rw [← first state]
  cases (recorded state).outcome with
  | done value middle => exact rest value middle
  | fault | spent => rfl

theorem outcome_within (scope : ScopeId) (recorded : Recorded α) (state : State) :
    (recorded.within scope state).outcome =
      (recorded { state with current := scope }).outcome.mapState
        fun after => { after with current := state.current } :=
  Run.within_eq scope (fun _ => (recorded { state with current := scope }).outcome) state

theorem outcome_asCall_refused {config : Config} {state : State} (paren : Token)
    (invocation : Invocation) (recorded : Recorded α) (deep : config.maxDepth ≤ state.calls) :
    (recorded.asCall config paren invocation state).outcome =
      .fault ⟨paren, .stackOverflow⟩ state :=
  Run.asCall_refused paren (fun _ => (recorded { state with calls := state.calls + 1 }).outcome) deep

theorem outcome_asCall_begun {config : Config} {state : State} (paren : Token)
    (invocation : Invocation) (recorded : Recorded α) (shallow : ¬ config.maxDepth ≤ state.calls) :
    (recorded.asCall config paren invocation state).outcome =
      (recorded { state with calls := state.calls + 1 }).outcome.mapState
        fun after => { after with calls := after.calls - 1 } :=
  Run.asCall_begun paren (fun _ => (recorded { state with calls := state.calls + 1 }).outcome) shallow

theorem final_settled {recorded : Recorded Value} {policy : Policy} {state after : State}
    (final : (recorded.settled policy state).outcome.final? = some after) :
    (recorded state).outcome.final? = some after ∨ ∃ fault last,
      (recorded state).outcome = .fault fault last ∧ after = last.add (.reported fault) :=
  @Run.final_settled policy (fun _ => (recorded state).outcome) state after final

theorem done_settled {recorded : Recorded Value} {policy : Policy} {state after : State}
    {value : Value} (done : (recorded.settled policy state).outcome = .done value after) :
    (recorded state).outcome = .done value after ∨ value = .nil := by
  change Run.settled policy (fun _ => (recorded state).outcome) state = .done value after at done
  unfold Run.settled Run.recover at done
  cases out : (recorded state).outcome with
  | done result last =>
    rw [out] at done
    exact Or.inl done
  | fault reason last =>
    rw [out] at done
    cases policy with
    | resume =>
      cases done
      exact Or.inr rfl
    | abort => cases done
  | spent =>
    rw [out] at done
    cases done

theorem Erases.within {recorded : Recorded α} {run : Run α} (same : Erases α recorded run)
    (scope : ScopeId) : Erases α (recorded.within scope) (run.within scope) := by
  intro state
  rw [outcome_within, Run.within_eq, same]

theorem Erases.asCall {recorded : Recorded α} {run : Run α} (same : Erases α recorded run)
    (config : Config) (paren : Token) (invocation : Invocation) :
    Erases α (recorded.asCall config paren invocation) (run.asCall config paren) := by
  intro state
  by_cases deep : config.maxDepth ≤ state.calls
  · rw [outcome_asCall_refused paren invocation recorded deep, Run.asCall_refused paren run deep]
  · rw [outcome_asCall_begun paren invocation recorded deep, Run.asCall_begun paren run deep, same]

theorem Erases.settled {recorded : Recorded Value} {run : Run Value}
    (same : Erases Value recorded run) (policy : Policy) :
    Erases Value (recorded.settled policy) (run.settled policy) := by
  intro state
  simp only [Recorded.settled, Run.settled, Run.recover, same state]

/-- The record is kept beside the run and changes nothing. -/
theorem erases_parallel (world : World) : Parallel world world Erases where
  host := rfl
  pure _ := fun _ => rfl
  step _ := erases_step _
  mark _ := fun _ => rfl
  frame same := same
  andThen first rest := first.andThen rest
  opened _ bodies := (erases_step _).andThen fun scope =>
    (erases_step _).andThen fun _ => bodies.within scope
  asCall same := same.asCall _ _ _
  settled same := same.settled _

theorem runAll_erases (world : World) (fuel : Nat) (program : Program) (result : Option Value) :
    Erases (Option Value) (Machine.runAll world fuel result program)
      (Machine.runAll world fuel result program) :=
  (erases_parallel world).runAll ((erases_parallel world).upto fuel) program result

end Recorded

end Lox
