import Lox.Proofs.Trace

set_option autoImplicit false

namespace Lox

variable {σ : Type} {see : σ → Event → σ}

/-- A run beside which an observer sees one event after another. -/
def Observed (_see : σ → Event → σ) (α : Type) : Type := State → σ → Outcome α × σ

namespace Observed

variable {α β : Type}

def andThen (run : Observed see α) (next : α → Observed see β) : Observed see β := fun state seen =>
  match run state seen with
  | (.done value middle, told) => next value middle told
  | (.fault fault middle, told) => (.fault fault middle, told)
  | (.spent, told) => (.spent, told)

def step (run : Run α) : Observed see α := fun state seen =>
  match (run state).final? with
  | some after => (run state, (after.since state.trace.size).foldl see seen)
  | none => (run state, seen)

def within (scope : ScopeId) (run : Observed see α) : Observed see α := fun state seen =>
  let inner := run { state with current := scope } seen
  (Run.within scope (fun _ => inner.1) state, inner.2)

/-- A run as a call in progress, of which nothing is seen if it does not begin. -/
def asCall (config : Config) (paren : Token) (_invocation : Invocation) (run : Observed see α) :
    Observed see α := fun state seen =>
  let inner := run { state with calls := state.calls + 1 } seen
  (Run.asCall config paren (fun _ => inner.1) state,
    if config.maxDepth ≤ state.calls then seen else inner.2)

/-- The end of an expression. A fault that is reported is seen. -/
def settled (policy : Policy) (run : Observed see Value) : Observed see Value := fun state seen =>
  match run state seen with
  | (.fault fault after, told) =>
    match policy with
    | .abort => (.fault fault after, told)
    | .resume => (.done .nil (after.add (.reported fault)), see told (.reported fault))
  | ended => ended

end Observed

instance : Machine (Observed see) where
  pure value := fun state seen => (.done value state, seen)
  bind := Observed.andThen
  step := Observed.step
  mark _ := fun state seen => (.done () state, seen)
  frame _ run := run
  within := Observed.within
  asCall := Observed.asCall
  settled := Observed.settled

/-- What was seen is what was recorded between two states. -/
def Seen (see : σ → Event → σ) (before after : State) (seen told : σ) : Prop :=
  ∃ events, after.trace.toList = before.trace.toList ++ events ∧ told = events.foldl see seen

theorem Seen.refl (state : State) (seen : σ) : Seen see state state seen seen :=
  ⟨[], (List.append_nil _).symm, rfl⟩

theorem Seen.trans {before middle after : State} {seen heard told : σ}
    (first : Seen see before middle seen heard) (rest : Seen see middle after heard told) :
    Seen see before after seen told := by
  obtain ⟨events, one, rfl⟩ := first
  obtain ⟨others, two, rfl⟩ := rest
  exact ⟨events ++ others, by rw [two, one, List.append_assoc], List.foldl_append.symm⟩

theorem Seen.add (state : State) (event : Event) (seen : σ) :
    Seen see state (state.add event) seen (see seen event) :=
  ⟨[event], State.add_trace state event, rfl⟩

/-- What a run comes to, with what its observer was told, and what the plain run comes to. -/
inductive Told {α : Type} (see : σ → Event → σ) (state : State) (seen : σ) :
    Outcome α × σ → Outcome α → Prop
  | done {value : α} {after : State} {told : σ} (known : Seen see state after seen told) :
      Told see state seen (.done value after, told) (.done value after)
  | fault {reason : Fault} {after : State} {told : σ} (known : Seen see state after seen told) :
      Told see state seen (.fault reason after, told) (.fault reason after)
  | spent {told : σ} : Told see state seen (.spent, told) .spent

theorem Told.prepend {α : Type} {before middle : State} {seen heard : σ} {result : Outcome α × σ}
    {outcome : Outcome α} (first : Seen see before middle seen heard)
    (rest : Told see middle heard result outcome) : Told see before seen result outcome := by
  cases rest with
  | done known => exact .done (first.trans known)
  | fault known => exact .fault (first.trans known)
  | spent => exact .spent

namespace Observed

variable {α β : Type}

/-- An observed run comes to what the plain one does, and its observer sees what is recorded. -/
def Tells (α : Type) (observed : Observed see α) (run : Run α) : Prop :=
  ∀ state seen, Told see state seen (observed state seen) (run state)

theorem within_eq (scope : ScopeId) (observed : Observed see α) (state : State) (seen : σ) :
    let inner := observed { state with current := scope } seen
    observed.within scope state seen =
      (inner.1.mapState fun after => { after with current := state.current }, inner.2) :=
  Prod.ext (Run.within_eq scope (fun start => (observed start seen).1) state) rfl

theorem asCall_refused {config : Config} {state : State} (paren : Token) (invocation : Invocation)
    (observed : Observed see α) (seen : σ) (deep : config.maxDepth ≤ state.calls) :
    observed.asCall config paren invocation state seen =
      (.fault ⟨paren, .stackOverflow⟩ state, seen) :=
  Prod.ext (Run.asCall_refused paren (fun start => (observed start seen).1) deep) (if_pos deep)

theorem asCall_begun {config : Config} {state : State} (paren : Token) (invocation : Invocation)
    (observed : Observed see α) (seen : σ) (shallow : ¬ config.maxDepth ≤ state.calls) :
    let inner := observed { state with calls := state.calls + 1 } seen
    observed.asCall config paren invocation state seen =
      (inner.1.mapState fun after => { after with calls := after.calls - 1 }, inner.2) :=
  Prod.ext (Run.asCall_begun paren (fun start => (observed start seen).1) shallow)
    (if_neg shallow)

theorem Tells.andThen {observed : Observed see α} {run : Run α} {next : α → Observed see β}
    {after : α → Run β} (first : Tells α observed run)
    (rest : ∀ value, Tells β (next value) (after value)) :
    Tells β (observed.andThen next) (run.andThen after) := by
  intro state seen
  have told := first state seen
  unfold Observed.andThen Run.andThen
  generalize observed state seen = result, run state = outcome at told ⊢
  cases told with
  | done known => exact (rest _ _ _).prepend known
  | fault known => exact .fault known
  | spent => exact .spent

theorem Tells.within {observed : Observed see α} {run : Run α} (tells : Tells α observed run)
    (scope : ScopeId) : Tells α (observed.within scope) (run.within scope) := by
  intro state seen
  have told := tells { state with current := scope } seen
  rw [within_eq, Run.within_eq]
  generalize observed { state with current := scope } seen = result,
    run { state with current := scope } = outcome at told ⊢
  cases told with
  | done known => exact .done known
  | fault known => exact .fault known
  | spent => exact .spent

theorem Tells.asCall {observed : Observed see α} {run : Run α} (tells : Tells α observed run)
    (config : Config) (paren : Token) (invocation : Invocation) :
    Tells α (observed.asCall config paren invocation) (run.asCall config paren) := by
  intro state seen
  have told := tells { state with calls := state.calls + 1 } seen
  by_cases deep : config.maxDepth ≤ state.calls
  · rw [asCall_refused paren invocation observed seen deep, Run.asCall_refused paren run deep]
    exact .fault (.refl state seen)
  · rw [asCall_begun paren invocation observed seen deep, Run.asCall_begun paren run deep]
    generalize observed { state with calls := state.calls + 1 } seen = result,
      run { state with calls := state.calls + 1 } = outcome at told ⊢
    cases told with
    | done known => exact .done known
    | fault known => exact .fault known
    | spent => exact .spent

theorem Tells.settled {observed : Observed see Value} {run : Run Value}
    (tells : Tells Value observed run) (policy : Policy) :
    Tells Value (observed.settled policy) (run.settled policy) := by
  intro state seen
  have told := tells state seen
  unfold Observed.settled Run.settled Run.recover
  generalize observed state seen = result, run state = outcome at told ⊢
  cases told with
  | done known => exact .done known
  | @fault reason after heard known =>
    cases policy with
    | resume => exact .done (known.trans (.add after (.reported reason) heard))
    | abort => exact .fault known
  | spent => exact .spent

end Observed

namespace World

end World

end Lox
