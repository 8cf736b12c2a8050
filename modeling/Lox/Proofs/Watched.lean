import Lox.Proofs.Parallel

set_option autoImplicit false

namespace Lox

/-- A state that a run passes through, with the calls in progress there, innermost first. The
calls are known from the nesting of the run and not from the counter in the state. -/
structure Moment where
  state : State
  calls : List Invocation

/-- The moment as seen from outside a call. -/
def Moment.inside (invocation : Invocation) (moment : Moment) : Moment :=
  { moment with calls := moment.calls ++ [invocation] }

def Outcome.last {α : Type} (outcome : Outcome α) : List Moment :=
  outcome.final?.toList.map fun state => ⟨state, []⟩

/-- Everything that a run passes through, from first to last, and what it comes to. -/
structure History (α : Type) where
  moments : List Moment
  outcome : Outcome α

def History.ending {α : Type} (during : List Moment) (outcome : Outcome α) : History α :=
  ⟨during ++ outcome.last, outcome⟩

def Watched (α : Type) : Type := State → History α

namespace Watched

def andThen {α β : Type} (run : Watched α) (next : α → Watched β) : Watched β := fun state =>
  match (run state).outcome with
  | .done value middle =>
    ⟨(run state).moments ++ (next value middle).moments, (next value middle).outcome⟩
  | .fault fault middle => ⟨(run state).moments, .fault fault middle⟩
  | .spent => ⟨(run state).moments, .spent⟩

def step {α : Type} (run : Run α) : Watched α := fun state =>
  .ending [] (run state)

/-- A run in another scope, from the moment of going there to that of coming back. -/
def within {α : Type} (scope : ScopeId) (run : Watched α) : Watched α := fun state =>
  let start := { state with current := scope }
  .ending (⟨start, []⟩ :: (run start).moments)
    (Run.within scope (fun _ => (run start).outcome) state)

/-- A run as a call in progress, from the moment it begins to that of its end. -/
def asCall {α : Type} (config : Config) (paren : Token) (invocation : Invocation)
    (run : Watched α) : Watched α := fun state =>
  let start := { state with calls := state.calls + 1 }
  let during :=
    if config.maxDepth ≤ state.calls then []
    else (⟨start, []⟩ :: (run start).moments).map (Moment.inside invocation)
  .ending during (Run.asCall config paren (fun _ => (run start).outcome) state)

def recover {α : Type} (policy : Policy) (handle : Fault → Run α) (run : Watched α) : Watched α :=
  fun state =>
    .ending (run state).moments (Run.recover policy handle (fun _ => (run state).outcome) state)

def settled (policy : Policy) (run : Watched Value) : Watched Value :=
  run.recover policy Run.report

end Watched

instance : Machine Watched where
  pure value := fun state => ⟨[], .done value state⟩
  bind := Watched.andThen
  step := Watched.step
  mark _ := fun state => ⟨[], .done () state⟩
  frame _ run := run
  within := Watched.within
  asCall := Watched.asCall
  settled := Watched.settled

theorem Outcome.mem_last {α : Type} {outcome : Outcome α} {moment : Moment} :
    moment ∈ outcome.last ↔ ∃ state, outcome.final? = some state ∧ moment = ⟨state, []⟩ := by
  cases final : outcome.final? with
  | none => simp [Outcome.last, final]
  | some state => simp [Outcome.last, final]

/-- The states that a run passes through, the last of them included. -/
def History.states {α : Type} (history : History α) : List State :=
  history.moments.map Moment.state ++ history.outcome.final?.toList

theorem History.mem_states {α : Type} {history : History α} {state : State} :
    state ∈ history.states ↔
      (∃ moment ∈ history.moments, moment.state = state) ∨ history.outcome.final? = some state := by
  unfold History.states
  rw [List.mem_append, List.mem_map, Option.mem_toList]

theorem History.mem_of_final {α : Type} {history : History α} {state : State}
    (final : history.outcome.final? = some state) : state ∈ history.states :=
  History.mem_states.mpr (Or.inr final)

theorem History.mem_states_ending {α : Type} {during : List Moment} {outcome : Outcome α}
    {state : State} : state ∈ (History.ending during outcome).states ↔
      (∃ moment ∈ during, moment.state = state) ∨ outcome.final? = some state := by
  rw [History.mem_states]
  constructor
  · rintro (⟨moment, member, rfl⟩ | final)
    · rcases List.mem_append.mp member with inside | last
      · exact Or.inl ⟨moment, inside, rfl⟩
      · obtain ⟨after, final, rfl⟩ := Outcome.mem_last.mp last
        exact Or.inr final
    · exact Or.inr final
  · rintro (⟨moment, member, rfl⟩ | final)
    · exact Or.inl ⟨moment, List.mem_append_left _ member, rfl⟩
    · exact Or.inr final

namespace Watched

variable {α β : Type} {watched : Watched α} {run : Run α}

theorem mem_states_step {state after : State} :
    after ∈ (Watched.step run state).states ↔ (run state).final? = some after := by
  show after ∈ (History.ending [] (run state)).states ↔ _
  rw [History.mem_states_ending]
  constructor
  · rintro (⟨_, member, _⟩ | final)
    · cases member
    · exact final
  · exact Or.inr

theorem final_andThen {next : α → Watched β} {state after : State}
    (final : (watched.andThen next state).outcome.final? = some after) :
    (watched state).outcome.final? = some after ∨ ∃ value middle,
      (watched state).outcome = .done value middle ∧
        (next value middle).outcome.final? = some after := by
  unfold Watched.andThen at final
  cases out : (watched state).outcome with
  | done value middle =>
    rw [out] at final
    exact Or.inr ⟨value, middle, rfl, final⟩
  | fault reason middle =>
    rw [out] at final
    exact Or.inl final
  | spent =>
    rw [out] at final
    cases final

theorem done_andThen {next : α → Watched β} {state after : State} {value : β}
    (done : (watched.andThen next state).outcome = .done value after) :
    ∃ first middle, (watched state).outcome = .done first middle ∧
      (next first middle).outcome = .done value after := by
  unfold Watched.andThen at done
  cases out : (watched state).outcome with
  | done first middle =>
    rw [out] at done
    exact ⟨first, middle, rfl, done⟩
  | fault | spent =>
    rw [out] at done
    cases done

theorem mem_states_andThen {next : α → Watched β} {state after : State}
    (member : after ∈ (watched.andThen next state).states) :
    after ∈ (watched state).states ∨ ∃ value middle,
      (watched state).outcome = .done value middle ∧ after ∈ (next value middle).states := by
  unfold Watched.andThen at member
  cases out : (watched state).outcome with
  | done value middle =>
    rw [out] at member
    rcases History.mem_states.mp member with ⟨moment, inside, rfl⟩ | final
    · rcases List.mem_append.mp inside with earlier | later
      · exact Or.inl (History.mem_states.mpr (Or.inl ⟨moment, earlier, rfl⟩))
      · exact Or.inr ⟨value, middle, rfl, History.mem_states.mpr (Or.inl ⟨moment, later, rfl⟩)⟩
    · exact Or.inr ⟨value, middle, rfl, History.mem_of_final final⟩
  | fault reason middle =>
    rw [out] at member
    rcases History.mem_states.mp member with earlier | final
    · exact Or.inl (History.mem_states.mpr (Or.inl earlier))
    · exact Or.inl (History.mem_of_final (out ▸ final))
  | spent =>
    rw [out] at member
    rcases History.mem_states.mp member with earlier | final
    · exact Or.inl (History.mem_states.mpr (Or.inl earlier))
    · cases final

theorem opened_eq (enclosing : ScopeId) (bindings : Bindings) (entry : ScopeId → Run Unit)
    (body : Watched α) : Machine.opened enclosing bindings entry body =
      (Watched.step (Run.extend enclosing bindings)).andThen
        fun scope => (Watched.step (entry scope)).andThen fun _ => body.within scope := rfl

theorem within_eq (scope : ScopeId) (watched : Watched α) (state : State) :
    let start := { state with current := scope }
    watched.within scope state = .ending (⟨start, []⟩ :: (watched start).moments)
      ((watched start).outcome.mapState fun after => { after with current := state.current }) :=
  congrArg (History.ending _) (Run.within_eq scope _ state)

theorem asCall_refused {config : Config} {state : State} (paren : Token) (invocation : Invocation)
    (watched : Watched α) (deep : config.maxDepth ≤ state.calls) :
    watched.asCall config paren invocation state =
      .ending [] (.fault ⟨paren, .stackOverflow⟩ state) := by
  simp only [asCall, deep, ↓reduceIte]
  exact congrArg (History.ending _) (Run.asCall_refused paren _ deep)

theorem asCall_begun {config : Config} {state : State} (paren : Token) (invocation : Invocation)
    (watched : Watched α) (shallow : ¬ config.maxDepth ≤ state.calls) :
    let start := { state with calls := state.calls + 1 }
    watched.asCall config paren invocation state =
      .ending ((⟨start, []⟩ :: (watched start).moments).map (Moment.inside invocation))
        ((watched start).outcome.mapState
          fun after => { after with calls := after.calls - 1 }) := by
  simp only [asCall, shallow, ↓reduceIte]
  exact congrArg (History.ending _) (Run.asCall_begun paren _ shallow)

theorem final_within {scope : ScopeId} {state after : State}
    (final : (watched.within scope state).outcome.final? = some after) :
    ∃ last, (watched { state with current := scope }).outcome.final? = some last ∧
      after = { last with current := state.current } :=
  @Run.final_within α scope (fun _ => (watched { state with current := scope }).outcome) state
    after final

theorem done_within {scope : ScopeId} {state after : State} {value : α}
    (done : (watched.within scope state).outcome = .done value after) :
    ∃ last, (watched { state with current := scope }).outcome = .done value last ∧
      after = { last with current := state.current } := by
  rw [within_eq] at done
  exact Outcome.mapState_eq_done done

theorem mem_states_within {scope : ScopeId} {state after : State}
    (member : after ∈ (watched.within scope state).states) :
    after = { state with current := scope } ∨
      after ∈ (watched { state with current := scope }).states ∨
      ∃ last, (watched { state with current := scope }).outcome.final? = some last ∧
        after = { last with current := state.current } := by
  rcases History.mem_states_ending.mp member with ⟨moment, inside, rfl⟩ | final
  · rcases List.mem_cons.mp inside with rfl | during
    · exact Or.inl rfl
    · exact Or.inr (Or.inl (History.mem_states.mpr (Or.inl ⟨moment, during, rfl⟩)))
  · exact Or.inr (Or.inr (Run.final_within final))

theorem final_asCall {config : Config} {paren : Token} {invocation : Invocation}
    {state after : State}
    (final : (watched.asCall config paren invocation state).outcome.final? = some after) :
    after = state ∨
      ∃ last, (watched { state with calls := state.calls + 1 }).outcome.final? = some last ∧
        after = { last with calls := last.calls - 1 } :=
  @Run.final_asCall α config paren
    (fun _ => (watched { state with calls := state.calls + 1 }).outcome) state after final

theorem done_asCall {config : Config} {paren : Token} {invocation : Invocation}
    {state after : State} {value : α}
    (done : (watched.asCall config paren invocation state).outcome = .done value after) :
    ∃ last, (watched { state with calls := state.calls + 1 }).outcome = .done value last ∧
      after = { last with calls := last.calls - 1 } := by
  by_cases deep : config.maxDepth ≤ state.calls
  · rw [asCall_refused paren invocation watched deep] at done
    cases done
  · rw [asCall_begun paren invocation watched deep] at done
    exact Outcome.mapState_eq_done done

theorem mem_states_asCall {config : Config} {paren : Token} {invocation : Invocation}
    {state after : State}
    (member : after ∈ (watched.asCall config paren invocation state).states) :
    after = state ∨ after = { state with calls := state.calls + 1 } ∨
      after ∈ (watched { state with calls := state.calls + 1 }).states ∨
      ∃ last, (watched { state with calls := state.calls + 1 }).outcome.final? = some last ∧
        after = { last with calls := last.calls - 1 } := by
  rcases History.mem_states_ending.mp member with ⟨moment, inside, rfl⟩ | final
  · split at inside
    · cases inside
    · obtain ⟨earlier, during, rfl⟩ := List.mem_map.mp inside
      rcases List.mem_cons.mp during with rfl | later
      · exact Or.inr (Or.inl rfl)
      · exact Or.inr (Or.inr (Or.inl (History.mem_states.mpr (Or.inl ⟨earlier, later, rfl⟩))))
  · rcases Run.final_asCall final with same | last
    · exact Or.inl same
    · exact Or.inr (Or.inr (Or.inr last))

theorem final_settled {watched : Watched Value} {policy : Policy} {state after : State}
    (final : (watched.settled policy state).outcome.final? = some after) :
    (watched state).outcome.final? = some after ∨ ∃ fault last,
      (watched state).outcome = .fault fault last ∧ after = last.add (.reported fault) :=
  @Run.final_settled policy (fun _ => (watched state).outcome) state after final

theorem done_settled {watched : Watched Value} {policy : Policy} {state after : State}
    {value : Value} (done : (watched.settled policy state).outcome = .done value after) :
    (watched state).outcome = .done value after ∨ value = .nil ∧ ∃ fault last,
      (watched state).outcome = .fault fault last ∧ after = last.add (.reported fault) := by
  change Run.settled policy (fun _ => (watched state).outcome) state = .done value after at done
  unfold Run.settled Run.recover at done
  cases out : (watched state).outcome with
  | done result last =>
    rw [out] at done
    exact Or.inl done
  | fault reason last =>
    rw [out] at done
    cases policy with
    | resume =>
      cases done
      exact Or.inr ⟨rfl, reason, last, rfl, rfl⟩
    | abort => cases done
  | spent =>
    rw [out] at done
    cases done

theorem mem_states_settled {watched : Watched Value} {policy : Policy} {state after : State}
    (member : after ∈ (watched.settled policy state).states) :
    after ∈ (watched state).states ∨ ∃ fault last,
      (watched state).outcome = .fault fault last ∧ after = last.add (.reported fault) := by
  rcases History.mem_states_ending.mp member with during | final
  · exact Or.inl (History.mem_states.mpr (Or.inl during))
  · rcases Run.final_settled final with same | reported
    · exact Or.inl (History.mem_of_final same)
    · exact Or.inr reported

/-- A watched run comes to what a plain one does. -/
def Shows (α : Type) (watched : Watched α) (run : Run α) : Prop :=
  ∀ state, (watched state).outcome = run state

theorem Shows.andThen {next : α → Watched β} {after : α → Run β} (first : Shows α watched run)
    (rest : ∀ value, Shows β (next value) (after value)) :
    Shows β (watched.andThen next) (run.andThen after) := by
  intro state
  unfold Watched.andThen Run.andThen
  rw [← first state]
  cases (watched state).outcome with
  | done value middle => exact rest value middle
  | fault | spent => rfl

theorem Shows.within (scope : ScopeId) (same : Shows α watched run) :
    Shows α (watched.within scope) (run.within scope) := by
  intro state
  rw [Watched.within_eq, Run.within_eq, ← same]
  rfl

theorem Shows.asCall (config : Config) (paren : Token) (invocation : Invocation)
    (same : Shows α watched run) :
    Shows α (watched.asCall config paren invocation) (run.asCall config paren) := by
  intro state
  by_cases deep : config.maxDepth ≤ state.calls
  · rw [Watched.asCall_refused paren invocation watched deep, Run.asCall_refused paren run deep]
    rfl
  · rw [Watched.asCall_begun paren invocation watched deep, Run.asCall_begun paren run deep, ← same]
    rfl

theorem Shows.recover (policy : Policy) (handle : Fault → Run α) (same : Shows α watched run) :
    Shows α (watched.recover policy handle) (run.recover policy handle) := by
  intro state
  simp only [Watched.recover, Run.recover, History.ending, same state]

theorem shows_step (run : Run α) : Shows α (Watched.step run) run :=
  fun _ => rfl

theorem shows_parallel (world : World) : Parallel world world Shows where
  host := rfl
  pure _ := fun _ => rfl
  step _ := shows_step _
  mark _ := fun _ => rfl
  frame runs := runs
  andThen first rest := first.andThen rest
  opened _ bodies :=
    (shows_step _).andThen fun scope => (shows_step _).andThen fun _ => bodies.within scope
  asCall runs := runs.asCall _ _ _
  settled runs := runs.recover _ _

/-- A program leaves the state in which its run stops, with a report if that was at a fault. -/
theorem of_interpret? {world : World} {fuel : Nat} {program : Program} {state : State}
    {verdict : Verdict} (ran : world.interpret? fuel program state = some verdict) :
    ∃ last, (Machine.runAll (M := Watched) world fuel none program state).outcome.final? =
        some last ∧
      (verdict.state = last ∨ ∃ fault, verdict.state = last.add (.reported fault)) := by
  have parallel := shows_parallel world
  have shows := parallel.runAll (parallel.upto fuel) program none state
  unfold World.interpret? World.runAll at ran
  rw [← shows] at ran
  split at ran
  · rename_i out
    cases ran
    exact ⟨_, Outcome.final?_of_done out, Or.inl rfl⟩
  · rename_i out
    cases ran
    exact ⟨_, Outcome.final?_of_fault out, Or.inr ⟨_, rfl⟩⟩
  · cases ran

end Watched

end Lox
