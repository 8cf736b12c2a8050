import Lox.Proofs.Fuel

set_option autoImplicit false

namespace Lox

/-- How a run under the strict policy comes out, beside one under the patient policy from the
same state: in the same way without a fault reported, or at the fault that was reported first,
with all that came before it. -/
inductive Shadow {α : Type} (before : State) : Outcome α → Outcome α → Prop
  | spent (strict : Outcome α) : Shadow before .spent strict
  | same {outcome : Outcome α} {after : State} {events : List Event}
      (final : outcome.final? = some after) (quiet : Quiet events)
      (trace : after.trace.toList = before.trace.toList ++ events) :
      Shadow before outcome outcome
  | stopped {outcome : Outcome α} {after stop : State} {events : List Event} {fault : Fault}
      (rest : List Event) (final : outcome.final? = some after) (quiet : Quiet events)
      (stopTrace : stop.trace.toList = before.trace.toList ++ events)
      (trace : after.trace.toList =
        before.trace.toList ++ (events ++ Event.reported fault :: rest)) :
      Shadow before outcome (.fault fault stop)

theorem Quiet.append {first second : List Event} (one : Quiet first) (other : Quiet second) :
    Quiet (first ++ second) := by
  intro event member
  rcases List.mem_append.mp member with inside | inside
  · exact one event inside
  · exact other event inside

namespace Shadow

variable {α : Type} {before middle : State} {outcome strict : Outcome α}

/-- The patient run only adds to the trace. -/
theorem extends_trace (shadow : Shadow before outcome strict) {after : State}
    (final : outcome.final? = some after) :
    ∃ events, after.trace.toList = before.trace.toList ++ events := by
  cases shadow with
  | spent => cases final
  | same final' quiet trace =>
    rw [final] at final'
    cases final'
    exact ⟨_, trace⟩
  | stopped rest final' quiet stopTrace trace =>
    rw [final] at final'
    cases final'
    exact ⟨_, trace⟩

/-- What came quietly before can be counted in. -/
theorem prepend {events : List Event} (quiet : Quiet events)
    (trace : middle.trace.toList = before.trace.toList ++ events)
    (shadow : Shadow middle outcome strict) : Shadow before outcome strict := by
  cases shadow with
  | spent => exact .spent strict
  | same final more trace' =>
    exact .same final (quiet.append more) (by rw [trace', trace, List.append_assoc])
  | stopped rest final more stopTrace trace' =>
    refine .stopped rest final (quiet.append more) ?_ ?_
    · rw [stopTrace, trace, List.append_assoc]
    · rw [trace', trace, List.append_assoc, List.append_assoc]

/-- Changes that leave the trace alone do not matter. -/
theorem mapState {start : State} {f : State → State} (shadow : Shadow before outcome strict)
    (keeps : ∀ state, (f state).trace = state.trace) (sameTrace : start.trace = before.trace) :
    Shadow start (outcome.mapState f) (strict.mapState f) := by
  cases shadow with
  | spent => exact .spent _
  | same final quiet trace =>
    refine .same (by rw [Outcome.final?_mapState, final]; rfl) quiet ?_
    rw [keeps, sameTrace, trace]
  | stopped rest final quiet stopTrace trace =>
    refine .stopped rest (by rw [Outcome.final?_mapState, final]; rfl) quiet ?_ ?_
    · rw [keeps, sameTrace, stopTrace]
    · rw [keeps, sameTrace]
      exact trace

end Shadow

namespace Run

def Shadows (α : Type) (patient strict : Run α) : Prop :=
  ∀ state, Shadow state (patient state) (strict state)

theorem Shadows.andThen {α β : Type} {patient strict : Run α} {next after : α → Run β}
    (firsts : Shadows α patient strict) (nexts : ∀ value, Shadows β (next value) (after value)) :
    Shadows β (patient.andThen next) (strict.andThen after) := by
  intro state
  have first := firsts state
  unfold Run.andThen
  generalize patient state = outcome at first ⊢
  generalize strict state = shadow at first ⊢
  cases first with
  | spent => exact .spent _
  | @same _ middle _ final quiet trace =>
    cases outcome with
    | done value =>
      cases final
      exact (nexts value middle).prepend quiet trace
    | fault =>
      cases final
      exact .same rfl quiet trace
    | spent => cases final
  | @stopped _ middle _ _ _ rest final quiet stopTrace trace =>
    cases outcome with
    | done value =>
      cases final
      -- The strict run is over; the patient one still adds to its trace.
      cases ends : (next value middle).final? with
      | none =>
        simp only [Outcome.eq_spent_of_final? ends]
        exact .spent _
      | some last =>
        obtain ⟨more, longer⟩ := (nexts value middle).extends_trace ends
        refine .stopped (rest ++ more) ends quiet stopTrace ?_
        rw [longer, trace, List.append_assoc, List.append_assoc, List.cons_append]
    | fault =>
      cases final
      exact .stopped rest rfl quiet stopTrace trace
    | spent => cases final

theorem Shadows.within {α : Type} {patient strict : Run α} (scope : ScopeId)
    (runs : Shadows α patient strict) : Shadows α (patient.within scope) (strict.within scope) := by
  intro state
  rw [within_eq, within_eq]
  exact (runs { state with current := scope }).mapState (fun _ => rfl) rfl

theorem Shadows.asCall {α : Type} {patient strict : Run α} {left right : Config} (paren : Token)
    (sameDepth : left.maxDepth = right.maxDepth) (runs : Shadows α patient strict) :
    Shadows α (patient.asCall left paren) (strict.asCall right paren) := by
  intro state
  by_cases deep : left.maxDepth ≤ state.calls
  · rw [asCall_refused paren patient deep, asCall_refused paren strict (sameDepth ▸ deep)]
    exact .same rfl (by simp [Quiet]) (List.append_nil _).symm
  · rw [asCall_begun paren patient deep, asCall_begun paren strict (sameDepth ▸ deep)]
    exact (runs { state with calls := state.calls + 1 }).mapState (fun _ => rfl) rfl

/-- At the end of an expression the two policies part: the fault that the patient run reports is
the one that stops the strict run. -/
theorem Shadows.settled {patient strict : Run Value} (runs : Shadows Value patient strict) :
    Shadows Value (patient.settled .resume) (strict.settled .abort) := by
  intro state
  have inner := runs state
  unfold Run.settled Run.recover
  generalize patient state = outcome at inner ⊢
  generalize strict state = shadow at inner ⊢
  cases inner with
  | spent => exact .spent _
  | same final quiet trace =>
    cases outcome with
    | done =>
      cases final
      exact .same rfl quiet trace
    | fault =>
      cases final
      exact .stopped [] rfl quiet trace (by simp [trace])
    | spent => cases final
  | @stopped _ _ _ _ _ rest final quiet stopTrace trace =>
    cases outcome with
    | done =>
      cases final
      exact .stopped rest rfl quiet stopTrace trace
    | @fault later =>
      cases final
      refine .stopped (rest ++ [.reported later]) rfl quiet stopTrace ?_
      rw [State.add_trace, trace, List.append_assoc, List.append_assoc, List.cons_append]
    | spent => cases final

end Run

namespace World

def withPolicy (world : World) (policy : Policy) : World :=
  { world with config := { world.config with policy } }

end World

namespace Run

def Settled {α : Type} (run : Run α) : Prop :=
  ∀ state, (run state).fault? = none

theorem Settled.andThen {α β : Type} {run : Run α} {next : α → Run β} (first : run.Settled)
    (rest : ∀ value, (next value).Settled) : (run.andThen next).Settled := by
  intro state
  have settled := first state
  unfold Run.andThen
  cases out : run state with
  | done value middle => exact rest value middle
  | fault reason middle =>
    rw [out] at settled
    cases settled
  | spent => rfl

theorem Settled.within {α : Type} {run : Run α} (scope : ScopeId) (settled : run.Settled) :
    (run.within scope).Settled := by
  intro state
  rw [within_eq, Outcome.fault?_mapState]
  exact settled _

theorem settled_pure {α : Type} (value : α) : Run.Settled (pure value) :=
  fun _ => rfl

theorem settled_resume (run : Run Value) : (run.settled .resume).Settled := by
  intro state
  unfold Run.settled Run.recover
  cases run state <;> rfl

end Run

namespace World

variable {world : World}

theorem evaluate_settled (patient : world.config.policy = .resume) (fuel : Nat) (expr : Expr) :
    (Machine.evaluate (M := Run) world fuel expr).Settled := by
  cases fuel with
  | zero => exact fun _ => rfl
  | succ fuel =>
    rw [Machine.evaluate.eq_def]
    simp only [patient]
    exact Run.settled_resume _

/-- Only expressions fault, and under the patient policy each expression settles its faults. -/
theorem execute_settled (patient : world.config.policy = .resume) (fuel : Nat) :
    (∀ stmt, (Machine.execute (M := Run) world fuel stmt).Settled) ∧
    ∀ stmts, (Machine.executeAll (M := Run) world fuel stmts).Settled := by
  induction fuel with
  | zero => exact ⟨fun _ _ => rfl, fun _ _ => rfl⟩
  | succ fuel ih =>
    obtain ⟨execute, executeAll⟩ := ih
    have evaluate := evaluate_settled patient fuel
    constructor
    · intro stmt
      cases stmt with
      | expression expr => exact (evaluate expr).andThen fun _ => Run.settled_pure none
      | print expr =>
        exact (evaluate expr).andThen fun _ _ => rfl
      | declare name expr =>
        exact (evaluate expr).andThen fun _ _ => rfl
      | block body =>
        intro state
        exact (executeAll body).within _ _
      | branch condition yes no =>
        apply (evaluate condition).andThen
        intro value
        split
        · exact execute yes
        · cases no with
          | none => exact Run.settled_pure none
          | some no => exact execute no
      | loop condition body =>
        apply (evaluate condition).andThen
        intro value
        split
        · apply (execute body).andThen
          intro returned
          cases returned with
          | none => exact execute (.loop condition body)
          | some value => exact Run.settled_pure (some value)
        · exact Run.settled_pure none
      | function name params body => exact fun _ => rfl
      | ret keyword value =>
        cases value with
        | none => exact Run.settled_pure (some Value.nil)
        | some expr => exact (evaluate expr).andThen fun value => Run.settled_pure (some value)
    · intro stmts
      cases stmts with
      | nil => exact Run.settled_pure none
      | cons stmt rest =>
        apply (execute stmt).andThen
        intro returned
        cases returned with
        | none => exact executeAll rest
        | some value => exact Run.settled_pure (some value)

theorem runAll_settled (patient : world.config.policy = .resume) (fuel : Nat) (program : Program) :
    ∀ result, (Machine.runAll (M := Run) world fuel result program).Settled := by
  induction program with
  | nil =>
    intro result
    exact Run.settled_pure result
  | cons stmt rest ih =>
    intro result
    cases stmt with
    | expression expr =>
      rw [Machine.runAll]
      exact (evaluate_settled patient fuel expr).andThen fun value => ih (some value)
    | print | declare | block | branch | loop | function | ret =>
      apply ((execute_settled patient fuel).1 _).andThen
      intro returned
      cases returned with
      | none => exact ih result
      | some _ => exact Run.settled_pure result

end World

namespace State

theorem since_of_append {before after : State} {events : List Event}
    (trace : after.trace.toList = before.trace.toList ++ events) :
    after.since before.trace.size = events := by
  have whole : after.trace.size = before.trace.size + events.length := by
    rw [← Array.length_toList, trace, List.length_append, Array.length_toList]
  rw [since, Array.toList_extract, trace]
  simp [List.extract, whole]

end State

namespace Verdict

def events (verdict : Verdict) (start : State) : List Event :=
  verdict.state.since start.trace.size

def faults (verdict : Verdict) (start : State) : List Fault :=
  (verdict.events start).filterMap Event.fault?

def printed (verdict : Verdict) (start : State) : List String :=
  (verdict.events start).filterMap Event.output?

end Verdict

namespace World

/-- What the patient and the strict run of a program from a state have to do with each other: if
the patient one reports no fault they are the same; else the strict one does what the patient one
did up to its first report, makes that report, and is aborted. -/
structure Parted (state : State) (calm strict : Verdict) : Prop where
  agree : calm.faults state = [] → strict = calm
  part : ∀ first rest, calm.faults state = first :: rest →
    strict.aborted = true ∧ strict.result = none ∧ strict.faults state = [first] ∧
    strict.printed state <+: calm.printed state ∧
    ∃ before after, calm.events state = before ++ .reported first :: after ∧
      before.filterMap Event.fault? = [] ∧ strict.events state = before ++ [.reported first] ∧
      strict.printed state = before.filterMap Event.output?

theorem Parted.refl {state : State} {verdict : Verdict} (silent : verdict.faults state = []) :
    Parted state verdict verdict where
  agree _ := rfl
  part first rest some_fault := by
    rw [silent] at some_fault
    cases some_fault

end World

end Lox
