import Lox.Machine.Interpret

set_option autoImplicit false

namespace Lox

def World.bare : World := ⟨{ answer := fun _ _ => .nil }, ⟨.resume, false, 3⟩⟩

theorem World.bare_answerAfter (count : Nat) (native : Native) (arguments : List Value) :
    World.bare.host.answerAfter count native arguments = .nil := by
  cases count <;> rfl

namespace Outcome

variable {α : Type}

def final? : Outcome α → Option State
  | .done _ state => some state
  | .fault _ state => some state
  | .spent => none

def fault? : Outcome α → Option Fault
  | .fault reason _ => some reason
  | _ => none

def mapState (f : State → State) : Outcome α → Outcome α
  | .done value state => .done value (f state)
  | .fault reason state => .fault reason (f state)
  | .spent => .spent

theorem final?_of_done {outcome : Outcome α} {value : α} {state : State}
    (out : outcome = .done value state) : outcome.final? = some state := by
  rw [out]
  rfl

theorem final?_of_fault {outcome : Outcome α} {reason : Fault} {state : State}
    (out : outcome = .fault reason state) : outcome.final? = some state := by
  rw [out]
  rfl

theorem eq_spent_of_final? {outcome : Outcome α} (unended : outcome.final? = none) :
    outcome = .spent := by
  cases outcome with
  | done | fault => cases unended
  | spent => rfl

@[simp] theorem final?_mapState (outcome : Outcome α) (f : State → State) :
    (outcome.mapState f).final? = outcome.final?.map f := by
  cases outcome <;> rfl

@[simp] theorem fault?_mapState (outcome : Outcome α) (f : State → State) :
    (outcome.mapState f).fault? = outcome.fault? := by
  cases outcome <;> rfl

theorem mapState_eq_done {outcome : Outcome α} {f : State → State} {value : α} {after : State}
    (done : outcome.mapState f = .done value after) :
    ∃ last, outcome = .done value last ∧ after = f last := by
  cases outcome with
  | done result last =>
    cases done
    exact ⟨last, rfl, rfl⟩
  | fault | spent => cases done

end Outcome

namespace Run

variable {α : Type}

theorem bind_eq {β : Type} (run : Run α) (next : α → Run β) : run >>= next = run.andThen next := rfl

theorem opened_eq (enclosing : ScopeId) (bindings : Bindings) (entry : ScopeId → Run Unit)
    (body : Run α) :
    Machine.opened enclosing bindings entry body = (Run.extend enclosing bindings).andThen
      fun scope => (entry scope).andThen fun _ => body.within scope := rfl

theorem within_eq (scope : ScopeId) (run : Run α) (state : State) :
    run.within scope state = (run { state with current := scope }).mapState
      fun after => { after with current := state.current } := by
  unfold within
  cases run { state with current := scope } <;> rfl

theorem asCall_refused {config : Config} {state : State} (paren : Token) (run : Run α)
    (deep : config.maxDepth ≤ state.calls) :
    run.asCall config paren state = .fault ⟨paren, .stackOverflow⟩ state := by
  simp only [asCall, deep, ↓reduceIte]

theorem asCall_begun {config : Config} {state : State} (paren : Token) (run : Run α)
    (shallow : ¬ config.maxDepth ≤ state.calls) :
    run.asCall config paren state = (run { state with calls := state.calls + 1 }).mapState
      fun after => { after with calls := after.calls - 1 } := by
  simp only [asCall, shallow, ↓reduceIte]
  cases run { state with calls := state.calls + 1 } <;> rfl

theorem final_within {scope : ScopeId} {run : Run α} {state after : State}
    (final : (run.within scope state).final? = some after) :
    ∃ last, (run { state with current := scope }).final? = some last ∧
      after = { last with current := state.current } := by
  rw [within_eq, Outcome.final?_mapState, Option.map_eq_some_iff] at final
  obtain ⟨last, inner, same⟩ := final
  exact ⟨last, inner, same.symm⟩

theorem final_asCall {config : Config} {paren : Token} {run : Run α} {state after : State}
    (final : (run.asCall config paren state).final? = some after) :
    after = state ∨ ∃ last, (run { state with calls := state.calls + 1 }).final? = some last ∧
      after = { last with calls := last.calls - 1 } := by
  by_cases deep : config.maxDepth ≤ state.calls
  · rw [asCall_refused paren run deep] at final
    cases final
    exact Or.inl rfl
  · rw [asCall_begun paren run deep, Outcome.final?_mapState, Option.map_eq_some_iff] at final
    obtain ⟨last, inner, same⟩ := final
    exact Or.inr ⟨last, inner, same.symm⟩

theorem final_recover {policy : Policy} {handle : Fault → Run α} {run : Run α}
    {state after : State} (final : (run.recover policy handle state).final? = some after) :
    (run state).final? = some after ∨ ∃ fault last, run state = .fault fault last ∧
      (handle fault last).final? = some after := by
  unfold recover at final
  cases out : run state with
  | done value last =>
    rw [out] at final
    exact Or.inl final
  | fault reason last =>
    rw [out] at final
    cases policy with
    | resume => exact Or.inr ⟨reason, last, rfl, final⟩
    | abort => exact Or.inl final
  | spent =>
    rw [out] at final
    cases final

theorem final_settled {policy : Policy} {run : Run Value} {state after : State}
    (final : (run.settled policy state).final? = some after) :
    (run state).final? = some after ∨
      ∃ fault last, run state = .fault fault last ∧ after = last.add (.reported fault) := by
  rcases final_recover final with same | ⟨fault, last, out, reported⟩
  · exact Or.inl same
  · exact Or.inr ⟨fault, last, out, (Option.some.inj reported).symm⟩

end Run

end Lox
