import Lox.Proofs.Policy

set_option autoImplicit false

namespace Lox

def State.Recalls (before after : State) : Prop :=
  ∃ events, after.trace.toList = before.trace.toList ++ events

namespace State

variable {before middle after : State}

theorem Recalls.refl (state : State) : state.Recalls state :=
  ⟨[], (List.append_nil _).symm⟩

theorem Recalls.trans (first : before.Recalls middle) (rest : middle.Recalls after) :
    before.Recalls after := by
  obtain ⟨events, one⟩ := first
  obtain ⟨others, two⟩ := rest
  exact ⟨events ++ others, by rw [two, one, List.append_assoc]⟩

theorem Recalls.add (state : State) (event : Event) : state.Recalls (state.add event) :=
  ⟨[event], add_trace state event⟩

theorem trace_add_of_append {events : List Event}
    (trace : after.trace.toList = before.trace.toList ++ events) (event : Event) :
    (after.add event).trace.toList = before.trace.toList ++ (events ++ [event]) := by
  rw [add_trace, trace, List.append_assoc]

/-- What is recalled is what happened since, after what had happened before. -/
theorem Recalls.trace (recalls : before.Recalls after) :
    after.trace.toList = before.trace.toList ++ after.since before.trace.size := by
  obtain ⟨events, same⟩ := recalls
  rw [since_of_append same, same]

end State

namespace Run

/-- A run forgets nothing of what was recorded. -/
def Recalls (α : Type) (run _other : Run α) : Prop :=
  ∀ state after, (run state).final? = some after → state.Recalls after

variable {α β : Type}

theorem Recalls.andThen {run other : Run α} {next last : α → Run β} (first : Recalls α run other)
    (rest : ∀ value, Recalls β (next value) (last value)) :
    Recalls β (run >>= next) (other >>= last) := by
  intro state after final
  simp only [bind_eq, Run.andThen] at final
  cases out : run state with
  | done value middle =>
    rw [out] at final
    exact (first state middle (Outcome.final?_of_done out)).trans (rest value middle after final)
  | fault fault middle =>
    rw [out] at final
    cases final
    exact first state after (Outcome.final?_of_fault out)
  | spent =>
    rw [out] at final
    cases final

theorem Recalls.within {run other : Run α} (recalls : Recalls α run other) (scope : ScopeId) :
    Recalls α (run.within scope) (other.within scope) := by
  intro state after final
  obtain ⟨last, inner, rfl⟩ := final_within final
  have during := recalls _ last inner
  exact during

theorem recalls_extend (enclosing : ScopeId) (bindings : Bindings) :
    Recalls ScopeId (extend enclosing bindings) (extend enclosing bindings) := by
  intro state after final
  cases final
  exact ⟨[], (List.append_nil _).symm⟩

theorem recalls_parallel (world : World) : Parallel world world Recalls where
  host := rfl
  pure value := by
    intro state after final
    cases final
    exact .refl state
  step primitive := by
    intro state after final
    obtain ⟨events, _, trace⟩ := (primitive.stepped state after final).trace
    exact ⟨events, trace⟩
  mark _ := by
    intro state after final
    cases final
    exact .refl state
  frame runs := runs
  andThen firsts nexts := firsts.andThen nexts
  opened enters bodies := by
    rw [opened_eq, opened_eq]
    refine (recalls_extend _ _).andThen fun scope => Recalls.andThen ?_ fun _ => bodies.within scope
    intro state after final
    obtain ⟨events, _, trace⟩ := ((enters scope).stepped state after final).trace
    exact ⟨events, trace⟩
  asCall runs := by
    intro state after final
    rcases final_asCall final with rfl | ⟨last, inner, rfl⟩
    · exact .refl after
    · have during := runs _ last inner
      exact during
  settled runs := by
    intro state after final
    rcases final_settled final with inner | ⟨fault, last, failed, rfl⟩
    · exact runs state after inner
    · exact (runs state last (Outcome.final?_of_fault failed)).trans (.add last (.reported fault))

end Run

namespace World

/-- Running a program forgets nothing of what was recorded before. -/
theorem interpret?_recalls {world : World} {fuel : Nat} {program : Program} {state : State}
    {verdict : Verdict} (ran : world.interpret? fuel program state = some verdict) :
    state.Recalls verdict.state := by
  have parallel := Run.recalls_parallel world
  have recalls := parallel.runAll (parallel.upto fuel) program none state
  unfold interpret? runAll at ran
  cases out : Machine.runAll (M := Run) world fuel none program state with
  | done result after =>
    rw [out] at ran recalls
    cases ran
    exact recalls after rfl
  | fault fault after =>
    rw [out] at ran recalls
    cases ran
    exact (recalls after rfl).trans (.add after (.reported fault))
  | spent =>
    rw [out] at ran
    cases ran

end World

end Lox
