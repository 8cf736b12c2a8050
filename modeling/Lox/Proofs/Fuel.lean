import Lox.Proofs.Parallel

set_option autoImplicit false

namespace Lox

namespace Run

/-- The second run ends as the first does, if the first ends. -/
def Prolongs (α : Type) (first second : Run α) : Prop :=
  ∀ state, first state = .spent ∨ second state = first state

theorem Prolongs.andThen {α β : Type} {first second : Run α} {next after : α → Run β}
    (firsts : Prolongs α first second) (nexts : ∀ value, Prolongs β (next value) (after value)) :
    Prolongs β (first.andThen next) (second.andThen after) := by
  intro state
  rcases firsts state with short | same
  · exact Or.inl (by simp only [Run.andThen, short])
  · simp only [Run.andThen, same]
    cases first state with
    | done value middle => exact nexts value middle
    | fault fault middle => exact Or.inr rfl
    | spent => exact Or.inl rfl

theorem Prolongs.within {α : Type} {first second : Run α} (scope : ScopeId)
    (runs : Prolongs α first second) : Prolongs α (first.within scope) (second.within scope) := by
  intro state
  rcases runs { state with current := scope } with short | same
  · exact Or.inl (by simp only [Run.within, short])
  · exact Or.inr (by simp only [Run.within, same])

theorem Prolongs.asCall {α : Type} {first second : Run α} (config : Config) (paren : Token)
    (runs : Prolongs α first second) :
    Prolongs α (first.asCall config paren) (second.asCall config paren) := by
  intro state
  unfold Run.asCall
  split
  · exact Or.inr rfl
  · rcases runs { state with calls := state.calls + 1 } with short | same
    · exact Or.inl (by simp only [short])
    · exact Or.inr (by simp only [same])

theorem Prolongs.settled {first second : Run Value} (policy : Policy)
    (runs : Prolongs Value first second) :
    Prolongs Value (first.settled policy) (second.settled policy) := by
  intro state
  rcases runs state with short | same
  · exact Or.inl (by simp only [Run.settled, Run.recover, short])
  · exact Or.inr (by simp only [Run.settled, Run.recover, same])

theorem prolongs_refl {α : Type} (run : Run α) : Prolongs α run run :=
  fun _ => Or.inr rfl

theorem prolongs_parallel (world : World) : Parallel world world Prolongs where
  host := rfl
  pure value := prolongs_refl (pure value)
  step _ := prolongs_refl _
  mark _ := prolongs_refl _
  frame runs := runs
  andThen firsts nexts := firsts.andThen nexts
  opened _ bodies := by
    rw [opened_eq, opened_eq]
    exact (prolongs_refl _).andThen fun scope =>
      (prolongs_refl _).andThen fun _ => bodies.within scope
  asCall runs := runs.asCall world.config _
  settled runs := runs.settled world.config.policy

end Run

namespace World

/-- A program, run from a state, comes to an end. -/
def Ends (world : World) (program : Program) (state : State) (verdict : Verdict) : Prop :=
  ∃ fuel, world.interpret? fuel program state = some verdict

theorem runAll_prolongs (world : World) {fuel more : Nat} (enough : fuel ≤ more) (program : Program)
    (result : Option Value) : Run.Prolongs (Option Value)
      (Machine.runAll world fuel result program) (Machine.runAll world more result program) := by
  have parallel := Run.prolongs_parallel world
  exact parallel.runAll (parallel.upto_of_le (fun _ _ _ => Or.inl rfl) fuel more enough) program result

theorem interpret?_mono {world : World} {fuel more : Nat} {program : Program} {state : State}
    {verdict : Verdict} (ends : world.interpret? fuel program state = some verdict)
    (enough : fuel ≤ more) : world.interpret? more program state = some verdict := by
  have prolongs := world.runAll_prolongs enough program none state
  unfold interpret? runAll at ends ⊢
  rcases prolongs with short | same
  · rw [short] at ends
    cases ends
  · rw [same]
    exact ends

/-- A program ends in one way only, whatever the fuel. -/
theorem Ends.unique {world : World} {program : Program} {state : State} {first second : Verdict}
    (one : world.Ends program state first) (other : world.Ends program state second) :
    first = second := by
  obtain ⟨fuel, first_ends⟩ := one
  obtain ⟨more, second_ends⟩ := other
  have left := interpret?_mono first_ends (Nat.le_max_left fuel more)
  have right := interpret?_mono second_ends (Nat.le_max_right fuel more)
  exact Option.some.inj (left.symm.trans right)

end World

end Lox
