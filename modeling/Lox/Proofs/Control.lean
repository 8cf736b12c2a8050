import Lox.Proofs.Policy
import Lox.Proofs.Watched

set_option autoImplicit false

namespace Lox

/-- The counter tells the calls in progress, over those that were there before. -/
structure Moment.Counted (before : Nat) (limit : Int) (moment : Moment) : Prop where
  calls : moment.state.calls = before + moment.calls.length
  bounded : moment.calls ≠ [] → (moment.state.calls : Int) ≤ limit

theorem Moment.counted_outside {before : Nat} {state : State} (limit : Int)
    (same : state.calls = before) : Moment.Counted before limit ⟨state, []⟩ := by
  refine ⟨?_, ?_⟩
  · rw [same]
    rfl
  · intro nonempty
    exact absurd rfl nonempty

theorem Moment.Counted.inside {before : Nat} {limit : Int} {moment : Moment}
    (counted : moment.Counted (before + 1) limit) (shallow : (before : Int) < limit)
    (invocation : Invocation) : (moment.inside invocation).Counted before limit := by
  refine ⟨?_, ?_⟩
  · have calls := counted.calls
    simp only [Moment.inside, List.length_append, List.length_singleton]
    omega
  · intro _
    show (moment.state.calls : Int) ≤ limit
    -- With no call further in, the bound is that on the call just begun.
    by_cases innermost : moment.calls = []
    · have calls := counted.calls
      rw [innermost, List.length_nil] at calls
      omega
    · exact counted.bounded innermost

structure State.Back (start after : State) : Prop where
  current : after.current = start.current
  calls : after.calls = start.calls

theorem State.Back.trans {start middle after : State} (first : start.Back middle)
    (rest : middle.Back after) : start.Back after :=
  ⟨rest.current.trans first.current, rest.calls.trans first.calls⟩

/-- Every end of a run is back where the run began, and the counter is right all along. -/
structure History.Guarded {α : Type} (limit : Int) (start : State) (history : History α) :
    Prop where
  back : ∀ after, history.outcome.final? = some after → start.Back after
  counted : ∀ moment ∈ history.moments, moment.Counted start.calls limit

theorem History.Guarded.ending {α : Type} {limit : Int} {start : State} {during : List Moment}
    {outcome : Outcome α} (back : ∀ after, outcome.final? = some after → start.Back after)
    (counted : ∀ moment ∈ during, moment.Counted start.calls limit) :
    (History.ending during outcome).Guarded limit start := by
  refine ⟨back, ?_⟩
  intro moment member
  rcases List.mem_append.mp member with inside | last
  · exact counted moment inside
  · obtain ⟨after, final, rfl⟩ := Outcome.mem_last.mp last
    exact Moment.counted_outside limit (back after final).calls

namespace Watched

def Guarded (limit : Int) (α : Type) (run : Watched α) : Prop :=
  ∀ state, (run state).Guarded limit state

variable {α β : Type} {limit : Int}

theorem guarded_pure (value : α) : Guarded limit α (pure value) := by
  intro state
  refine ⟨?_, ?_⟩
  · intro after final
    cases final
    exact ⟨rfl, rfl⟩
  · intro moment member
    cases member

theorem guarded_step {run : Run α}
    (back : ∀ state after, (run state).final? = some after → state.Back after) :
    Guarded limit α (Watched.step run) := by
  intro state
  refine .ending (back state) ?_
  intro moment member
  cases member

theorem guarded_primitive {run : Run α} (primitive : run.Primitive) :
    Guarded limit α (Watched.step run) := by
  apply guarded_step
  intro state after final
  have stepped := primitive.stepped state after final
  exact ⟨stepped.current, stepped.calls⟩

theorem guarded_extend (enclosing : ScopeId) (bindings : Bindings) :
    Guarded limit ScopeId (Watched.step (Run.extend enclosing bindings)) := by
  apply guarded_step
  intro state after final
  cases final
  exact ⟨rfl, rfl⟩

theorem Guarded.andThen {run : Watched α} {next : α → Watched β} (first : Guarded limit α run)
    (rest : ∀ value, Guarded limit β (next value)) : Guarded limit β (run.andThen next) := by
  intro state
  have guarded := first state
  unfold Watched.andThen
  cases out : (run state).outcome with
  | done value middle =>
    have back := guarded.back middle (Outcome.final?_of_done out)
    have after := rest value middle
    refine ⟨?_, ?_⟩
    · intro last final
      exact back.trans (after.back last final)
    · intro moment member
      rcases List.mem_append.mp member with inside | inside
      · exact guarded.counted moment inside
      · rw [← back.calls]
        exact after.counted moment inside
  | fault | spent =>
    refine ⟨?_, guarded.counted⟩
    intro last final
    exact guarded.back last (out ▸ final)

theorem Guarded.within {run : Watched α} (scope : ScopeId) (guarded : Guarded limit α run) :
    Guarded limit α (run.within scope) := by
  intro state
  have inner := guarded { state with current := scope }
  refine .ending ?_ ?_
  · intro after final
    obtain ⟨last, ended, rfl⟩ := Run.final_within final
    exact ⟨rfl, (inner.back last ended).calls⟩
  · intro moment member
    rcases List.mem_cons.mp member with rfl | inside
    · exact Moment.counted_outside limit rfl
    · exact inner.counted moment inside

theorem Guarded.asCall {config : Config} {run : Watched α} (paren : Token)
    (invocation : Invocation) (guarded : Guarded config.maxDepth α run) :
    Guarded config.maxDepth α (run.asCall config paren invocation) := by
  intro state
  have inner := guarded { state with calls := state.calls + 1 }
  refine .ending ?_ ?_
  · intro after final
    rcases Run.final_asCall final with rfl | ⟨last, ended, rfl⟩
    · exact ⟨rfl, rfl⟩
    · have back := inner.back last ended
      refine ⟨back.current, ?_⟩
      show last.calls - 1 = state.calls
      rw [back.calls]
      rfl
  · intro moment member
    split at member
    · cases member
    · rename_i shallow
      have shallow : (state.calls : Int) < config.maxDepth := Int.not_le.mp shallow
      obtain ⟨earlier, inside, rfl⟩ := List.mem_map.mp member
      refine Moment.Counted.inside ?_ shallow invocation
      rcases List.mem_cons.mp inside with rfl | during
      · exact Moment.counted_outside _ rfl
      · exact inner.counted earlier during

theorem Guarded.recover {run : Watched α} (policy : Policy) {handle : Fault → Run α}
    (handles : ∀ fault state after, (handle fault state).final? = some after → state.Back after)
    (guarded : Guarded limit α run) : Guarded limit α (run.recover policy handle) := by
  intro state
  have inner := guarded state
  refine .ending ?_ inner.counted
  intro after final
  rcases Run.final_recover final with same | ⟨fault, last, out, handled⟩
  · exact inner.back after same
  · exact (inner.back last (Outcome.final?_of_fault out)).trans (handles fault last after handled)

theorem Guarded.settled {run : Watched Value} (policy : Policy)
    (guarded : Guarded limit Value run) : Guarded limit Value (run.settled policy) := by
  apply guarded.recover
  intro fault state after final
  cases final
  exact ⟨rfl, rfl⟩

end Watched

namespace World

theorem guarded_parallel (world : World) : Parallel world world
    fun α (run : Watched α) (_ : Watched α) => run.Guarded world.config.maxDepth α where
  host := rfl
  pure value := Watched.guarded_pure value
  step primitive := Watched.guarded_primitive primitive
  mark _ := Watched.guarded_pure ()
  frame runs := runs
  andThen first rest := first.andThen rest
  opened enters bodies := (Watched.guarded_extend _ _).andThen fun scope =>
    (Watched.guarded_primitive (enters scope)).andThen fun _ => bodies.within scope
  asCall runs := runs.asCall _ _
  settled runs := runs.settled _

/-- A state in which the machine waits for a program: at first, and whenever one has ended. -/
inductive Idle (world : World) (natives : List Native) : State → Prop
  | fresh : Idle world natives (.initial world.config natives)
  | ended {state : State} {program : Program} {verdict : Verdict} (idle : Idle world natives state)
      (ends : world.Ends program state verdict) : Idle world natives verdict.state

end World

/-- What control means for a piece of a program: its run, plain or watched, ends where it began,
and if it sets out with no call in progress, the counter tells those in progress and keeps to
the bound at all times. -/
structure Controlled {α : Type} (config : Config) (run : Run α) (watched : Watched α) : Prop where
  shows : ∀ state, (watched state).outcome = run state
  back : ∀ state after, (run state).final? = some after →
    after.current = state.current ∧ after.calls = state.calls
  counted : ∀ state, state.calls = 0 → ∀ moment ∈ ⟨state, []⟩ :: (watched state).moments,
    moment.state.calls = moment.calls.length ∧
    (moment.state.calls : Int) ≤ max 0 config.maxDepth

theorem Watched.Guarded.controlled {α : Type} {config : Config} {run : Run α} {watched : Watched α}
    (guarded : watched.Guarded config.maxDepth α) (shows : Shows α watched run) :
    Controlled config run watched := by
  refine ⟨shows, ?_, ?_⟩
  · intro state after final
    rw [← shows state] at final
    have back := (guarded state).back after final
    exact ⟨back.current, back.calls⟩
  · intro state none_yet moment member
    have counted : moment.Counted state.calls config.maxDepth := by
      rcases List.mem_cons.mp member with rfl | during
      · exact Moment.counted_outside _ rfl
      · exact (guarded state).counted moment during
    have calls := counted.calls
    refine ⟨by omega, ?_⟩
    by_cases outside : moment.calls = []
    · rw [outside, List.length_nil] at calls
      omega
    · have bounded := counted.bounded outside
      omega

namespace World

theorem interpret?_back {world : World} {fuel : Nat} {program : Program} {state : State}
    {verdict : Verdict} (ran : world.interpret? fuel program state = some verdict) :
    state.Back verdict.state := by
  have parallel := guarded_parallel world
  have guarded := parallel.runAll (parallel.upto fuel) program none state
  obtain ⟨last, final, same | ⟨fault, same⟩⟩ := Watched.of_interpret? ran
  · rw [same]
    exact guarded.back last final
  · rw [same]
    have back := guarded.back last final
    exact ⟨back.current, back.calls⟩

theorem Idle.back {world : World} {natives : List Native} {state : State}
    (idle : world.Idle natives state) : state.current = State.globals ∧ state.calls = 0 := by
  induction idle with
  | fresh => exact ⟨rfl, rfl⟩
  | ended idle ends ih =>
    obtain ⟨fuel, ran⟩ := ends
    have back := interpret?_back ran
    exact ⟨back.current.trans ih.1, back.calls.trans ih.2⟩

/-- Whatever is run, for however long, control is kept: by an expression, a statement, a list of
statements in any scope, and a program; and the machine always waits for the next program in the
globals, with no call in progress. -/
theorem control_restored (world : World) (fuel : Nat) :
    (∀ expr, Controlled world.config (world.evaluate fuel expr)
      (Machine.evaluate world fuel expr)) ∧
    (∀ stmt, Controlled world.config (world.execute fuel stmt)
      (Machine.execute world fuel stmt)) ∧
    (∀ scope stmts, Controlled world.config
      (Machine.within scope (Machine.executeAll world fuel stmts))
      (Machine.within scope (Machine.executeAll world fuel stmts))) ∧
    (∀ program, Controlled world.config (world.runAll fuel program)
      (Machine.runAll world fuel none program)) ∧
    (∀ program state verdict, world.interpret? fuel program state = some verdict →
      verdict.state.current = state.current ∧ verdict.state.calls = state.calls) ∧
    ∀ natives state, world.Idle natives state →
      state.current = State.globals ∧ state.calls = 0 := by
  have guarded := (guarded_parallel world).upto fuel
  have shows := (Watched.shows_parallel world).upto fuel
  refine ⟨?_, ?_, ?_, ?_, ?_, ?_⟩
  · intro expr
    exact (guarded.evaluate expr).controlled (shows.evaluate expr)
  · intro stmt
    exact (guarded.execute stmt).controlled (shows.execute stmt)
  · intro scope stmts
    exact ((guarded.executeAll stmts).within scope).controlled
      ((shows.executeAll stmts).within scope)
  · intro program
    exact ((guarded_parallel world).runAll guarded program none).controlled
      ((Watched.shows_parallel world).runAll shows program none)
  · intro program state verdict ran
    have back := interpret?_back ran
    exact ⟨back.current, back.calls⟩
  · intro natives state idle
    exact idle.back

/-- A function whose body calls it in a block, without end. -/
def endless : Program :=
  let word (lexeme : String) : Token := .plain .identifier lexeme 1
  let call : Stmt := .expression (.call (.var (word "f")) (.plain .rightParen ")" 1) [])
  [.function (word "f") [] [.block [call]], call]

theorem control_restored_endless :
    let strict := bare.withPolicy .abort
    let start := State.initial strict.config []
    ∃ verdict, strict.interpret? 20 endless start = some verdict ∧ verdict.aborted = true ∧
      verdict.state.current = State.globals ∧ verdict.state.calls = 0 ∧
      ∃ moment ∈ (Machine.runAll (M := Watched) strict 20 none endless start).moments,
        moment.calls.length = 3 ∧ moment.state.calls = 3 := by
  intro strict start
  let verdict := (strict.interpret? 20 endless start).get (by decide +kernel)
  have ran : strict.interpret? 20 endless start = some verdict := (Option.some_get _).symm
  have control := control_restored strict 20
  have back := control.2.2.2.2.1 endless start verdict ran
  refine ⟨verdict, ran, by decide +kernel, back.1, back.2, ?_⟩
  let moments := (Machine.runAll (M := Watched) strict 20 none endless start).moments
  let deepest := (moments.find? fun moment => moment.calls.length == 3).get (by decide +kernel)
  have found : moments.find? (fun moment => moment.calls.length == 3) = some deepest :=
    (Option.some_get _).symm
  have three : deepest.calls.length = 3 := by decide +kernel
  have inside : deepest ∈ moments := List.mem_of_find?_eq_some found
  refine ⟨deepest, inside, three, ?_⟩
  rw [← three]
  exact ((control.2.2.2.1 endless).counted start rfl deepest (List.mem_cons_of_mem _ inside)).1

end World

end Lox
