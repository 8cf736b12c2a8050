import Lox.Proofs.Scopes
import Lox.Proofs.Watched

set_option autoImplicit false

namespace Lox

/-- What time does to a store: scopes keep their links, and their names in order, while new
scopes and names come after the old. -/
structure Store.Evolves (before after : Store) : Prop where
  size : before.size ≤ after.size
  enclosing : ∀ id < before.size, after.enclosing id = before.enclosing id
  names : ∀ id < before.size, (before.bindings id).names <+: (after.bindings id).names

namespace Store

variable {before middle after store : Store}

theorem Evolves.refl (store : Store) : store.Evolves store :=
  ⟨Nat.le_refl _, fun _ _ => rfl, fun _ _ => List.prefix_rfl⟩

theorem Evolves.trans (first : before.Evolves middle) (rest : middle.Evolves after) :
    before.Evolves after := by
  have more := first.size
  have further := rest.size
  refine ⟨by omega, ?_, ?_⟩
  · intro id inside
    have still : id < middle.size := by omega
    rw [rest.enclosing id still, first.enclosing id inside]
  · intro id inside
    have still : id < middle.size := by omega
    exact (first.names id inside).trans (rest.names id still)

theorem Evolves.define (store : Store) (scope : ScopeId) (name : String) (value : Value) :
    store.Evolves (store.define scope name value) := by
  have size := size_define store scope name value
  refine ⟨by omega, ?_, ?_⟩
  · intro id _
    exact enclosing_define store scope name value id
  · intro id inside
    by_cases there : id = scope
    · subst id
      rw [bindings_define_self inside]
      exact Bindings.names_prefix_set _ name value
    · exact bindings_define_of_ne there name value ▸ List.prefix_rfl

theorem Evolves.extend (store : Store) (outer : Option ScopeId) (bindings : Bindings) :
    store.Evolves (store.extend outer bindings) := by
  have size := size_extend store outer bindings
  refine ⟨by omega, ?_, ?_⟩
  · intro id inside
    exact enclosing_extend_old inside outer bindings
  · intro id inside
    have old : id ≠ store.size := by omega
    exact bindings_extend_old old outer bindings ▸ List.prefix_rfl

theorem Written.evolves {current : ScopeId} (written : store.Written current after) :
    store.Evolves after := by
  cases written with
  | kept => exact .refl _
  | bound name value => exact .define store current name value
  | overwritten name value scope found => exact .define store scope name value

/-- Old chains stay as they are. -/
theorem Evolves.chain (evolves : before.Evolves after) {id : ScopeId} (inside : id < before.size) :
    after.chain id = before.chain id := by
  apply chain_congr
  intro i member
  have further := le_of_mem_chain i member
  have there : i < before.size := Nat.lt_of_le_of_lt further inside
  exact evolves.enclosing i there

/-- A name that is found stays found, in the same scope or on the way to it. -/
theorem Evolves.resolve (evolves : before.Evolves after) {id scope : ScopeId} {name : String}
    (inside : id < before.size) (found : before.resolve id name = some scope) :
    ∃ nearer, after.resolve id name = some nearer ∧ nearer ∈ after.chain id ∧
      scope ∈ after.chain nearer := by
  induction id using Nat.strongRecOn with
  | _ id ih =>
    have bound : (after.bindings scope).has name = true := by
      obtain ⟨member, bound⟩ := resolve_eq_some found
      have within := lt_size_of_has bound
      rw [Bindings.has_iff] at bound ⊢
      exact (evolves.names scope within).subset bound
    by_cases here : (after.bindings id).has name = true
    · refine ⟨id, ?_, mem_chain_self after id, ?_⟩
      · exact resolve_of_has here
      · rw [evolves.chain inside]
        exact (resolve_eq_some found).1
    · have before_here : ¬ (before.bindings id).has name = true := by
        intro had
        rw [Bindings.has_iff] at had here
        exact here ((evolves.names id inside).subset had)
      -- Not here before, nor now: the walk goes on outward in both stores alike.
      obtain ⟨outer, link, older, around⟩ := resolve_of_not_has found before_here
      have stays : after.enclosing id = some outer := (evolves.enclosing id inside).trans link
      have there : outer < before.size := Nat.lt_trans older inside
      obtain ⟨nearer, now, onWay, further⟩ := ih outer older there around
      refine ⟨nearer, ?_, ?_, further⟩
      · rw [resolve_outer here stays older]
        exact now
      · exact mem_chain.mpr (Or.inr ⟨outer, stays, older, onWay⟩)

end Store

def State.Precedes (earlier later : State) : Prop :=
  earlier.store.Evolves later.store

structure History.Evolving {α : Type} (start : State) (history : History α) : Prop where
  during : (start :: history.moments.map Moment.state).Pairwise State.Precedes
  last : ∀ after, history.outcome.final? = some after →
    ∀ state ∈ start :: history.moments.map Moment.state, state.Precedes after

namespace History

variable {α : Type} {start : State} {history : History α} {during : List Moment}
  {outcome : Outcome α}

theorem Evolving.pairwise (evolving : history.Evolving start) :
    (start :: history.states).Pairwise State.Precedes := by
  unfold History.states
  rw [← List.cons_append, List.pairwise_append]
  refine ⟨evolving.during, ?_, ?_⟩
  · cases history.outcome.final? with
    | none => exact List.Pairwise.nil
    | some after => exact List.pairwise_singleton _ _
  · intro state member after final
    exact evolving.last after (Option.mem_toList.mp final) state member

/-- Everything leads to the end. -/
theorem Evolving.toLast (evolving : history.Evolving start) (after : State)
    (final : history.outcome.final? = some after) (state : State)
    (member : state ∈ start :: history.states) : state.Precedes after := by
  have before := evolving.last after final
  rcases List.mem_cons.mp member with rfl | inside
  · exact before _ List.mem_cons_self
  · rcases History.mem_states.mp inside with ⟨moment, during, rfl⟩ | ended
    · exact before _ (List.mem_cons_of_mem _ (List.mem_map_of_mem during))
    · rw [final] at ended
      cases ended
      exact .refl after.store

theorem Evolving.ending
    (earlier : (start :: during.map Moment.state).Pairwise State.Precedes)
    (last : ∀ after, outcome.final? = some after →
      ∀ state ∈ start :: during.map Moment.state, state.Precedes after) :
    (History.ending during outcome).Evolving start := by
  have whole : start :: (during ++ outcome.last).map Moment.state =
      (start :: during.map Moment.state) ++ outcome.last.map Moment.state := by
    rw [List.map_append, List.cons_append]
  have stopped : ∀ state ∈ outcome.last.map Moment.state, outcome.final? = some state := by
    intro state member
    obtain ⟨moment, inside, rfl⟩ := List.mem_map.mp member
    obtain ⟨after, final, rfl⟩ := Outcome.mem_last.mp inside
    exact final
  refine ⟨?_, ?_⟩
  · show (start :: (during ++ outcome.last).map Moment.state).Pairwise State.Precedes
    rw [whole, List.pairwise_append]
    refine ⟨earlier, ?_, ?_⟩
    · cases final : outcome.final? with
      | none => simp [Outcome.last, final]
      | some after => simp [Outcome.last, final]
    · intro state member after inside
      exact last after (stopped after inside) state member
  · intro after final state member
    change state ∈ start :: (during ++ outcome.last).map Moment.state at member
    rw [whole] at member
    rcases List.mem_append.mp member with before | there
    · exact last after final state before
    · have same := stopped state there
      change outcome.final? = some after at final
      rw [final] at same
      cases same
      exact .refl after.store

/-- What goes on inside a scope or a call, between two states with the same stores. -/
theorem Evolving.around {middle : State} (evolving : history.Evolving middle)
    (same : middle.store = start.store)
    (inside : during.map Moment.state = middle :: history.moments.map Moment.state)
    (last : ∀ after, outcome.final? = some after →
      ∃ inner, history.outcome.final? = some inner ∧ after.store = inner.store) :
    (History.ending during outcome).Evolving start := by
  have fromStart : ∀ state, middle.Precedes state → start.Precedes state := by
    intro state precedes
    unfold State.Precedes at precedes ⊢
    rw [← same]
    exact precedes
  refine .ending ?_ ?_
  · rw [inside, List.pairwise_cons]
    refine ⟨?_, evolving.during⟩
    intro state member
    apply fromStart
    rcases List.mem_cons.mp member with rfl | later
    · exact .refl _
    · exact List.rel_of_pairwise_cons evolving.during later
  · intro after final state member
    obtain ⟨inner, ended, sameStore⟩ := last after final
    rw [inside] at member
    unfold State.Precedes
    rw [sameStore]
    rcases List.mem_cons.mp member with rfl | later
    · exact fromStart inner (evolving.last inner ended middle List.mem_cons_self)
    · exact evolving.last inner ended state later

theorem Evolving.andThen {β : Type} {middle : State} {rest : History β}
    (first : history.Evolving start) (ended : history.outcome.final? = some middle)
    (evolving : rest.Evolving middle) :
    History.Evolving start ⟨history.moments ++ rest.moments, rest.outcome⟩ := by
  have toMiddle := first.last middle ended
  have whole : start :: (history.moments ++ rest.moments).map Moment.state =
      (start :: history.moments.map Moment.state) ++ rest.moments.map Moment.state := by
    rw [List.map_append, List.cons_append]
  obtain ⟨fromMiddle, later⟩ := List.pairwise_cons.mp evolving.during
  refine ⟨?_, ?_⟩
  · rw [whole, List.pairwise_append]
    refine ⟨first.during, later, ?_⟩
    intro state before after member
    exact (toMiddle state before).trans (fromMiddle after member)
  · intro after final state member
    rw [whole] at member
    rcases List.mem_append.mp member with before | there
    · have precedes := evolving.last after final middle List.mem_cons_self
      exact (toMiddle state before).trans precedes
    · exact evolving.last after final state (List.mem_cons_of_mem _ there)

end History

namespace Watched

variable {α β : Type}

def Evolving (α : Type) (run : Watched α) : Prop :=
  ∀ state, (run state).Evolving state

theorem evolving_step {run : Run α}
    (evolves : ∀ state after, (run state).final? = some after → state.Precedes after) :
    Evolving α (Watched.step run) := by
  intro state
  refine .ending (List.pairwise_singleton _ _) ?_
  intro after final earlier member
  rw [List.mem_singleton.mp member]
  exact evolves state after final

theorem evolving_primitive {run : Run α} (primitive : run.Primitive) :
    Evolving α (Watched.step run) := by
  apply evolving_step
  intro state after final
  exact (primitive.stepped state after final).store.evolves

theorem evolving_extend (enclosing : ScopeId) (bindings : Bindings) :
    Evolving ScopeId (Watched.step (Run.extend enclosing bindings)) := by
  apply evolving_step
  intro state after final
  cases final
  exact .extend state.store (some enclosing) bindings

theorem evolving_pure (value : α) : Evolving α (pure value) := by
  intro state
  refine ⟨List.pairwise_singleton _ _, ?_⟩
  intro after final earlier member
  cases final
  rw [List.mem_singleton.mp member]
  exact .refl state.store

theorem Evolving.andThen {run : Watched α} {next : α → Watched β} (first : Evolving α run)
    (rest : ∀ value, Evolving β (next value)) : Evolving β (run.andThen next) := by
  intro state
  have evolving := first state
  unfold Watched.andThen
  cases out : (run state).outcome with
  | done value middle => exact evolving.andThen (Outcome.final?_of_done out) (rest value middle)
  | fault | spent =>
    refine ⟨evolving.during, ?_⟩
    intro after final
    exact evolving.last after (out ▸ final)

theorem Evolving.within {run : Watched α} (scope : ScopeId) (evolving : Evolving α run) :
    Evolving α (run.within scope) := by
  intro state
  refine (evolving { state with current := scope }).around rfl rfl ?_
  intro after final
  obtain ⟨last, ended, rfl⟩ := Run.final_within final
  exact ⟨last, ended, rfl⟩

theorem Evolving.asCall {run : Watched α} (config : Config) (paren : Token)
    (invocation : Invocation) (evolving : Evolving α run) :
    Evolving α (run.asCall config paren invocation) := by
  intro state
  by_cases deep : config.maxDepth ≤ state.calls
  · rw [asCall_refused paren invocation run deep]
    refine .ending (List.pairwise_singleton _ _) ?_
    intro after final earlier member
    cases final
    rw [List.mem_singleton.mp member]
    exact .refl state.store
  · rw [asCall_begun paren invocation run deep]
    refine (evolving { state with calls := state.calls + 1 }).around rfl ?_ ?_
    · rw [List.map_map]
      rfl
    · intro after final
      rw [Outcome.final?_mapState, Option.map_eq_some_iff] at final
      obtain ⟨last, ended, rfl⟩ := final
      exact ⟨last, ended, rfl⟩

theorem Evolving.settled {run : Watched Value} (policy : Policy) (evolving : Evolving Value run) :
    Evolving Value (run.settled policy) := by
  intro state
  have inner := evolving state
  refine .ending inner.during ?_
  intro after final earlier member
  rcases Run.final_settled final with same | ⟨fault, last, out, rfl⟩
  · exact inner.last after same earlier member
  · exact inner.last last (Outcome.final?_of_fault out) earlier member

theorem evolving_parallel (world : World) :
    Parallel world world fun α (run : Watched α) (_ : Watched α) => Evolving α run where
  host := rfl
  pure value := evolving_pure value
  step primitive := evolving_primitive primitive
  mark _ := evolving_pure ()
  frame runs := runs
  andThen first rest := first.andThen rest
  opened enters bodies := (evolving_extend _ _).andThen fun scope =>
    (evolving_primitive (enters scope)).andThen fun _ => bodies.within scope
  asCall runs := runs.asCall _ _ _
  settled runs := runs.settled _

end Watched

end Lox
