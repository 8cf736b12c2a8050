import Lox.Proofs.Growth
import Lox.Proofs.Naming
import Lox.Proofs.Plain
import Lox.Proofs.Policy

set_option autoImplicit false

namespace Lox

/-- The scopes form a tree around the globals, and functions come from within. -/
structure Store.Sound (store : Store) : Prop where
  root : store.enclosing State.globals = none
  links : ∀ id < store.size, id ≠ State.globals → ∃ outer < id, store.enclosing id = some outer
  tame : ∀ id name value, (store.bindings id).get? name = some value →
    value.Tame fun closure => closure < store.size

structure State.Sound (state : State) : Prop where
  store : state.store.Sound
  current : state.current < state.store.size

namespace Store

variable {store : Store}

theorem Sound.extend (sound : store.Sound) (inhabited : 0 < store.size) {outer : ScopeId}
    (older : outer < store.size) {bindings : Bindings}
    (tame : ∀ name value, bindings.get? name = some value →
      value.Tame fun closure => closure < store.size) :
    (store.extend (some outer) bindings).Sound := by
  have more : ∀ closure, closure < store.size → closure < store.size + 1 := by
    intro closure inside
    omega
  refine ⟨?_, ?_, ?_⟩
  · have first : State.globals < store.size := inhabited
    rw [enclosing_extend_old first]
    exact sound.root
  · intro id inside inner
    rw [size_extend] at inside
    by_cases new : id = store.size
    · subst id
      exact ⟨outer, older, enclosing_extend_new store _ bindings⟩
    · have old : id < store.size := by omega
      rw [enclosing_extend_old old]
      exact sound.links id old inner
  · intro id name value found
    rw [size_extend]
    by_cases new : id = store.size
    · subst id
      rw [bindings_extend_new] at found
      exact (tame name value found).mono more
    · rw [bindings_extend_old new] at found
      exact (sound.tame id name value found).mono more

theorem Sound.define (sound : store.Sound) (scope : ScopeId) (name : String) {value : Value}
    (tame : value.Tame fun closure => closure < store.size) :
    (store.define scope name value).Sound := by
  refine ⟨?_, ?_, ?_⟩
  · rw [enclosing_define]
    exact sound.root
  · intro id inside inner
    rw [size_define] at inside
    rw [enclosing_define]
    exact sound.links id inside inner
  · intro id other stored found
    rw [size_define]
    rw [get?_define] at found
    split at found
    · cases found
      exact tame
    · exact sound.tame id other stored found

theorem Sound.lookUp (sound : store.Sound) {id : ScopeId} {name : String} {value : Value}
    (found : store.get? id name = some value) :
    value.Tame fun closure => closure < store.size := by
  unfold get? at found
  obtain ⟨scope, _, bound⟩ := Option.bind_eq_some_iff.mp found
  exact sound.tame scope name value bound

end Store

/-- All that a history comes through is sound and has so many scopes, and what it gives is known
at some number of scopes that there are. -/
structure History.Sound {α : Type} (least : Nat) (post : Nat → α → Prop) (history : History α) :
    Prop where
  states : ∀ state ∈ history.states, state.Sound ∧ least ≤ state.store.size
  value : ∀ value after, history.outcome = .done value after →
    ∃ known, least ≤ known ∧ known ≤ after.store.size ∧ post known value

namespace Watched

def Sound (α : Type) (least : Nat) (post : Nat → α → Prop) (run : Watched α) : Prop :=
  ∀ state, state.Sound → least ≤ state.store.size → (run state).Sound least post

variable {α β : Type} {least : Nat}

theorem sound_step {post : Nat → α → Prop} {run : Run α}
    (sound : ∀ state after, state.Sound → least ≤ state.store.size →
      (run state).final? = some after → after.Sound ∧ least ≤ after.store.size)
    (value : ∀ state value after, state.Sound → least ≤ state.store.size →
      run state = .done value after →
      ∃ known, least ≤ known ∧ known ≤ after.store.size ∧ post known value) :
    Sound α least post (Watched.step run) := by
  intro state start enough
  refine ⟨?_, ?_⟩
  · intro after member
    exact sound state after start enough (mem_states_step.mp member)
  · intro result after out
    exact value state result after start enough out

/-- A step that leaves the scopes alone. -/
theorem sound_still {post : Nat → α → Prop} {run : Run α} (still : run.Still)
    (value : ∀ state value after, state.Sound → least ≤ state.store.size →
      run state = .done value after →
      ∃ known, least ≤ known ∧ known ≤ after.store.size ∧ post known value) :
    Sound α least post (Watched.step run) := by
  apply sound_step _ value
  intro state after start enough final
  obtain ⟨store, current⟩ := still state after final
  refine ⟨⟨?_, ?_⟩, ?_⟩
  · rw [store]
    exact start.store
  · rw [store, current]
    exact start.current
  · rw [store]
    exact enough

/-- A step that leaves the scopes alone and gives what is known beforehand. -/
theorem sound_known {post : Nat → α → Prop} {run : Run α} (still : run.Still)
    (good : ∀ state value after, run state = .done value after → post least value) :
    Sound α least post (Watched.step run) := by
  apply sound_still still
  intro state value after _ enough out
  have same := (still state after (Outcome.final?_of_done out)).1
  refine ⟨least, Nat.le_refl _, ?_, good state value after out⟩
  rw [same]
  exact enough

theorem sound_pure {post : Nat → α → Prop} {value : α} (good : post least value) :
    Sound α least post (pure value) := by
  intro state start enough
  refine ⟨?_, ?_⟩
  · intro after member
    rcases History.mem_states.mp member with ⟨_, inside, _⟩ | final
    · cases inside
    · cases final
      exact ⟨start, enough⟩
  · intro result after out
    cases out
    exact ⟨least, Nat.le_refl _, enough, good⟩

theorem Sound.andThen {mid : Nat → α → Prop} {post : Nat → β → Prop} {run : Watched α}
    {next : α → Watched β} (first : Sound α least mid run)
    (rest : ∀ known value, least ≤ known → mid known value → Sound β known post (next value)) :
    Sound β least post (run.andThen next) := by
  intro state start enough
  have earlier := first state start enough
  have later {value : α} {middle : State} (out : (run state).outcome = .done value middle) :
      ∃ known, least ≤ known ∧ (next value middle).Sound known post := by
    have ended := History.mem_of_final (Outcome.final?_of_done out)
    obtain ⟨known, more, there, good⟩ := earlier.value value middle out
    exact ⟨known, more, rest known value more good middle (earlier.states middle ended).1 there⟩
  refine ⟨?_, ?_⟩
  · intro after member
    rcases mem_states_andThen member with before | ⟨value, middle, out, inside⟩
    · exact earlier.states after before
    · obtain ⟨known, more, history⟩ := later out
      obtain ⟨sound, size⟩ := history.states after inside
      exact ⟨sound, by omega⟩
  · intro result after ended
    obtain ⟨value, middle, out, final⟩ := done_andThen ended
    obtain ⟨known, more, history⟩ := later out
    obtain ⟨last, further, there, good⟩ := history.value result after final
    exact ⟨last, by omega, there, good⟩

theorem Sound.asCall {post : Nat → α → Prop} {run : Watched α} (config : Config) (paren : Token)
    (invocation : Invocation) (sound : Sound α least post run) :
    Sound α least post (run.asCall config paren invocation) := by
  intro state start enough
  have inner := sound { state with calls := state.calls + 1 } ⟨start.store, start.current⟩ enough
  refine ⟨?_, ?_⟩
  · intro after member
    rcases mem_states_asCall member with rfl | rfl | inside | ⟨last, ended, rfl⟩
    · exact ⟨start, enough⟩
    · exact ⟨⟨start.store, start.current⟩, enough⟩
    · exact inner.states after inside
    · obtain ⟨there, size⟩ := inner.states last (History.mem_of_final ended)
      exact ⟨⟨there.store, there.current⟩, size⟩
  · intro value after done
    obtain ⟨last, out, rfl⟩ := done_asCall done
    exact inner.value value last out

theorem Sound.settled {run : Watched Value} {post : Nat → Value → Prop} (policy : Policy)
    (nil : ∀ known, post known .nil) (sound : Sound Value least post run) :
    Sound Value least post (run.settled policy) := by
  intro state start enough
  have inner := sound state start enough
  have reported {fault : Fault} {last : State} (out : (run state).outcome = .fault fault last) :
      (last.add (.reported fault)).Sound ∧ least ≤ (last.add (.reported fault)).store.size := by
    have ended := History.mem_of_final (Outcome.final?_of_fault out)
    obtain ⟨there, size⟩ := inner.states last ended
    exact ⟨⟨there.store, there.current⟩, size⟩
  refine ⟨?_, ?_⟩
  · intro after member
    rcases mem_states_settled member with inside | ⟨fault, last, out, rfl⟩
    · exact inner.states after inside
    · exact reported out
  · intro value after done
    rcases done_settled done with same | ⟨rfl, fault, last, out, rfl⟩
    · exact inner.value value after same
    · exact ⟨least, Nat.le_refl _, (reported out).2, nil least⟩

theorem Sound.within {post : Nat → α → Prop} {run : Watched α} {scope : ScopeId}
    (inside : scope < least) (sound : ∀ more, least ≤ more → Sound α more post run) :
    Sound α least post (run.within scope) := by
  intro state start enough
  have there : scope < state.store.size := Nat.lt_of_lt_of_le inside enough
  have inner := sound state.store.size enough { state with current := scope } ⟨start.store, there⟩
    (Nat.le_refl _)
  refine ⟨?_, ?_⟩
  · intro after member
    rcases mem_states_within member with rfl | during | ⟨last, ended, rfl⟩
    · exact ⟨⟨start.store, there⟩, enough⟩
    · obtain ⟨stopped, size⟩ := inner.states after during
      exact ⟨stopped, by omega⟩
    · -- The scope to come back to is still there: scopes are never given up.
      obtain ⟨stopped, size⟩ := inner.states last (History.mem_of_final ended)
      have current : state.current < last.store.size := Nat.lt_of_lt_of_le start.current size
      exact ⟨⟨stopped.store, current⟩, Nat.le_trans enough size⟩
  · intro value after done
    obtain ⟨last, out, rfl⟩ := done_within done
    obtain ⟨known, more, less, good⟩ := inner.value value last out
    exact ⟨known, by omega, less, good⟩

theorem sound_extend {enclosing : ScopeId} {bindings : Bindings} (declared : enclosing < least)
    (tame : ∀ name value, bindings.get? name = some value →
      value.Tame fun closure => closure < least) :
    Sound ScopeId least (fun known scope => scope < known)
      (Watched.step (Run.extend enclosing bindings)) := by
  apply sound_step
  · intro state after start enough final
    cases final
    have bigger : state.store.size < (state.store.extend (some enclosing) bindings).size := by
      rw [Store.size_extend]
      exact Nat.lt_succ_self _
    refine ⟨⟨?_, ?_⟩, ?_⟩
    · have inhabited : 0 < state.store.size := Nat.zero_lt_of_lt start.current
      have there : enclosing < state.store.size := Nat.lt_of_lt_of_le declared enough
      apply start.store.extend inhabited there
      intro name value found
      apply (tame name value found).mono
      intro closure inside
      exact Nat.lt_of_lt_of_le inside enough
    · exact Nat.lt_trans start.current bigger
    · exact Nat.le_trans enough (Nat.le_of_lt bigger)
  · intro state value after start enough out
    cases out
    have size := Store.size_extend state.store (some enclosing) bindings
    exact ⟨state.store.size + 1, by omega, Nat.le_of_eq size.symm, Nat.lt_succ_self _⟩

/-- A step that binds a tame value somewhere. -/
theorem sound_define {run : Run Unit} {value : Value}
    (tame : value.Tame fun closure => closure < least)
    (defines : ∀ state after, (run state).final? = some after → after = state ∨
      ∃ scope name, after = { state with store := state.store.define scope name value }) :
    Sound Unit least (fun _ _ => True) (Watched.step run) := by
  have kept : ∀ state after, state.Sound → least ≤ state.store.size →
      (run state).final? = some after → after.Sound ∧ least ≤ after.store.size := by
    intro state after start enough final
    rcases defines state after final with rfl | ⟨scope, name, rfl⟩
    · exact ⟨start, enough⟩
    · have now : value.Tame fun closure => closure < state.store.size := by
        apply tame.mono
        intro closure inside
        exact Nat.lt_of_lt_of_le inside enough
      have size := Store.size_define state.store scope name value
      refine ⟨⟨start.store.define scope name now, ?_⟩, ?_⟩
      · exact size ▸ start.current
      · exact size ▸ enough
  apply sound_step kept
  intro state _ after start enough out
  have size := (kept state after start enough (Outcome.final?_of_done out)).2
  exact ⟨least, Nat.le_refl _, size, trivial⟩

end Watched

/-- In a world whose natives make no functions, plain pieces of programs keep states sound. -/
theorem World.sound_discipline (world : World) (handsOn : world.host.HandsOn) :
    Discipline world world (fun least id => id < least)
      fun α least post (run : Watched α) (_ : Watched α) => run.Sound α least post where
  grows more declared := Nat.lt_of_lt_of_le declared more
  pure good := Watched.sound_pure good
  give good := Watched.sound_known (Run.still_give _) fun _ _ _ out => by
    cases out
    exact good
  record event good := Watched.sound_known (Run.still_record event _) fun _ _ _ out => by
    cases out
    exact good
  spent := Watched.sound_known Run.still_spent fun _ _ _ out => by cases out
  fail token cause := Watched.sound_known (Run.still_fail token cause) fun _ _ _ out => by cases out
  noteEntry name params _ :=
    Watched.sound_known (Run.still_noteEntry name params _) fun _ _ _ _ => trivial
  ask native known := Watched.sound_known (Run.still_ask _ native _) fun state _ _ out => by
    cases out
    exact handsOn.tame known state.asked native
  mark _ := Watched.sound_pure trivial
  frame runs := runs
  here := Watched.sound_still Run.still_here fun state value after start enough out => by
    cases out
    exact ⟨_, enough, Nat.le_refl _, start.current⟩
  lookUp name := Watched.sound_still (Run.still_lookUp name) fun _ _ _ start enough out => by
    unfold Run.lookUp at out
    split at out
    · rename_i found
      cases out
      exact ⟨_, enough, Nat.le_refl _, start.store.lookUp found⟩
    · cases out
  assign name tame := Watched.sound_define tame fun state after final => by
    unfold Run.assign at final
    split at final
    · cases final
      exact Or.inr ⟨_, _, rfl⟩
    · cases final
      exact Or.inl rfl
  define name tame := Watched.sound_define tame fun state after final => by
    cases final
    exact Or.inr ⟨_, _, rfl⟩
  andThen first rest := first.andThen rest
  opened declared tame enters bodies := by
    rw [Watched.opened_eq]
    apply (Watched.sound_extend declared tame).andThen
    intro m scope more inside
    apply (enters m scope more inside).andThen
    intro k _ further _
    apply Watched.Sound.within (Nat.lt_of_lt_of_le inside further)
    intro l still
    exact bodies l (Nat.le_trans more (Nat.le_trans further still))
  asCall runs := runs.asCall _ _ _
  settled runs := runs.settled _ fun known => Value.tame_of_closure?_none rfl

end Lox
