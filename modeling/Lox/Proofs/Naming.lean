import Lox.Proofs.Scopes
import Lox.Proofs.Watched

set_option autoImplicit false

namespace Lox

/-- No scope that there was has a new name, but for those that are free to. -/
structure Store.Spares (free : ScopeId → Prop) (before after : Store) : Prop where
  size : before.size ≤ after.size
  names : ∀ id < before.size, ¬ free id → (after.bindings id).names = (before.bindings id).names

namespace Store

variable {before middle after : Store} {free : ScopeId → Prop}

theorem Spares.refl (free : ScopeId → Prop) (store : Store) : store.Spares free store :=
  ⟨Nat.le_refl _, fun _ _ _ => rfl⟩

theorem Spares.trans (first : before.Spares free middle) (rest : middle.Spares free after) :
    before.Spares free after := by
  have more := first.size
  have further := rest.size
  refine ⟨by omega, ?_⟩
  intro id inside bound
  have still : id < middle.size := by omega
  rw [rest.names id still bound, first.names id inside bound]

theorem Spares.extend (free : ScopeId → Prop) (store : Store) (outer : Option ScopeId)
    (bindings : Bindings) : store.Spares free (store.extend outer bindings) := by
  have size := size_extend store outer bindings
  refine ⟨by omega, ?_⟩
  intro id inside _
  have old : id ≠ store.size := by omega
  rw [bindings_extend_old old]

theorem Spares.define {store : Store} {scope : ScopeId} (allowed : free scope) (name : String)
    (value : Value) : store.Spares free (store.define scope name value) := by
  have size := size_define store scope name value
  refine ⟨by omega, ?_⟩
  intro id _ bound
  have other : id ≠ scope := by
    rintro rfl
    exact bound allowed
  rw [bindings_define_of_ne other]

/-- Scopes newer than a store are no matter to it. -/
theorem Spares.newer (first : before.Spares free middle)
    (rest : middle.Spares (fun id => id = before.size) after) : before.Spares free after := by
  have more := first.size
  have further := rest.size
  refine ⟨by omega, ?_⟩
  intro id inside bound
  have still : id < middle.size := by omega
  have other : ¬ id = before.size := by omega
  rw [rest.names id still other, first.names id inside bound]

/-- A new value for a name that is found is no new name. -/
theorem Spares.overwrite {store : Store} {id scope : ScopeId} {name : String}
    (found : store.resolve id name = some scope) (value : Value) :
    store.Spares free (store.define scope name value) := by
  have bound := (resolve_eq_some found).2
  have size := size_define store scope name value
  refine ⟨by omega, ?_⟩
  intro i inside _
  by_cases there : i = scope
  · subst i
    rw [bindings_define_self inside, Bindings.names_set_of_has value bound]
  · rw [bindings_define_of_ne there]

def nowhere (_ _ : ScopeId) : Prop := False

theorem not_nowhere {current id : ScopeId} : ¬ nowhere current id :=
  fun allowed => allowed

def here (current id : ScopeId) : Prop := id = current

theorem Written.spares {store : Store} {current : ScopeId} (written : store.Written current after) :
    store.Spares (here current) after := by
  cases written with
  | kept => exact .refl _ _
  | bound name value =>
    have own : here current current := rfl
    exact .define own name value
  | overwritten name value scope found => exact .overwrite found value

end Store

/-- A step leaves the scopes alone and stays where it is. -/
def Run.Still {α : Type} (run : Run α) : Prop :=
  ∀ state after, (run state).final? = some after →
    after.store = state.store ∧ after.current = state.current

namespace Run

theorem still_spent {α : Type} : (Run.spent (α := α)).Still := by
  intro state after final
  cases final

theorem still_give {α : Type} (value : α) : Run.Still fun state => .done value state := by
  intro state after final
  cases final
  exact ⟨rfl, rfl⟩

theorem still_record {α : Type} (event : Event) (value : α) :
    Run.Still fun state => .done value (state.add event) := by
  intro state after final
  cases final
  exact ⟨rfl, rfl⟩

theorem still_fail {α : Type} (token : Token) (cause : Cause) :
    (Run.fail (α := α) token cause).Still := by
  intro state after final
  cases final
  exact ⟨rfl, rfl⟩

theorem still_here : Run.here.Still := by
  intro state after final
  cases final
  exact ⟨rfl, rfl⟩

theorem still_lookUp (name : Token) : (Run.lookUp name).Still := by
  intro state after final
  unfold Run.lookUp at final
  split at final <;> cases final <;> exact ⟨rfl, rfl⟩

theorem still_ask (host : Host) (native : Native) (arguments : List Value) :
    (Run.ask host native arguments).Still := by
  intro state after final
  cases final
  exact ⟨rfl, rfl⟩

theorem still_noteEntry (name : Token) (params : List Token) (scope : ScopeId) :
    (Run.noteEntry name params scope).Still := by
  intro state after final
  cases final
  exact ⟨rfl, rfl⟩

theorem still_checkArity (paren : Token) (expected : Option Nat) (given : Nat) :
    (Run.checkArity paren expected given).Still := by
  unfold Run.checkArity
  split
  · exact still_give ()
  · split
    · exact still_give ()
    · exact still_fail paren _

theorem still_answer (answer : Answer) (operator : Token) : (answer.run operator).Still := by
  cases answer with
  | value value => exact still_give value
  | refused cause => exact still_fail operator cause
  | unknown => exact still_record (.noOperator operator) (Value.number 0.0)

end Run

/-- A run binds new names in free scopes only, among those that there were, and ends in the scope
in which it began. -/
structure History.Naming {α : Type} (free : ScopeId → Prop) (start : State)
    (history : History α) : Prop where
  spares : ∀ state ∈ history.states, start.store.Spares free state.store
  current : ∀ after, history.outcome.final? = some after → after.current = start.current

namespace Watched

def Naming (free : ScopeId → ScopeId → Prop) (α : Type) (run : Watched α) : Prop :=
  ∀ state, (run state).Naming (free state.current) state

variable {α β : Type} {free : ScopeId → ScopeId → Prop}

theorem naming_step {run : Run α}
    (spares : ∀ state after, (run state).final? = some after →
      state.store.Spares (free state.current) after.store)
    (current : ∀ state after, (run state).final? = some after → after.current = state.current) :
    Naming free α (Watched.step run) := by
  intro state
  refine ⟨?_, ?_⟩
  · intro after member
    exact spares state after (mem_states_step.mp member)
  · intro after final
    exact current state after final

theorem naming_still {run : Run α} (still : run.Still) : Naming free α (Watched.step run) := by
  apply naming_step
  · intro state after final
    rw [(still state after final).1]
    exact .refl _ _
  · intro state after final
    exact (still state after final).2

theorem naming_assign (name : Token) (value : Value) :
    Naming free Unit (Watched.step (Run.assign name value)) := by
  apply naming_step
  · intro state after final
    unfold Run.assign at final
    split at final
    · rename_i scope found
      cases final
      exact .overwrite found value
    · cases final
      exact .refl _ _
  · intro state after final
    exact ((Run.Primitive.assign name value).stepped state after final).current

theorem naming_pure (value : α) : Naming free α (pure value) := by
  intro state
  refine ⟨?_, ?_⟩
  · intro after member
    rcases History.mem_states.mp member with ⟨_, inside, _⟩ | final
    · cases inside
    · cases final
      exact .refl _ _
  · intro after final
    cases final
    rfl

theorem naming_primitive {run : Run α} (primitive : run.Primitive) :
    Naming Store.here α (Watched.step run) := by
  apply naming_step
  · intro state after final
    exact (primitive.stepped state after final).store.spares
  · intro state after final
    exact (primitive.stepped state after final).current

theorem Naming.andThen {run : Watched α} {next : α → Watched β} (first : Naming free α run)
    (rest : ∀ value, Naming free β (next value)) : Naming free β (run.andThen next) := by
  intro state
  refine ⟨?_, ?_⟩
  · intro after member
    rcases mem_states_andThen member with earlier | ⟨value, middle, out, later⟩
    · exact (first state).spares after earlier
    · have final := Outcome.final?_of_done out
      have toMiddle := (first state).spares middle (History.mem_of_final final)
      have fromMiddle := (rest value middle).spares after later
      rw [(first state).current middle final] at fromMiddle
      exact toMiddle.trans fromMiddle
  · intro after final
    rcases final_andThen final with earlier | ⟨value, middle, out, later⟩
    · exact (first state).current after earlier
    · have ended := Outcome.final?_of_done out
      rw [(rest value middle).current after later, (first state).current middle ended]

theorem Naming.asCall {run : Watched α} (config : Config) (paren : Token)
    (invocation : Invocation) (naming : Naming free α run) :
    Naming free α (run.asCall config paren invocation) := by
  intro state
  have inner := naming { state with calls := state.calls + 1 }
  refine ⟨?_, ?_⟩
  · intro after member
    rcases mem_states_asCall member with rfl | rfl | inside | ⟨last, ended, rfl⟩
    · exact .refl _ _
    · exact .refl _ _
    · exact inner.spares after inside
    · exact inner.spares last (History.mem_of_final ended)
  · intro after final
    rcases final_asCall final with rfl | ⟨last, ended, rfl⟩
    · rfl
    · exact inner.current last ended

theorem Naming.settled {run : Watched Value} (policy : Policy) (naming : Naming free Value run) :
    Naming free Value (run.settled policy) := by
  intro state
  have inner := naming state
  refine ⟨?_, ?_⟩
  · intro after member
    rcases mem_states_settled member with inside | ⟨fault, last, out, rfl⟩
    · exact inner.spares after inside
    · have final := Outcome.final?_of_fault out
      exact inner.spares last (History.mem_of_final final)
  · intro after final
    rcases final_settled final with same | ⟨fault, last, out, rfl⟩
    · exact inner.current after same
    · exact inner.current last (Outcome.final?_of_fault out)

/-- What a run names in a scope opened for it is named in none of the scopes that there were. -/
theorem Naming.opened {enclosing : ScopeId} {bindings : Bindings} {entry : ScopeId → Run Unit}
    {body : Watched α} (enters : ∀ scope, Naming free Unit (Watched.step (entry scope)))
    (bodies : Naming Store.here α body) :
    Naming free α (Machine.opened enclosing bindings entry body) := by
  intro state
  rw [opened_eq]
  let opened : State := { state with store := state.store.extend (some enclosing) bindings }
  have opening : state.store.Spares (free state.current) opened.store := .extend _ _ _ _
  have entering := enters state.store.size opened
  refine ⟨?_, ?_⟩
  · intro after member
    rcases mem_states_andThen member with early | ⟨scope, first, out, later⟩
    · cases mem_states_step.mp early
      exact opening
    · cases out
      rcases mem_states_andThen later with early | ⟨_, entered, out, inside⟩
      · exact opening.trans (entering.spares after early)
      · have ready := History.mem_of_final (Outcome.final?_of_done out)
        have before := opening.trans (entering.spares entered ready)
        have body := bodies { entered with current := state.store.size }
        -- The body is free to name in the scope just opened, which `state` does not have yet.
        apply before.newer
        rcases mem_states_within inside with rfl | during | ⟨last, ended, rfl⟩
        · exact .refl _ _
        · exact body.spares after during
        · exact body.spares last (History.mem_of_final ended)
  · intro after final
    rcases final_andThen final with early | ⟨scope, first, out, later⟩
    · cases early
      rfl
    · cases out
      rcases final_andThen later with early | ⟨_, entered, out, inside⟩
      · exact entering.current after early
      · obtain ⟨last, _, rfl⟩ := final_within inside
        exact entering.current entered (Outcome.final?_of_done out)

end Watched

namespace World

theorem naming_parallel (world : World) :
    Parallel world world fun α (run : Watched α) (_ : Watched α) => run.Naming Store.here α where
  host := rfl
  pure value := Watched.naming_pure value
  step primitive := Watched.naming_primitive primitive
  mark _ := Watched.naming_pure ()
  frame runs := runs
  andThen first rest := first.andThen rest
  opened enters bodies := bodies.opened fun scope => Watched.naming_primitive (enters scope)
  asCall runs := runs.asCall _ _ _
  settled runs := runs.settled _

/-- A call names nothing in the scopes that there were. -/
theorem callFunction_naming (world : World) (fuel : Nat) (name : Token) (params : List Token)
    (body : List Stmt) (closure : ScopeId) (arguments : List Value) :
    Watched.Naming Store.nowhere Value
      (Machine.callFunction world fuel name params body closure arguments) := by
  cases fuel with
  | zero => exact Watched.naming_still Run.still_spent
  | succ fuel =>
    have bodies := ((naming_parallel world).upto fuel).executeAll body
    rw [Machine.callFunction]
    apply Watched.Naming.andThen
    · exact bodies.opened fun scope => Watched.naming_still (Run.still_noteEntry name params scope)
    · intro returned
      exact Watched.naming_pure (returned.getD .nil)

theorem block_naming (world : World) (fuel : Nat) (body : List Stmt) :
    Watched.Naming Store.nowhere (Option Value) (Machine.execute world fuel (.block body)) := by
  cases fuel with
  | zero => exact Watched.naming_still Run.still_spent
  | succ fuel =>
    have bodies := ((naming_parallel world).upto fuel).executeAll body
    rw [Machine.execute]
    apply (Watched.naming_still Run.still_here).andThen
    intro here
    exact bodies.opened fun _ => Watched.naming_still (Run.still_give ())

/-- No expression names anything in the scopes that there were. -/
theorem evaluate_naming (world : World) (fuel : Nat) :
    (∀ expr, Watched.Naming Store.nowhere Value (Machine.evaluate world fuel expr)) ∧
    ∀ exprs, Watched.Naming Store.nowhere (List Value) (Machine.evaluateAll world fuel exprs) := by
  induction fuel with
  | zero =>
    exact ⟨fun _ => Watched.naming_still Run.still_spent,
      fun _ => Watched.naming_still Run.still_spent⟩
  | succ fuel ih =>
    obtain ⟨evaluate, evaluateAll⟩ := ih
    constructor
    · intro expr
      apply Watched.Naming.settled
      cases expr with
      | literal value => exact Watched.naming_pure value
      | grouping inner => exact evaluate inner
      | var name => exact Watched.naming_still (Run.still_lookUp name)
      | assign name expr =>
        apply (evaluate expr).andThen
        intro value
        exact (Watched.naming_assign name value).andThen fun _ => Watched.naming_pure value
      | logical first operator second =>
        apply (evaluate first).andThen
        intro value
        split
        · exact Watched.naming_pure value
        · exact evaluate second
      | unary operator operand =>
        exact (evaluate operand).andThen fun value =>
          Watched.naming_still (Run.still_answer _ operator)
      | binary first operator second =>
        apply (evaluate first).andThen
        intro value
        exact (evaluate second).andThen fun other =>
          Watched.naming_still (Run.still_answer _ operator)
      | call callee paren arguments =>
        apply (evaluate callee).andThen
        intro callee
        apply (evaluateAll arguments).andThen
        intro values
        cases callee with
        | function name params body closure =>
          apply (Watched.naming_still (Run.still_checkArity paren _ _)).andThen
          intro _
          exact (callFunction_naming world fuel name params body closure values).asCall _ _ _
        | native native =>
          apply (Watched.naming_still (Run.still_checkArity paren _ _)).andThen
          intro _
          exact (Watched.naming_still (Run.still_ask world.host native values)).asCall _ _ _
        | text | number | bool | nil | uninitialized | returned =>
          exact Watched.naming_still (Run.still_fail paren .notCallable)
    · intro exprs
      cases exprs with
      | nil => exact Watched.naming_pure []
      | cons expr rest =>
        apply (evaluate expr).andThen
        intro value
        exact (evaluateAll rest).andThen fun values => Watched.naming_pure (value :: values)

end World

end Lox
