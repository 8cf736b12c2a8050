import Mathlib.Data.List.Forall2
import Lox.Proofs.Padding
import Lox.Proofs.Straight

set_option autoImplicit false

namespace Lox

/-- What is shown is the same; how many scopes are around a function that is entered is not. -/
inductive Event.Shown : Event → Event → Prop
  | same (event : Event) : Shown event event
  | entered (name : String) (params : List String) (depth other : Nat) :
      Shown (.entered name params depth) (.entered name params other)

/-- The second value is the first, at the places of the second store; so many scopes are in the
first. -/
structure Value.Carried (base : Nat) (f : ScopeId → ScopeId) (count : Nat) (value other : Value) :
    Prop where
  within : value.Within base count
  moved : other = value.moved f

/-- The second state has scopes to spare, and may be in one of them. -/
structure State.Padded (base : Nat) (f : ScopeId → ScopeId) (here there : ScopeId)
    (state twin : State) : Prop where
  store : state.store.Padded base f twin.store
  stands : state.store.Stands f twin.store here there
  current : state.current = here
  currentTwin : twin.current = there
  calls : twin.calls = state.calls
  trace : List.Forall₂ Event.Shown state.trace.toList twin.trace.toList
  asked : twin.asked = state.asked

structure State.Onward (base : Nat) (f : ScopeId → ScopeId) (here there : ScopeId)
    (state twin after afterTwin : State) : Prop where
  padded : after.Padded base f here there afterTwin
  grown : state.store.Evolves after.store
  grownTwin : twin.store.Evolves afterTwin.store

/-- Two runs ended alike, with values so related in view of the number of scopes that there are. -/
inductive Outcome.Padded {α β : Type} (base : Nat) (f : ScopeId → ScopeId) (here there : ScopeId)
    (state twin : State) (relates : Nat → α → β → Prop) : Outcome α → Outcome β → Prop
  | done {value : α} {other : β} {after afterTwin : State}
      (values : relates after.store.size value other)
      (onward : state.Onward base f here there twin after afterTwin) :
      Padded base f here there state twin relates (.done value after) (.done other afterTwin)
  | fault {reason : Fault} {after afterTwin : State}
      (onward : state.Onward base f here there twin after afterTwin) :
      Padded base f here there state twin relates (.fault reason after) (.fault reason afterTwin)
  | spent : Padded base f here there state twin relates .spent .spent

namespace State

variable {base : Nat} {f : ScopeId → ScopeId} {here there : ScopeId}
  {state twin middle middleTwin after afterTwin : State}

theorem Onward.refl (padded : state.Padded base f here there twin) :
    state.Onward base f here there twin state twin :=
  ⟨padded, .refl _, .refl _⟩

theorem Onward.trans {g : ScopeId → ScopeId} {scope place : ScopeId}
    (first : state.Onward base g scope place twin middle middleTwin)
    (rest : middle.Onward base f here there middleTwin after afterTwin) :
    state.Onward base f here there twin after afterTwin :=
  ⟨rest.padded, first.grown.trans rest.grown, first.grownTwin.trans rest.grownTwin⟩

theorem Padded.add (padded : state.Padded base f here there twin) {event other : Event}
    (events : event.Shown other) : (state.add event).Padded base f here there (twin.add other) := by
  refine ⟨padded.store, padded.stands, padded.current, padded.currentTwin, padded.calls, ?_,
    padded.asked⟩
  rw [add_trace, add_trace]
  exact List.rel_append padded.trace (.cons events .nil)

theorem Padded.at (padded : state.Padded base f here there twin) {scope place : ScopeId}
    (stands : state.store.Stands f twin.store scope place) :
    Padded base f scope place { state with current := scope } { twin with current := place } :=
  ⟨padded.store, stands, rfl, rfl, padded.calls, padded.trace, padded.asked⟩

theorem Padded.withCalls (padded : state.Padded base f here there twin) (calls : Nat) :
    Padded base f here there { state with calls := calls } { twin with calls := calls } :=
  ⟨padded.store, padded.stands, padded.current, padded.currentTwin, rfl, padded.trace, padded.asked⟩

theorem Padded.withStore (padded : state.Padded base f here there twin) {store storeTwin : Store}
    (stores : store.Padded base f storeTwin) (grown : state.store.Evolves store)
    (grownTwin : twin.store.Evolves storeTwin) :
    state.Onward base f here there twin { state with store := store }
      { twin with store := storeTwin } :=
  ⟨⟨stores, padded.stands.later grown grownTwin, padded.current, padded.currentTwin, padded.calls,
    padded.trace, padded.asked⟩, grown, grownTwin⟩

theorem Padded.shows {α : Type} (padded : state.Padded base f here there twin) (view : Event → Option α)
    (same : ∀ event other, event.Shown other → view other = view event) :
    twin.trace.toList.filterMap view = state.trace.toList.filterMap view := by
  have traces := padded.trace
  generalize state.trace.toList = shown, twin.trace.toList = shownTwin at traces ⊢
  induction traces with
  | nil => rfl
  | cons events _ ih => rw [List.filterMap_cons, List.filterMap_cons, same _ _ events, ih]

theorem Padded.ask (padded : state.Padded base f here there twin) :
    state.Onward base f here there twin { state with asked := state.asked + 1 }
      { twin with asked := state.asked + 1 } :=
  ⟨⟨padded.store, padded.stands, padded.current, padded.currentTwin, padded.calls, padded.trace,
    rfl⟩, .refl _, .refl _⟩

/-- What was printed is the same. -/
theorem Padded.output (padded : state.Padded base f here there twin) : twin.output = state.output := by
  apply padded.shows
  intro event other events
  cases events <;> rfl

/-- What was reported is the same. -/
theorem Padded.diagnostics (padded : state.Padded base f here there twin) :
    twin.diagnostics = state.diagnostics := by
  apply padded.shows
  intro event other events
  cases events <;> rfl

end State

namespace Value

variable {base count more : Nat} {f : ScopeId → ScopeId} {value other : Value}

theorem Carried.mono (carried : value.Carried base f count other) (enough : count ≤ more) :
    value.Carried base f more other :=
  ⟨carried.within.mono enough, carried.moved⟩

theorem carried_of_closure?_none (none_there : value.closure? = none) :
    value.Carried base f count value :=
  ⟨within_of_closure?_none none_there, (moved_of_closure?_none none_there).symm⟩

end Value

namespace Run

variable {α β γ δ : Type} {base n : Nat} {f : ScopeId → ScopeId} {here there : ScopeId}

/-- From states of which the second has scopes to spare, two runs end alike, once there are so many
scopes. -/
def Carries (base : Nat) (f : ScopeId → ScopeId) (here there : ScopeId) (n : Nat)
    (relates : Nat → α → β → Prop) (first : Run α) (second : Run β) : Prop :=
  ∀ state twin : State, n ≤ state.store.size → state.Padded base f here there twin →
    Outcome.Padded base f here there state twin relates (first state) (second twin)

abbrev anything (_ : Nat) (_ : α) (_ : β) : Prop := True

theorem carries_spent {relates : Nat → α → β → Prop} :
    Carries base f here there n relates spent spent :=
  fun _ _ _ _ => .spent

theorem carries_pure {relates : Nat → α → β → Prop} {value : α} {other : β}
    (values : ∀ m, n ≤ m → relates m value other) :
    Carries base f here there n relates (pure value) (pure other) :=
  fun state _ enough padded => .done (values state.store.size enough) (.refl padded)

theorem Carries.andThen {mid : Nat → α → β → Prop} {relates : Nat → γ → δ → Prop} {first : Run α}
    {second : Run β} {next : α → Run γ} {after : β → Run δ}
    (firsts : Carries base f here there n mid first second)
    (nexts : ∀ m value other, n ≤ m → mid m value other →
      Carries base f here there m relates (next value) (after other)) :
    Carries base f here there n relates (first >>= next) (second >>= after) := by
  intro state twin enough padded
  have outs := firsts state twin enough padded
  simp only [bind_eq, Run.andThen]
  generalize first state = one, second twin = other at outs ⊢
  cases outs with
  | @done value copy middle middleTwin values onward =>
    have later := Nat.le_trans enough onward.grown.size
    have rest := nexts _ value copy later values middle middleTwin (Nat.le_refl _) onward.padded
    simp only
    generalize next value middle = last, after copy middleTwin = lastTwin at rest ⊢
    cases rest with
    | done values further => exact .done values (onward.trans further)
    | fault further => exact .fault (onward.trans further)
    | spent => exact .spent
  | fault onward => exact .fault onward
  | spent => exact .spent

theorem carries_fail {relates : Nat → α → β → Prop} (token : Token) (cause : Cause) :
    Carries base f here there n relates (fail token cause) (fail token cause) :=
  fun _ _ _ padded => .fault (.refl padded)

theorem carries_note {event other : Event} (events : event.Shown other) :
    Carries base f here there n anything (note event) (note other) :=
  fun _ _ _ padded => .done trivial ⟨padded.add events, .refl _, .refl _⟩

theorem carries_here :
    Carries base f here there n (fun _ scope place => scope = here ∧ place = there) Run.here Run.here :=
  fun _ _ _ padded => .done ⟨padded.current, padded.currentTwin⟩ (.refl padded)

theorem carries_lookUp (name : Token) :
    Carries base f here there n (Value.Carried base f) (lookUp name) (lookUp name) := by
  intro state twin _ padded
  have same := padded.store.get? padded.stands name.lexeme
  unfold lookUp
  rw [padded.current, padded.currentTwin, same]
  cases found : state.store.get? here name.lexeme with
  | none => exact .fault (.refl padded)
  | some value => exact .done ⟨padded.store.within_of_get? found, rfl⟩ (.refl padded)

theorem carries_assign (name : Token) {value other : Value}
    (carried : value.Carried base f n other) :
    Carries base f here there n anything (assign name value) (assign name other) := by
  intro state twin enough padded
  have same := padded.store.resolve padded.stands name.lexeme
  rw [← padded.current, ← padded.currentTwin] at same
  have within := carried.within.mono enough
  unfold assign
  rw [same, carried.moved]
  cases found : state.store.resolve state.current name.lexeme with
  | none => exact .fault (.refl padded)
  | some scope =>
    have inside := Store.lt_size_of_has (Store.resolve_eq_some found).2
    have stores := padded.store.define inside name.lexeme within
    exact .done trivial (padded.withStore stores (.define ..) (.define ..))

/-- A name is declared only where both sides are in the same scope. -/
theorem carries_define (strict : there = f here) (name : Token) {value other : Value}
    (carried : value.Carried base f n other) :
    Carries base f here there n anything (define name value) (define name other) := by
  intro state twin enough padded
  have within := carried.within.mono enough
  have stores := padded.store.define padded.stands.inside name.lexeme within
  rw [← strict, ← padded.current, ← padded.currentTwin, ← carried.moved] at stores
  exact .done trivial (padded.withStore stores (.define ..) (.define ..))

theorem Carries.within {relates : Nat → α → β → Prop} {first : Run α} {second : Run β}
    {scope place : ScopeId} (runs : Carries base f scope place n relates first second)
    (stands : ∀ state twin : State, n ≤ state.store.size → state.Padded base f here there twin →
      state.store.Stands f twin.store scope place) :
    Carries base f here there n relates (first.within scope) (second.within place) := by
  intro state twin enough padded
  have outs := runs { state with current := scope } { twin with current := place } enough
    (padded.at (stands state twin enough padded))
  rw [within_eq, within_eq, padded.current, padded.currentTwin]
  generalize first { state with current := scope } = one,
    second { twin with current := place } = other at outs ⊢
  have back {after afterTwin : State} (onward : State.Onward base f scope place
      { state with current := scope } { twin with current := place } after afterTwin) :
      state.Onward base f here there twin { after with current := here }
        { afterTwin with current := there } :=
    ⟨onward.padded.at (padded.stands.later onward.grown onward.grownTwin), onward.grown,
      onward.grownTwin⟩
  cases outs with
  | done values onward => exact .done values (back onward)
  | fault onward => exact .fault (back onward)
  | spent => exact .spent

theorem Carries.asCall {relates : Nat → α → β → Prop} {first : Run α} {second : Run β}
    (runs : Carries base f here there n relates first second) (config : Config) (paren : Token) :
    Carries base f here there n relates (first.asCall config paren) (second.asCall config paren) := by
  intro state twin enough padded
  by_cases deep : config.maxDepth ≤ state.calls
  · rw [asCall_refused paren first deep, asCall_refused paren second (padded.calls ▸ deep)]
    exact .fault (.refl padded)
  · rw [asCall_begun paren first deep, asCall_begun paren second (padded.calls ▸ deep), padded.calls]
    have outs := runs { state with calls := state.calls + 1 } { twin with calls := state.calls + 1 }
      enough (padded.withCalls (state.calls + 1))
    generalize first { state with calls := state.calls + 1 } = one,
      second { twin with calls := state.calls + 1 } = other at outs ⊢
    have left {after afterTwin : State} (onward : State.Onward base f here there
        { state with calls := state.calls + 1 } { twin with calls := state.calls + 1 }
        after afterTwin) :
        state.Onward base f here there twin { after with calls := after.calls - 1 }
          { afterTwin with calls := afterTwin.calls - 1 } := by
      refine ⟨?_, onward.grown, onward.grownTwin⟩
      rw [onward.padded.calls]
      exact onward.padded.withCalls (after.calls - 1)
    cases outs with
    | done values onward => exact .done values (left onward)
    | fault onward => exact .fault (left onward)
    | spent => exact .spent

theorem Carries.settled {first second : Run Value}
    (runs : Carries base f here there n (Value.Carried base f) first second) (policy : Policy) :
    Carries base f here there n (Value.Carried base f) (first.settled policy)
      (second.settled policy) := by
  intro state twin enough padded
  have outs := runs state twin enough padded
  unfold Run.settled Run.recover
  generalize first state = one, second twin = other at outs ⊢
  cases outs with
  | done values onward => exact .done values onward
  | @fault reason after afterTwin onward =>
    cases policy with
    | resume =>
      exact .done (Value.carried_of_closure?_none rfl)
        ⟨onward.padded.add (.same (.reported reason)), onward.grown, onward.grownTwin⟩
    | abort => exact .fault onward
  | spent => exact .spent

theorem carries_checkArity (paren : Token) (expected : Option Nat) (given : Nat) :
    Carries base f here there n anything (checkArity paren expected given)
      (checkArity paren expected given) := by
  unfold checkArity
  split
  · exact carries_pure fun _ _ => trivial
  · split
    · exact carries_pure fun _ _ => trivial
    · exact carries_fail paren _

theorem carries_noteEntry (name : Token) (params : List Token) (scope place : ScopeId) :
    Carries base f here there n anything (noteEntry name params scope)
      (noteEntry name params place) :=
  fun _ _ _ padded => .done trivial ⟨padded.add (.entered ..), .refl _, .refl _⟩

theorem carries_answer {answer : Answer} (operator : Token)
    (tame : ∀ value, answer = .value value → value.closure? = none) :
    Carries base f here there n (Value.Carried base f) (answer.run operator)
      (answer.run operator) := by
  cases answer with
  | value value => exact carries_pure fun _ _ => Value.carried_of_closure?_none (tame value rfl)
  | refused cause => exact carries_fail operator cause
  | unknown =>
    apply (carries_note (.same (.noOperator operator))).andThen
    intro _ _ _ _ _
    exact carries_pure fun _ _ => Value.carried_of_closure?_none rfl

/-- Scopes opened on both sides become the same scope. -/
theorem carries_opened {relates : Nat → α → β → Prop} {outer outerTwin : ScopeId}
    {bindings : Bindings} {entry enter : ScopeId → Run Unit} {first : Run α} {second : Run β}
    (stands : ∀ state twin : State, n ≤ state.store.size → state.Padded base f here there twin →
      state.store.Stands f twin.store outer outerTwin)
    (bound : ∀ binding ∈ bindings, binding.2.Within base n)
    (enters : ∀ m scope place, Carries base f here there m anything (entry scope) (enter place))
    (bodies : ∀ scope m, Carries base f scope (f scope) m relates first second) :
    Carries base f here there n relates (Machine.opened outer bindings entry first)
      (Machine.opened outerTwin (bindings.mapValues (Value.moved f)) enter second) := by
  have opens : Carries base f here there n (fun m scope place => scope < m ∧ place = f scope)
      (extend outer bindings) (extend outerTwin (bindings.mapValues (Value.moved f))) := by
    intro state twin enough padded
    have stores := padded.store.extend (stands state twin enough padded)
      fun binding member => (bound binding member).mono enough
    refine .done ⟨?_, padded.store.size_eq.symm⟩ (padded.withStore stores (.extend ..) (.extend ..))
    rw [Store.size_extend]
    exact Nat.lt_succ_self _
  rw [opened_eq, opened_eq]
  apply opens.andThen
  rintro m scope _ _ ⟨inside, rfl⟩
  apply (enters m scope (f scope)).andThen
  intro more _ _ later _
  apply (bodies scope more).within
  intro state twin enough padded
  have known : scope < state.store.size := by
    exact Nat.lt_of_lt_of_le inside (Nat.le_trans later enough)
  exact padded.store.stands known

end Run

/-- Whether a statement binds no name in the scope in which it is run. -/
def Stmt.bindless : Stmt → Bool
  | .declare .. | .function .. => false
  | .branch _ yes none => yes.bindless
  | .branch _ yes (some no) => yes.bindless && no.bindless
  | .loop _ body => body.bindless
  | .block _ | .expression _ | .print _ | .ret .. => true

namespace Machine

open Run

variable {world : World} {base fuel n : Nat} {f : ScopeId → ScopeId} {here there : ScopeId}

def AllCarried (base : Nat) (f : ScopeId → ScopeId) (count : Nat) (values others : List Value) : Prop :=
  (∀ value ∈ values, value.Within base count) ∧ others = values.map (Value.moved f)

/-- Pieces of programs do the same with so much fuel where there are scopes to spare. A piece that
binds names has to be in the same scope on both sides. -/
structure Carried (world : World) (base : Nat) (f : ScopeId → ScopeId) (fuel : Nat) : Prop where
  evaluate {here there : ScopeId} {n : Nat} (expr : Expr) (anchored : expr.anchored base = true) :
    Carries base f here there n (Value.Carried base f) (evaluate world fuel expr)
      (evaluate world fuel expr)
  evaluateAll {here there : ScopeId} {n : Nat} (exprs : List Expr)
    (anchored : Expr.allAnchored base exprs = true) :
    Carries base f here there n (AllCarried base f) (evaluateAll world fuel exprs)
      (evaluateAll world fuel exprs)
  callFunction {here there : ScopeId} {n : Nat} (name : Token) (params : List Token)
    {body : List Stmt} (anchored : Stmt.allAnchored base body = true) {closure : ScopeId}
    (declared : closure < n) {arguments others : List Value}
    (carried : AllCarried base f n arguments others) :
    Carries base f here there n (Value.Carried base f)
      (callFunction world fuel name params body closure arguments)
      (callFunction world fuel name params body (f closure) others)
  execute {here there : ScopeId} {n : Nat} (stmt : Stmt) (anchored : stmt.anchored base = true)
    (fits : stmt.bindless = true ∨ there = f here) :
    Carries base f here there n (fun m => Option.Rel (Value.Carried base f m))
      (execute world fuel stmt) (execute world fuel stmt)
  executeAll {here there : ScopeId} {n : Nat} (stmts : List Stmt)
    (anchored : Stmt.allAnchored base stmts = true)
    (fits : (∀ stmt ∈ stmts, stmt.bindless = true) ∨ there = f here) :
    Carries base f here there n (fun m => Option.Rel (Value.Carried base f m))
      (executeAll world fuel stmts) (executeAll world fuel stmts)

theorem carries_literal {value : Value} (anchored : value.anchored base = true) :
    Carries base f here there n (Value.Carried base f) (pure value) (pure value) := by
  intro state twin _ padded
  have within := Value.within_of_anchored anchored
  have same : value.moved id = value.moved f :=
    within.moved_congr fun id known => (padded.store.fixed id known).symm
  rw [Value.moved_id] at same
  exact .done ⟨within.mono padded.store.old, same⟩ (.refl padded)

theorem carries_native (handsOn : world.host.HandsOn) (unscoped : world.host.Unscoped)
    (native : Native) {arguments others : List Value} (carried : AllCarried base f n arguments others) :
    Carries base f here there n (Value.Carried base f) (Run.ask world.host native arguments)
      (Run.ask world.host native others) := by
  intro state twin enough padded
  obtain ⟨within, rfl⟩ := carried
  have answers := handsOn.within within state.asked native
  have moved := unscoped f padded.store.ordered.injective state.asked native arguments
  unfold Run.ask
  rw [padded.asked]
  exact .done ⟨answers.mono enough, moved⟩ padded.ask

namespace Carried

theorem evaluate_succ (carried : Carried world base f fuel) (handsOn : world.host.HandsOn)
    (unscoped : world.host.Unscoped) {expr : Expr} (anchored : expr.anchored base = true) :
    Carries base f here there n (Value.Carried base f) (Machine.evaluate world (fuel + 1) expr)
      (Machine.evaluate world (fuel + 1) expr) := by
  apply Carries.settled
  cases expr with
  | literal value => exact carries_literal anchored
  | grouping inner => exact carried.evaluate inner anchored
  | var name => exact carries_lookUp name
  | assign name value =>
    apply (carried.evaluate value anchored).andThen
    intro m value other _ same
    apply (carries_assign name same).andThen
    intro _ _ _ later _
    exact carries_pure fun _ enough => same.mono (Nat.le_trans later enough)
  | logical left operator right =>
    obtain ⟨lefts, rights⟩ := Bool.and_eq_true_iff.mp anchored
    apply (carried.evaluate left lefts).andThen
    intro m value other _ same
    rw [same.moved, Value.truthy_moved, ← same.moved]
    split
    · exact carries_pure fun _ enough => same.mono enough
    · exact carried.evaluate right rights
  | unary operator right =>
    apply (carried.evaluate right anchored).andThen
    intro m value other _ same
    rw [same.moved, Answer.ofUnary_moved]
    exact carries_answer operator fun _ answer => Answer.closure?_ofUnary answer
  | binary left operator right =>
    obtain ⟨lefts, rights⟩ := Bool.and_eq_true_iff.mp anchored
    apply (carried.evaluate left lefts).andThen
    intro _ first copy _ one
    apply (carried.evaluate right rights).andThen
    intro _ second other _ two
    rw [one.moved, two.moved, Answer.ofBinary_moved]
    exact carries_answer operator fun _ answer => Answer.closure?_ofBinary answer
  | call callee paren arguments =>
    obtain ⟨callees, lists⟩ := Bool.and_eq_true_iff.mp anchored
    apply (carried.evaluate callee callees).andThen
    rintro m callee _ _ ⟨within, rfl⟩
    apply (carried.evaluateAll arguments lists).andThen
    intro more values others later all
    have count : others.length = values.length := by rw [all.2, List.length_map]
    cases callee with
    | function name params body closure =>
      obtain ⟨bodies, declared⟩ := within name params body closure rfl
      simp only [Value.moved, count]
      apply (carries_checkArity paren _ _).andThen
      intro last _ _ enough _
      have known : closure < last := Nat.lt_of_lt_of_le declared (Nat.le_trans later enough)
      have carriedOn : AllCarried base f last values others :=
        ⟨fun value member => (all.1 value member).mono enough, all.2⟩
      exact (carried.callFunction name params bodies known carriedOn).asCall world.config paren
    | native native =>
      simp only [Value.moved, count]
      apply (carries_checkArity paren _ _).andThen
      intro last _ _ enough _
      have carriedOn : AllCarried base f last values others :=
        ⟨fun value member => (all.1 value member).mono enough, all.2⟩
      exact (carries_native handsOn unscoped native carriedOn).asCall world.config paren
    | text | number | bool | nil | uninitialized | returned =>
      exact carries_fail paren .notCallable

theorem evaluateAll_succ (carried : Carried world base f fuel) {exprs : List Expr}
    (anchored : Expr.allAnchored base exprs = true) :
    Carries base f here there n (AllCarried base f) (Machine.evaluateAll world (fuel + 1) exprs)
      (Machine.evaluateAll world (fuel + 1) exprs) := by
  cases exprs with
  | nil =>
    apply carries_pure
    intro m _
    exact ⟨fun value member => absurd member List.not_mem_nil, rfl⟩
  | cons expr rest =>
    obtain ⟨first, more⟩ := Bool.and_eq_true_iff.mp anchored
    apply (carried.evaluate expr first).andThen
    intro m value copy _ one
    apply (carried.evaluateAll rest more).andThen
    intro last values others later all
    apply carries_pure
    intro count enough
    refine ⟨?_, ?_⟩
    · intro found member
      rcases List.mem_cons.mp member with rfl | inside
      · exact one.within.mono (Nat.le_trans later enough)
      · exact (all.1 found inside).mono enough
    · rw [one.moved, all.2, List.map_cons]

theorem callFunction_succ (carried : Carried world base f fuel) (name : Token) (params : List Token)
    {body : List Stmt} (anchored : Stmt.allAnchored base body = true) {closure : ScopeId}
    (declared : closure < n) {arguments others : List Value}
    (all : AllCarried base f n arguments others) :
    Carries base f here there n (Value.Carried base f)
      (Machine.callFunction world (fuel + 1) name params body closure arguments)
      (Machine.callFunction world (fuel + 1) name params body (f closure) others) := by
  have opened : Carries base f here there n (fun m => Option.Rel (Value.Carried base f m))
      (opened closure (.ofArguments params arguments) (noteEntry name params)
        (Machine.executeAll world fuel body))
      (opened (f closure) (.ofArguments params others) (noteEntry name params)
        (Machine.executeAll world fuel body)) := by
    rw [all.2, Bindings.ofArguments_mapValues]
    apply carries_opened
    · intro state twin enough padded
      exact padded.store.stands (Nat.lt_of_lt_of_le declared enough)
    · intro binding member
      exact all.1 _ (Bindings.mem_ofArguments member)
    · intro m scope place
      exact carries_noteEntry name params scope place
    · intro scope m
      exact carried.executeAll body anchored (.inr rfl)
  apply opened.andThen
  intro m returned copy _ same
  apply carries_pure
  intro count enough
  cases same with
  | none => exact Value.carried_of_closure?_none rfl
  | some values => exact values.mono enough

theorem execute_succ (carried : Carried world base f fuel) {stmt : Stmt}
    (anchored : stmt.anchored base = true) (fits : stmt.bindless = true ∨ there = f here) :
    Carries base f here there n (fun m => Option.Rel (Value.Carried base f m))
      (Machine.execute world (fuel + 1) stmt) (Machine.execute world (fuel + 1) stmt) := by
  cases stmt with
  | expression expr =>
    apply (carried.evaluate expr anchored).andThen
    intro _ _ _ _ _
    exact carries_pure fun _ _ => .none
  | print expr =>
    apply (carried.evaluate expr anchored).andThen
    intro _ value other _ same
    rw [same.moved, Value.print_moved]
    apply (carries_note (.same (.printed value.print))).andThen
    intro _ _ _ _ _
    exact carries_pure fun _ _ => .none
  | declare name expr =>
    have strict : there = f here := fits.resolve_left Bool.false_ne_true
    apply (carried.evaluate expr anchored).andThen
    intro _ value other _ same
    apply (carries_define strict name same).andThen
    intro _ _ _ _ _
    exact carries_pure fun _ _ => .none
  | block body =>
    apply carries_here.andThen
    rintro m _ _ _ ⟨rfl, rfl⟩
    apply carries_opened
    · intro state twin _ padded
      exact padded.stands
    · intro binding member
      cases member
    · intro _ _ _
      exact carries_pure fun _ _ => trivial
    · intro _ _
      exact carried.executeAll body anchored (.inr rfl)
  | branch condition yes no =>
    cases no with
    | none =>
      obtain ⟨tests, yeses⟩ := Bool.and_eq_true_iff.mp anchored
      apply (carried.evaluate condition tests).andThen
      intro _ value other _ same
      rw [same.moved, Value.truthy_moved]
      split
      · exact carried.execute yes yeses fits
      · exact carries_pure fun _ _ => .none
    | some no =>
      obtain ⟨both, noes⟩ := Bool.and_eq_true_iff.mp anchored
      obtain ⟨tests, yeses⟩ := Bool.and_eq_true_iff.mp both
      apply (carried.evaluate condition tests).andThen
      intro _ value other _ same
      rw [same.moved, Value.truthy_moved]
      split
      · exact carried.execute yes yeses (fits.imp_left fun free => (Bool.and_eq_true_iff.mp free).1)
      · exact carried.execute no noes (fits.imp_left fun free => (Bool.and_eq_true_iff.mp free).2)
  | loop condition body =>
    obtain ⟨tests, bodies⟩ := Bool.and_eq_true_iff.mp anchored
    apply (carried.evaluate condition tests).andThen
    intro _ value other _ same
    rw [same.moved, Value.truthy_moved]
    split
    · apply (carried.execute body bodies fits).andThen
      intro _ returned copy _ left
      cases left with
      | none => exact carried.execute (.loop condition body) anchored fits
      | some values => exact carries_pure fun _ enough => .some (values.mono enough)
    · exact carries_pure fun _ _ => .none
  | function name params body =>
    have strict : there = f here := fits.resolve_left Bool.false_ne_true
    intro state twin enough padded
    have inside := padded.stands.inside
    have declares : Value.Carried base f state.store.size (.function name params body here)
        (.function name params body there) := by
      refine ⟨Value.within_function anchored inside, ?_⟩
      rw [strict, Value.moved]
    have runs : Carries base f here there state.store.size
        (fun m => Option.Rel (Value.Carried base f m)) (Machine.execute world (fuel + 1)
          (.function name params body)) (Machine.execute world (fuel + 1) (.function name params body)) := by
      apply carries_here.andThen
      rintro m _ _ later ⟨rfl, rfl⟩
      apply (carries_define strict name (declares.mono later)).andThen
      intro _ _ _ _ _
      exact carries_pure fun _ _ => .none
    exact runs state twin (Nat.le_refl _) padded
  | ret keyword value =>
    cases value with
    | none => exact carries_pure fun _ _ => .some (Value.carried_of_closure?_none rfl)
    | some expr =>
      apply (carried.evaluate expr anchored).andThen
      intro _ value other _ same
      exact carries_pure fun _ enough => .some (same.mono enough)

theorem executeAll_succ (carried : Carried world base f fuel) {stmts : List Stmt}
    (anchored : Stmt.allAnchored base stmts = true)
    (fits : (∀ stmt ∈ stmts, stmt.bindless = true) ∨ there = f here) :
    Carries base f here there n (fun m => Option.Rel (Value.Carried base f m))
      (Machine.executeAll world (fuel + 1) stmts) (Machine.executeAll world (fuel + 1) stmts) := by
  cases stmts with
  | nil => exact carries_pure fun _ _ => .none
  | cons stmt rest =>
    obtain ⟨first, more⟩ := Bool.and_eq_true_iff.mp anchored
    have fitsFirst : stmt.bindless = true ∨ there = f here :=
      fits.imp_left fun free => free stmt List.mem_cons_self
    have fitsRest : (∀ other ∈ rest, other.bindless = true) ∨ there = f here :=
      fits.imp_left fun free other member => free other (List.mem_cons_of_mem _ member)
    apply (carried.execute stmt first fitsFirst).andThen
    intro _ returned copy _ same
    cases same with
    | none => exact carried.executeAll rest more fitsRest
    | some values => exact carries_pure fun _ enough => .some (values.mono enough)

end Carried

/-- Whatever the fuel, pieces of programs do the same where there are scopes to spare. -/
theorem carried (handsOn : world.host.HandsOn) (unscoped : world.host.Unscoped) (base : Nat)
    (f : ScopeId → ScopeId) (fuel : Nat) : Carried world base f fuel := by
  induction fuel with
  | zero =>
    exact ⟨fun _ _ => carries_spent, fun _ _ => carries_spent, fun _ _ _ _ _ _ _ _ _ => carries_spent,
      fun _ _ _ => carries_spent, fun _ _ _ => carries_spent⟩
  | succ fuel ih =>
    exact ⟨fun _ => ih.evaluate_succ handsOn unscoped, fun _ => ih.evaluateAll_succ, ih.callFunction_succ,
      fun _ => ih.execute_succ, fun _ => ih.executeAll_succ⟩

/-- Whole programs do the same, started in the same scope. -/
theorem carries_runAll (handsOn : world.host.HandsOn) (unscoped : world.host.Unscoped) (fuel : Nat)
    (scope : ScopeId) {program : Program} (anchored : Stmt.allAnchored base program = true) :
    ∀ (n : Nat) (result other : Option Value), Option.Rel (Value.Carried base f n) result other →
      Carries base f scope (f scope) n (fun m => Option.Rel (Value.Carried base f m))
        (runAll world fuel result program) (runAll world fuel other program) := by
  have all := Machine.carried handsOn unscoped base f fuel
  have later {n m : Nat} {result other : Option Value} (enough : n ≤ m)
      (same : Option.Rel (Value.Carried base f n) result other) :
      Option.Rel (Value.Carried base f m) result other := by
    cases same with
    | none => exact .none
    | some values => exact .some (values.mono enough)
  induction program with
  | nil =>
    intro n result other same
    exact carries_pure fun _ enough => later enough same
  | cons stmt rest ih =>
    obtain ⟨first, more⟩ := Bool.and_eq_true_iff.mp anchored
    intro n result other same
    cases silent : stmt.isExpression with
    | true =>
      cases stmt with
      | expression expr =>
        rw [runAll, runAll]
        apply (all.evaluate expr first).andThen
        intro m value copy _ values
        exact ih more m (some value) (some copy) (.some values)
      | _ => cases silent
    | false =>
      rw [runAll_cons_eq silent, runAll_cons_eq silent]
      apply (all.execute stmt first (.inr rfl)).andThen
      intro m returned copy enough left
      cases left with
      | none => exact ih more m result other (later enough same)
      | some _ => exact carries_pure fun _ further => later (Nat.le_trans enough further) same

end Machine

end Lox
