import Lox.Proofs.Naming
import Lox.Proofs.Turns

set_option autoImplicit false

/- The blocks around the turns of a loop leave empty scopes inside that of the loop. What was declared
in a turn still finds the variable of the loop through them. -/

namespace Lox

def Store.SparesInside (f : ScopeId → ScopeId) (padded : Store) (scope : ScopeId) : Prop :=
  ∀ place < padded.size, (∀ id, f id ≠ place) → padded.enclosing place = some scope

/-- Two states in the same scope. Up to one scope they have the same places, and the scopes that only
the second has lie inside that one. -/
structure State.Alongside (base : Nat) (scope here : ScopeId) (f : ScopeId → ScopeId)
    (state twin : State) : Prop where
  padded : state.Padded base f here here twin
  fixed : ∀ id ≤ scope, f id = id
  inside : scope < state.store.size
  spares : twin.store.SparesInside f scope

namespace Store

variable {base : Nat} {f : ScopeId → ScopeId} {store padded after : Store} {scope : ScopeId}

theorem SparesInside.later (spares : padded.SparesInside f scope)
    (padding : store.Padded base f padded) (evolves : padded.Evolves after) :
    after.SparesInside f scope := by
  intro place known spare
  by_cases old : place < padded.size
  · rw [evolves.enclosing place old]
    exact spares place old spare
  · -- Places beyond the second store are those to which later scopes come.
    have there := padding.next (place - padded.size)
    rw [Nat.add_sub_of_le (Nat.not_lt.mp old)] at there
    exact absurd there (spare _)

theorem SparesInside.extend (spares : padded.SparesInside f scope)
    (padding : store.Padded base f padded) :
    (padded.extend (some scope) []).SparesInside (spared store.size f) scope := by
  intro place known spare
  rw [enclosing_extend]
  split
  · rfl
  · rename_i old
    rw [size_extend] at known
    have inside : place < padded.size := Nat.lt_of_le_of_ne (Nat.le_of_lt_succ known) old
    apply spares place inside
    intro id same
    have older : id < store.size := padding.lt_size_iff.mp (same ▸ inside)
    exact spare id ((spared_of_lt older).trans same)

end Store

namespace State.Alongside

variable {base : Nat} {scope here : ScopeId} {f : ScopeId → ScopeId}
  {state twin after afterTwin : State}

theorem onward (alongside : state.Alongside base scope here f twin)
    (onward : state.Onward base f here here twin after afterTwin) :
    after.Alongside base scope here f afterTwin :=
  ⟨onward.padded, alongside.fixed, Nat.lt_of_lt_of_le alongside.inside onward.grown.size,
    alongside.spares.later alongside.padded.store onward.grownTwin⟩

/-- Both are taken to an older scope. -/
theorem back (alongside : state.Alongside base scope here f twin) {outer : ScopeId}
    (older : outer ≤ scope) : Alongside base scope outer f { state with current := outer }
      { twin with current := outer } := by
  have stands := alongside.padded.store.stands (Nat.lt_of_le_of_lt older alongside.inside)
  rw [alongside.fixed outer older] at stands
  exact ⟨alongside.padded.at stands, alongside.fixed, alongside.inside, alongside.spares⟩

/-- The bindings of the scope and of all older ones. -/
theorem bindings (alongside : state.Alongside base scope here f twin) {id : ScopeId}
    (older : id ≤ scope) :
    twin.store.bindings id = (state.store.bindings id).mapValues (Value.moved f) := by
  have same := alongside.padded.store.bindings id
  rw [alongside.fixed id older] at same
  exact same

/-- What is seen from a scope that only the second state has is what is seen from the one scope. -/
theorem get?_spare (alongside : state.Alongside base scope here f twin) {place : ScopeId}
    (known : place < twin.store.size) (spare : ∀ id, f id ≠ place) (name : String) :
    twin.store.get? place name = twin.store.get? scope name := by
  have empty := alongside.padded.store.empty place spare
  have link := alongside.spares place known spare
  have newer : scope < place := by
    apply Nat.lt_of_not_le
    intro older
    exact spare place (alongside.fixed place older)
  have unbound : ¬ (twin.store.bindings place).has name = true := by
    rw [empty]
    exact Bool.false_ne_true
  unfold Store.get?
  rw [Store.resolve_outer unbound link newer]

end State.Alongside

theorem State.Grounded.alongside {base : Nat} {state : State} (grounded : state.Grounded base) :
    state.Alongside base state.current state.current id state :=
  ⟨grounded.padded, fun _ _ => rfl, grounded.inside, fun place _ spare => absurd rfl (spare place)⟩

/-- A grounded state is so in a new scope. -/
theorem State.Grounded.entered {base : Nat} {state : State} (grounded : state.Grounded base) :
    (state.opened state.current []).Grounded base := by
  have more : state.store.size ≤ (state.opened state.current []).store.size := by
    unfold State.opened
    rw [Store.size_extend]
    exact Nat.le_succ _
  refine ⟨Nat.le_trans grounded.old more, ?_, ?_⟩
  · unfold State.opened
    rw [Store.size_extend]
    exact Nat.lt_succ_self _
  · intro id bound member
    unfold State.opened at member
    rw [Store.bindings_extend] at member
    split at member
    · cases member
    · exact (grounded.within id bound member).mono more

/-- Whether a statement can come before the first turn. -/
def Stmt.starts : Stmt → Bool
  | .declare .. | .expression _ => true
  | _ => false

/-- The names that a statement binds which comes before the first turn. -/
def Stmt.binds : Stmt → List String
  | .declare name _ => [name.lexeme]
  | _ => []

/-- What holds of the parts of every `for` that is read. -/
structure ForLoop.Closed (base : Nat) (loop : ForLoop) : Prop where
  starts : ∀ first ∈ loop.initial, first.starts = true
  initial : ∀ first ∈ loop.initial, first.anchored base = true
  test : loop.test.anchored base = true
  increment : ∀ step ∈ loop.increment, step.anchored base = true
  body : loop.body.Closed base

namespace Parse

open Reader

theorem yields_starts : Yields (fun read => ∀ first ∈ read, first.starts = true) forInitial := by
  have declares : Yields (fun stmt => stmt.starts = true) variableStatement :=
    yields_after fun _ => yields_after fun _ => yields_after fun _ => yields_pure rfl
  have expresses : Yields (fun stmt => stmt.starts = true)
      (ended .noSemicolonAfterExpression .expression) :=
    yields_after fun _ => yields_after fun _ => yields_pure rfl
  unfold forInitial
  refine yields_after ?_
  intro absent
  cases absent with
  | some _ => exact yields_pure (by rintro _ ⟨⟩)
  | none =>
    refine yields_after ?_
    intro keyword
    cases keyword with
    | some _ => exact declares.map (by rintro stmt good _ ⟨⟩; exact good)
    | none => exact expresses.map (by rintro stmt good _ ⟨⟩; exact good)

theorem yields_forTest (base : Nat) : Yields (fun read =>
    (read.getD (.literal (.bool true))).anchored base = true) forTest := by
  unfold forTest
  refine (yields_maybe base .semicolon).andThen ?_
  intro condition good
  refine yields_after fun _ => yields_pure ?_
  cases condition with
  | none => rfl
  | some test => exact good test rfl

/-- The clauses that are read. -/
theorem yields_forClauses (base depth : Nat) : Yields (ForLoop.Closed base) (forClauses depth) := by
  unfold forClauses
  refine yields_after ?_
  intro _
  have initials : Yields (fun read => (∀ first ∈ read, first.starts = true) ∧
      ∀ first ∈ read, first.anchored base = true) forInitial :=
    fun cursor read after same =>
      ⟨yields_starts cursor read after same, yields_forInitial base cursor read after same⟩
  refine initials.andThen ?_
  intro initial starts
  refine (yields_forTest base).andThen ?_
  intro condition test
  refine (yields_forIncrement base).andThen ?_
  intro increment step
  refine (statementsYield base depth).statement.andThen ?_
  intro body bodies
  exact yields_pure ⟨starts.1, starts.2, test, step, bodies⟩

end Parse

namespace World

open Run

/-- A statement that binds nothing where it is run names nothing in the scopes that there were. -/
theorem bindless_naming (world : World) (fuel : Nat) : ∀ stmt : Stmt, stmt.bindless = true →
    Watched.Naming Store.nowhere (Option Value) (Machine.execute world fuel stmt) := by
  induction fuel with
  | zero => exact fun _ _ => Watched.naming_still Run.still_spent
  | succ fuel ih =>
    have evaluate := (evaluate_naming world fuel).1
    intro stmt bindless
    cases stmt with
    | declare | function => cases bindless
    | block body => exact block_naming world (fuel + 1) body
    | expression value => exact (evaluate value).andThen fun _ => Watched.naming_pure none
    | print value =>
      apply (evaluate value).andThen
      intro value
      exact (Watched.naming_still (still_record _ ())).andThen fun _ => Watched.naming_pure none
    | ret keyword value =>
      cases value with
      | none => exact Watched.naming_pure (some Value.nil)
      | some expr => exact (evaluate expr).andThen fun value => Watched.naming_pure (some value)
    | branch condition yes no =>
      apply (evaluate condition).andThen
      intro value
      cases no with
      | none =>
        split
        · exact ih yes bindless
        · exact Watched.naming_pure none
      | some no =>
        obtain ⟨yeses, noes⟩ := Bool.and_eq_true_iff.mp bindless
        split
        · exact ih yes yeses
        · exact ih no noes
    | loop condition body =>
      apply (evaluate condition).andThen
      intro value
      split
      · apply (ih body bindless).andThen
        intro returned
        cases returned with
        | none => exact ih (.loop condition body) bindless
        | some value => exact Watched.naming_pure (some value)
      · exact Watched.naming_pure none

/-- Scopes keep their names while a statement runs that binds none where it is run. -/
theorem names_of_bindless (world : World) {fuel : Nat} {stmt : Stmt} (bindless : stmt.bindless = true)
    {state after : State} (final : (world.execute fuel stmt state).final? = some after) :
    ∀ id < state.store.size,
      (after.store.bindings id).names = (state.store.bindings id).names := by
  have shows := ((Watched.shows_parallel world).upto fuel).execute stmt state
  unfold World.execute at final
  rw [← shows] at final
  have naming := bindless_naming world fuel stmt bindless state
  intro id known
  exact (naming.spares after (History.mem_of_final final)).names id known Store.not_nowhere

variable {world : World} {loop : ForLoop} {base : Nat} {scope here : ScopeId}
  {f : ScopeId → ScopeId} {state twin : State}

def AgreeBeside (base : Nat) (scope here : ScopeId) (first second : Outcome (Option Value)) : Prop :=
  ∃ f : ScopeId → ScopeId, Outcome.Agree (fun value other => other = value.map (Value.moved f))
    (State.Alongside base scope here f) first second

/-- One turn, in the scope around it and in a block of its own. -/
theorem pass_agree (handsOn : world.host.HandsOn) (unscoped : world.host.Unscoped)
    (closed : ForLoop.Closed base loop) (alongside : state.Alongside base scope scope f twin)
    (fuel : Nat) : AgreeBeside base scope scope (world.pass loop fuel state)
      (world.execute fuel loop.turn twin) := by
  unfold pass ForLoop.turn
  cases there : loop.increment with
  | none =>
    have outs := (Machine.carried handsOn unscoped base f fuel).execute loop.body
      closed.body.anchored (.inl closed.body.bindless) state twin (Nat.zero_le _) alongside.padded
    exact ⟨f, outs.agree.imp fun _ _ onward => alongside.onward onward⟩
  | some step =>
    match fuel with
    | 0 => exact ⟨f, .spent⟩
    | fuel + 1 =>
      have anchored : Stmt.allAnchored base [loop.body, .expression step] = true := by
        have last : Stmt.allAnchored base [.expression step] = true :=
          Bool.and_eq_true_iff.mpr ⟨closed.increment step there, rfl⟩
        exact Bool.and_eq_true_iff.mpr ⟨closed.body.anchored, last⟩
      have bindless : ∀ stmt ∈ [loop.body, .expression step], stmt.bindless = true := by
        intro stmt member
        rcases List.mem_pair.mp member with rfl | rfl
        · exact closed.body.bindless
        · rfl
      have opened := alongside.padded.opened
      have outs := (Machine.carried handsOn unscoped base (spared state.store.size f) fuel).executeAll
        [loop.body, .expression step] anchored (.inl bindless) state _ (Nat.zero_le _) opened
      refine ⟨spared state.store.size f, ?_⟩
      have fixed : ∀ id ≤ scope, spared state.store.size f id = id := by
        intro id older
        rw [spared_of_lt (Nat.lt_of_le_of_lt older alongside.inside)]
        exact alongside.fixed id older
      rw [execute_block, alongside.padded.currentTwin]
      change Outcome.Agree _ _
        (Machine.executeAll (M := Run) world fuel [loop.body, .expression step] state) _
      rw [← Outcome.mapState_id (Machine.executeAll (M := Run) world fuel _ state)]
      apply outs.agree.mapState
      intro after afterTwin onward
      have stands := onward.padded.store.stands onward.padded.stands.inside
      rw [fixed scope (Nat.le_refl _)] at stands
      have spares := alongside.spares.extend alongside.padded.store
      exact ⟨onward.padded.moveTwin stands, fixed,
        Nat.lt_of_lt_of_le alongside.inside onward.grown.size,
        spares.later opened.store onward.grownTwin⟩

/-- All turns, in the scope around them and each in a block of its own. -/
theorem rounds_agree (handsOn : world.host.HandsOn) (unscoped : world.host.Unscoped)
    (closed : ForLoop.Closed base loop) (fuel : Nat) :
    ∀ {f : ScopeId → ScopeId} {state twin : State}, state.Alongside base scope scope f twin →
      AgreeBeside base scope scope (world.rounds loop fuel state)
        (world.execute fuel (.loop loop.test loop.turn) twin) := by
  induction fuel with
  | zero => exact fun _ => ⟨id, .spent⟩
  | succ fuel ih =>
    intro f state twin alongside
    have tests := (Machine.carried handsOn unscoped base f fuel).evaluate loop.test closed.test state
      twin (Nat.zero_le _) alongside.padded
    rw [execute_loop, rounds]
    simp only [bind_eq, Run.andThen]
    unfold evaluate
    generalize Machine.evaluate (M := Run) world fuel loop.test state = one,
      Machine.evaluate (M := Run) world fuel loop.test twin = other at tests ⊢
    cases tests with
    | spent => exact ⟨f, .spent⟩
    | fault onward => exact ⟨f, .fault (alongside.onward onward)⟩
    | @done value copy middle middleTwin carried onward =>
      have between := alongside.onward onward
      simp only [carried.moved, Value.truthy_moved]
      cases value.truthy with
      | false => exact ⟨f, .done rfl between⟩
      | true =>
        obtain ⟨g, passed⟩ := pass_agree handsOn unscoped closed between fuel
        simp only [↓reduceIte, unlessReturned, bind_eq, Run.andThen]
        generalize world.pass loop fuel middle = one, world.execute fuel loop.turn middleTwin = other
          at passed ⊢
        cases passed with
        | spent => exact ⟨g, .spent⟩
        | fault after => exact ⟨g, .fault after⟩
        | @done returned _ _ _ same after =>
          cases same
          cases returned with
          | none => exact ih after
          | some value => exact ⟨g, .done rfl after⟩

/-- What a loop comes to whose turns are in blocks of their own, the loop without blocks does. -/
theorem turns_agree (handsOn : world.host.HandsOn) (unscoped : world.host.Unscoped)
    (closed : ForLoop.Closed base loop) (alongside : state.Alongside base scope scope f twin)
    {fuel more : Nat} (enough : fuel ≤ more) :
    world.execute fuel (.loop loop.test loop.turn) twin = .spent ∨
      AgreeBeside base scope scope (world.turns loop more state)
        (world.execute fuel (.loop loop.test loop.turn) twin) := by
  have agree := rounds_agree handsOn unscoped closed fuel alongside
  have prolongs : Prolongs (Option Value) (world.rounds loop fuel) (world.turns loop more) :=
    rounds_prolongs enough
  rcases prolongs state with short | same
  · rw [short] at agree
    obtain ⟨g, agree⟩ := agree
    generalize world.execute fuel (.loop loop.test loop.turn) twin = other at agree ⊢
    cases agree
    exact Or.inl rfl
  · rw [same]
    exact Or.inr agree

/-- What the loop without blocks comes to, the other does. -/
theorem agree_turns (handsOn : world.host.HandsOn) (unscoped : world.host.Unscoped)
    (closed : ForLoop.Closed base loop) (alongside : state.Alongside base scope scope f twin)
    {fuel more : Nat} (enough : fuel + 4 ≤ more) :
    world.turns loop fuel state = .spent ∨
      AgreeBeside base scope scope (world.turns loop fuel state)
        (world.execute more (.loop loop.test loop.turn) twin) := by
  have agree := rounds_agree handsOn unscoped closed more alongside
  have prolongs : Prolongs (Option Value) (world.turns loop fuel) (world.rounds loop more) :=
    turns_prolongs enough
  rcases prolongs state with short | same
  · exact Or.inl short
  · rw [← same]
    exact Or.inr agree

/-- Where a run gives nothing on its way out, another just follows it. -/
theorem unlessReturned_of_gives {run next : Run (Option Value)} (gives : Gives (· = none) run) :
    run.unlessReturned next = run >>= fun _ => next := by
  funext state
  simp only [unlessReturned, bind_eq, Run.andThen]
  cases out : run state with
  | done returned after =>
    have nothing := gives state returned after out
    simp only [nothing]
  | fault | spent => rfl

theorem execute_starts {first : Stmt} (starts : first.starts = true) (fuel : Nat) :
    Gives (· = none) (world.execute fuel first) := by
  have straight : first.straight = true := by
    cases first with
    | declare | expression => rfl
    | _ => cases starts
  exact (Machine.straight world fuel).1 first straight

/-- The statement with what comes before the first turn. -/
theorem execute_from {first : Stmt} (starts : first.starts = true) (rounds : Stmt) (fuel : Nat)
    (state : State) : world.execute (fuel + 3) (.block [first, rounds]) state =
      ((world.execute (fuel + 1) first >>= fun _ => world.execute fuel rounds)
        (state.opened state.current [])).mapState
          fun after => { after with current := state.current } := by
  rw [execute_block, executeAll_cons, Machine.executeAll_single,
    unlessReturned_of_gives (execute_starts starts _)]
  rfl

theorem forLoop_of_some {first : Stmt} (there : loop.initial = some first) (fuel : Nat)
    (state : State) : world.forLoop fuel loop state =
      ((world.execute fuel first >>= fun _ => world.turns loop fuel)
        (state.opened state.current [])).mapState
          fun after => { after with current := state.current } := by
  unfold forLoop
  rw [there]
  exact within_eq state.store.size (world.execute fuel first >>= fun _ => world.turns loop fuel)
    { state with store := state.store.extend (some state.current) [] }

theorem forLoop_of_none (absent : loop.initial = none) (fuel : Nat) :
    world.forLoop fuel loop = world.turns loop fuel := by
  unfold forLoop
  rw [absent]

/-- What comes before the first turn is the same on both sides. -/
theorem alongside_first (handsOn : world.host.HandsOn) (unscoped : world.host.Unscoped)
    (grounded : state.Grounded base) {first : Stmt} (anchored : first.anchored base = true)
    (fuel : Nat) (after : State) (final : (world.execute fuel first state).final? = some after) :
    after.Alongside base state.current state.current id after := by
  have outs := (Machine.carried handsOn unscoped base id fuel).execute first anchored (.inr rfl) state
    state (Nat.zero_le _) grounded.alongside.padded
  unfold execute at final
  generalize Machine.execute (M := Run) world fuel first state = out at outs final
  cases outs with
  | done _ onward | fault onward =>
    cases final
    exact grounded.alongside.onward onward
  | spent => cases final

theorem AgreeBeside.back {first second : Outcome (Option Value)}
    (agree : AgreeBeside base scope scope first second) (older : here ≤ scope) :
    AgreeBeside base scope here (first.mapState fun after => { after with current := here })
      (second.mapState fun after => { after with current := here }) := by
  obtain ⟨f, agree⟩ := agree
  exact ⟨f, agree.mapState _ _ fun _ _ alongside => alongside.back older⟩

end World

/-- The scope in which the turns are taken of a `for` that is run from a state. -/
def ForLoop.scope (loop : ForLoop) (state : State) : ScopeId :=
  match loop.initial with
  | none => state.current
  | some _ => state.store.size

namespace World

open Run

variable {world : World} {loop : ForLoop} {base : Nat} {state : State}

/-- What the `for` comes to, the statement that it stands for does. -/
theorem forLoop_agrees (handsOn : world.host.HandsOn) (unscoped : world.host.Unscoped)
    (closed : ForLoop.Closed base loop) (grounded : state.Grounded base) (fuel : Nat) :
    world.forLoop fuel loop state = .spent ∨
      AgreeBeside base (loop.scope state) state.current (world.forLoop fuel loop state)
        (world.execute (fuel + 7) loop.statement state) := by
  unfold ForLoop.scope
  cases there : loop.initial with
  | none =>
    rw [forLoop_of_none there, ForLoop.statement_of_none there]
    exact agree_turns handsOn unscoped closed grounded.alongside (by omega)
  | some first =>
    rw [forLoop_of_some there, ForLoop.statement_of_some there,
      execute_from (closed.starts first there) _ (fuel + 4)]
    have known := alongside_first handsOn unscoped grounded.entered (closed.initial first there) fuel
    have older : state.current ≤ state.store.size := Nat.le_of_lt grounded.inside
    simp only [bind_eq, Run.andThen]
    rcases world.execute_prolongs (show fuel ≤ fuel + 4 + 1 by omega) first
      (state.opened state.current []) with short | same
    · rw [short]
      exact Or.inl rfl
    · rw [same]
      cases out : world.execute fuel first (state.opened state.current []) with
      | spent => exact Or.inl rfl
      | fault reason middle =>
        have alongside := known middle (Outcome.final?_of_fault out)
        exact Or.inr (AgreeBeside.back ⟨id, .fault alongside⟩ older)
      | done returned middle =>
        have alongside := known middle (Outcome.final?_of_done out)
        rcases agree_turns handsOn unscoped closed alongside (Nat.le_refl (fuel + 4)) with
          short | agree
        · exact Or.inl (by simp only [short]; rfl)
        · exact Or.inr (agree.back older)

/-- What the statement that a `for` stands for comes to, the `for` does. -/
theorem agrees_forLoop (handsOn : world.host.HandsOn) (unscoped : world.host.Unscoped)
    (closed : ForLoop.Closed base loop) (grounded : state.Grounded base) (fuel : Nat) :
    world.execute fuel loop.statement state = .spent ∨
      AgreeBeside base (loop.scope state) state.current (world.forLoop fuel loop state)
        (world.execute fuel loop.statement state) := by
  unfold ForLoop.scope
  cases there : loop.initial with
  | none =>
    rw [forLoop_of_none there, ForLoop.statement_of_none there]
    exact turns_agree handsOn unscoped closed grounded.alongside (Nat.le_refl fuel)
  | some first =>
    rw [forLoop_of_some there, ForLoop.statement_of_some there]
    match fuel with
    | 0 | 1 | 2 => exact Or.inl rfl
    | fuel + 3 =>
      rw [execute_from (closed.starts first there)]
      have known := alongside_first handsOn unscoped grounded.entered (closed.initial first there)
        (fuel + 1)
      have older : state.current ≤ state.store.size := Nat.le_of_lt grounded.inside
      simp only [bind_eq, Run.andThen]
      rcases world.execute_prolongs (show fuel + 1 ≤ fuel + 3 by omega) first
        (state.opened state.current []) with short | same
      · rw [short]
        exact Or.inl rfl
      · rw [same]
        cases out : world.execute (fuel + 1) first (state.opened state.current []) with
        | spent => exact Or.inl rfl
        | fault reason middle =>
          have alongside := known middle (Outcome.final?_of_fault out)
          exact Or.inr (AgreeBeside.back ⟨id, .fault alongside⟩ older)
        | done returned middle =>
          have alongside := known middle (Outcome.final?_of_done out)
          rcases turns_agree handsOn unscoped closed alongside (show fuel ≤ fuel + 3 by omega) with
            short | agree
          · exact Or.inl (by simp only [short]; rfl)
          · exact Or.inr (agree.back older)

theorem names_of_evaluate (world : World) {fuel : Nat} {expr : Expr} {state after : State}
    (final : (world.evaluate fuel expr state).final? = some after) :
    after.current = state.current ∧ state.store.Spares (Store.nowhere state.current) after.store := by
  have shows := ((Watched.shows_parallel world).upto fuel).evaluate expr state
  unfold World.evaluate at final
  rw [← shows] at final
  have naming := (evaluate_naming world fuel).1 expr state
  exact ⟨naming.current after final, naming.spares after (History.mem_of_final final)⟩

/-- In an empty scope, what comes before the first turn binds the variable of the loop alone. -/
theorem names_of_starts {first : Stmt} (starts : first.starts = true) {fuel : Nat}
    {returned : Option Value} {after : State} (inside : state.current < state.store.size)
    (empty : state.store.bindings state.current = [])
    (done : world.execute fuel first state = .done returned after) :
    (after.store.bindings state.current).names = first.binds := by
  match fuel, first with
  | 0, _ => cases done
  | fuel + 1, .expression expr =>
    have bindless : (Stmt.expression expr).bindless = true := rfl
    have kept := names_of_bindless world bindless (Outcome.final?_of_done done) state.current inside
    rw [kept, empty]
    rfl
  | fuel + 1, .declare name expr =>
    obtain ⟨value, middle, evaluated, defined⟩ := andThen_eq_done done
    obtain ⟨current, spares⟩ := names_of_evaluate world (Outcome.final?_of_done evaluated)
    have known : state.current < middle.store.size := Nat.lt_of_lt_of_le inside spares.size
    have names := spares.names state.current inside Store.not_nowhere
    rw [empty] at names
    have nothing : middle.store.bindings state.current = [] := List.map_eq_nil_iff.mp names
    cases defined
    rw [current, Store.bindings_define_self known, nothing]
    rfl

theorem turn_bindless (closed : ForLoop.Closed base loop) : loop.turn.bindless = true := by
  unfold ForLoop.turn
  cases loop.increment with
  | none => exact closed.body.bindless
  | some step => rfl

/-- After the last turn, the scope in which the turns were taken binds the variable of the loop
alone. -/
theorem names_scope (handsOn : world.host.HandsOn) (unscoped : world.host.Unscoped)
    (closed : ForLoop.Closed base loop) (grounded : state.Grounded base) {first : Stmt}
    (there : loop.initial = some first) {fuel : Nat} {returned : Option Value} {after : State}
    (done : world.execute fuel loop.statement state = .done returned after) :
    (after.store.bindings state.store.size).names = first.binds := by
  rw [ForLoop.statement_of_some there] at done
  match fuel with
  | 0 | 1 | 2 => cases done
  | fuel + 3 =>
    have starts := closed.starts first there
    rw [execute_from starts] at done
    obtain ⟨last, inner, rfl⟩ := Outcome.mapState_eq_done done
    obtain ⟨_, middle, began, ended⟩ := andThen_eq_done inner
    have opened := grounded.entered
    have alongside := alongside_first handsOn unscoped opened (closed.initial first there) _ middle
      (Outcome.final?_of_done began)
    have empty : (state.opened state.current []).store.bindings state.store.size = [] :=
      Store.bindings_extend_new ..
    have names := names_of_starts starts opened.inside empty began
    have rounds : (Stmt.loop loop.test loop.turn).bindless = true := turn_bindless closed
    have kept := names_of_bindless world rounds (Outcome.final?_of_done ended) state.store.size
      alongside.inside
    exact kept.trans names

/-- A statement that binds nothing where it is run leaves bound there what was bound. -/
theorem contains_of_bindless (handsOn : world.host.HandsOn) (unscoped : world.host.Unscoped)
    (grounded : state.Grounded base) {stmt : Stmt} (closed : stmt.Closed base) {fuel : Nat}
    {after : State} (final : (world.execute fuel stmt state).final? = some after) (name : String) :
    after.store.contains after.current name = state.store.contains state.current name := by
  have evolves : state.store.Evolves after.store ∧ after.current = state.current := by
    have outs := (Machine.carried handsOn unscoped base id fuel).execute stmt closed.anchored (.inr rfl)
      state state (Nat.zero_le _) grounded.alongside.padded
    unfold execute at final
    generalize Machine.execute (M := Run) world fuel stmt state = out at outs final
    cases outs with
    | done _ onward | fault onward =>
      cases final
      exact ⟨onward.grown, onward.padded.current⟩
    | spent => cases final
  have names := names_of_bindless world closed.bindless final
  have same : after.store.resolve state.current name = state.store.resolve state.current name := by
    apply Store.resolve_congr (evolves.1.chain grounded.inside)
    intro id member
    have known : id < state.store.size :=
      Nat.lt_of_le_of_lt (Store.le_of_mem_chain id member) grounded.inside
    apply Bool.eq_iff_iff.mpr
    rw [Bindings.has_iff, Bindings.has_iff, names id known]
  unfold Store.contains
  rw [evolves.2, same]

/-- A `for` means what it says. The statement that is made of its clauses comes to what the loop
does that they describe, whichever of them are absent: all turns are taken in one scope, and the
scopes of the blocks lie empty inside that one, where everything is seen as from the one scope. What
was bound before is bound afterwards, and nothing else. -/
theorem for_means (world : World) (handsOn : world.host.HandsOn) (unscoped : world.host.Unscoped)
    {depth : Nat} {cursor rest : Cursor} {stmt : Stmt}
    (read : Reader.forWithin (M := Parse) (depth + 1) cursor = .ok stmt rest) (state : State)
    (grounded : state.Grounded base) :
    ∃ loop, Parse.forClauses depth cursor = .ok loop rest ∧ stmt = loop.statement ∧
      let scope := loop.scope state
      let here := state.current
      (∀ fuel, world.forLoop fuel loop state = .spent ∨ AgreeBeside base scope here
        (world.forLoop fuel loop state) (world.execute (fuel + 7) stmt state)) ∧
      (∀ fuel, world.execute fuel stmt state = .spent ∨ AgreeBeside base scope here
        (world.forLoop fuel loop state) (world.execute fuel stmt state)) ∧
      (∀ (f : ScopeId → ScopeId) (after twin : State), after.Alongside base scope here f twin →
        twin.output = after.output ∧ twin.diagnostics = after.diagnostics ∧
        twin.calls = after.calls ∧ after.current = here ∧ twin.current = here ∧
        (∀ id ≤ scope, f id = id ∧
          twin.store.bindings id = (after.store.bindings id).mapValues (Value.moved f)) ∧
        (∀ id < after.store.size, Woven f (after.store.chain id) (twin.store.chain (f id))) ∧
        ∀ place < twin.store.size, (∀ id, f id ≠ place) →
          twin.store.bindings place = [] ∧ twin.store.enclosing place = some scope ∧
          ∀ name, twin.store.get? place name = twin.store.get? scope name) ∧
      (∀ first, loop.initial = some first → ∀ fuel returned after,
        world.execute fuel stmt state = .done returned after →
          (after.store.bindings scope).names = first.binds) ∧
      ∀ fuel after, (world.execute fuel stmt state).final? = some after →
        (∀ id < state.store.size,
          (after.store.bindings id).names = (state.store.bindings id).names) ∧
        ∀ name, after.store.contains after.current name = state.store.contains here name := by
  obtain ⟨loop, clauses, rfl⟩ := Parse.forClauses_of_forWithin read
  have closed := Parse.yields_forClauses base depth cursor loop rest clauses
  have whole := (Parse.statementsYield base (depth + 1)).forLoop cursor _ rest read
  refine ⟨loop, clauses, rfl, forLoop_agrees handsOn unscoped closed grounded,
    agrees_forLoop handsOn unscoped closed grounded, ?_, ?_, ?_⟩
  · intro f after twin alongside
    have padded := alongside.padded
    refine ⟨padded.output, padded.diagnostics, padded.calls, padded.current, padded.currentTwin, ?_,
      padded.store.chains, ?_⟩
    · intro id older
      exact ⟨alongside.fixed id older, alongside.bindings older⟩
    · intro place known spare
      exact ⟨padded.store.empty place spare, alongside.spares place known spare,
        alongside.get?_spare known spare⟩
  · intro first there fuel returned after done
    unfold ForLoop.scope
    rw [there]
    exact names_scope handsOn unscoped closed grounded there done
  · intro fuel after final
    exact ⟨names_of_bindless world whole.bindless final,
      contains_of_bindless handsOn unscoped grounded whole final⟩

/-- The tokens of `(var go = true; go; go = false) { fun h() { return go; } g = h; }`. -/
def once : List Token :=
  let sign (kind : Kind) (lexeme : String) : Token := .plain kind lexeme 1
  let word (lexeme : String) : Token := .plain .identifier lexeme 1
  [sign .leftParen "(", sign .kwVar "var", word "go", sign .equal "=", sign .kwTrue "true",
    sign .semicolon ";", word "go", sign .semicolon ";", word "go", sign .equal "=",
    sign .kwFalse "false", sign .rightParen ")", sign .leftBrace "\x7b", sign .kwFun "fun", word "h",
    sign .leftParen "(", sign .rightParen ")", sign .leftBrace "\x7b", sign .kwReturn "return",
    word "go", sign .semicolon ";", sign .rightBrace "\x7d", word "g", sign .equal "=", word "h",
    sign .semicolon ";", sign .rightBrace "\x7d"]

def onceLoop : ForLoop :=
  let word (lexeme : String) : Token := .plain .identifier lexeme 1
  ⟨some (.declare (word "go") (.literal (.bool true))), some (.var (word "go")),
    some (.assign (word "go") (.literal (.bool false))),
    .block [.function (word "h") [] [.ret (.plain .kwReturn "return" 1) (some (.var (word "go")))],
      .expression (.assign (word "g") (.var (word "h")))]⟩

def onceKept (place : ScopeId) : Value :=
  let word (lexeme : String) : Token := .plain .identifier lexeme 1
  .function (word "h") [] [.ret (.plain .kwReturn "return" 1) (some (.var (word "go")))] place

def onceAfter : State :=
  ⟨⟨#[⟨none, [("x", .text "seen"), ("g", onceKept 2)]⟩, ⟨some 0, [("go", .bool false)]⟩,
    ⟨some 1, [("h", onceKept 2)]⟩]⟩, State.globals, 0, #[], 0⟩

/-- A function that is declared in a turn sees the variable of the loop as it is in the end, and the
scope around its turn is empty. -/
theorem for_means_once :
    bare.host.HandsOn ∧ bare.host.Unscoped ∧ keepingState.Grounded 0 ∧
    ∃ stmt rest twin,
      Reader.forWithin (M := Parse) 50 (.start once (.plain .endOfInput "" 2)) = .ok stmt rest ∧
      Parse.forClauses 49 (.start once (.plain .endOfInput "" 2)) = .ok onceLoop rest ∧
      bare.forLoop 20 onceLoop keepingState = .done none onceAfter ∧
      bare.execute 27 stmt keepingState = .done none twin ∧
      twin.store.bindings 1 = [("go", .bool false)] ∧
      twin.store.contains twin.current "go" = false := by
  have clauses : Parse.forClauses 49 (.start once (.plain .endOfInput "" 2)) =
      .ok onceLoop ⟨once.reverse, [], .plain .endOfInput "" 2, 0, #[]⟩ := by
    cbv
  have read : Reader.forWithin (M := Parse) 50 (.start once (.plain .endOfInput "" 2)) =
      .ok onceLoop.statement ⟨once.reverse, [], .plain .endOfInput "" 2, 0, #[]⟩ := by
    cbv
  have ran : bare.forLoop 20 onceLoop keepingState = .done none onceAfter := by cbv
  obtain ⟨loop, again, _, agree, _, same, _, visible⟩ := for_means bare bare_handsOn bare_unscoped read
    keepingState keepingState_grounded
  cases clauses.symm.trans again
  have ended := agree 20
  rw [ran] at ended
  rcases ended with short | ⟨f, ended⟩
  · cases short
  · generalize out : bare.execute 27 onceLoop.statement keepingState = other at ended
    cases ended with
    | @done _ _ _ twin given alongside =>
      cases given
      obtain ⟨_, _, _, _, _, bindings, _⟩ := same f onceAfter twin alongside
      have final := visible 27 twin (Outcome.final?_of_done out)
      have unseen : keepingState.store.contains keepingState.current "go" = false := by cbv
      exact ⟨bare_handsOn, bare_unscoped, keepingState_grounded, _, _, twin, read, clauses, ran, out,
        (bindings 1 (Nat.le_refl 1)).2, (final.2 "go").trans unseen⟩

end World

end Lox
