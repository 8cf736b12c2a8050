import Lox.Proofs.Sharing

set_option autoImplicit false

namespace Lox

/-- The scopes that can be reached from others, by links and by the functions that are bound. -/
inductive Store.Reach (store : Store) (roots : ScopeId → Prop) : ScopeId → Prop
  | root {id : ScopeId} (start : roots id) : Reach store roots id
  | outward {id outer : ScopeId} (inside : Reach store roots id)
      (link : store.enclosing id = some outer) : Reach store roots outer
  | function {id closure : ScopeId} {name : String} {value : Value}
      (inside : Reach store roots id) (found : (store.bindings id).get? name = some value)
      (declared : value.closure? = some closure) : Reach store roots closure

/-- The scopes that a function and its arguments bring with them. -/
def broughtBy (closure : ScopeId) (arguments : List Value) (id : ScopeId) : Prop :=
  id = closure ∨ ∃ argument ∈ arguments, argument.closure? = some id

/-- What a native answers does not depend on when it is asked. -/
def Host.Pure (host : Host) : Prop :=
  ∀ count, host.answerAfter count = host.answer

def Store.AgreeOn (first second : Store) (id : ScopeId) : Prop :=
  second.enclosing id = first.enclosing id ∧
    ∀ name, (second.bindings id).get? name = (first.bindings id).get? name

def Value.Plain (value : Value) : Prop :=
  ∀ name params body closure, value.core = .function name params body closure →
    Stmt.allPlain body = true

/-- Stores that agree on all that is reached in one reach as far. -/
theorem Store.Reach.of_agree {first second : Store} {roots : ScopeId → Prop}
    (agree : ∀ id, first.Reach roots id → first.AgreeOn second id) {id : ScopeId}
    (reached : first.Reach roots id) : second.Reach roots id := by
  induction reached with
  | root start => exact .root start
  | outward inside link ih => exact .outward ih ((agree _ inside).1.trans link)
  | function inside found declared ih =>
    exact .function ih (((agree _ inside).2 _).trans found) declared

inductive Outcome.Alike {α : Type} (related : State → State → Prop) (good : α → Prop) :
    Outcome α → Outcome α → Prop
  | done {value : α} {one other : State} (known : good value) (states : related one other) :
      Alike related good (.done value one) (.done value other)
  | fault {reason : Fault} {one other : State} (states : related one other) :
      Alike related good (.fault reason one) (.fault reason other)
  | spent : Alike related good .spent .spent

theorem Outcome.Alike.imp {α : Type} {related wider : State → State → Prop} {good fine : α → Prop}
    {left right : Outcome α} (alike : left.Alike related good right)
    (states : ∀ one other, related one other → wider one other)
    (values : ∀ value, good value → fine value) : left.Alike wider fine right := by
  cases alike with
  | done known ends => exact .done (values _ known) (states _ _ ends)
  | fault ends => exact .fault (states _ _ ends)
  | spent => exact .spent

def Store.Untouched (part : ScopeId → Prop) (before after : Store) : Prop :=
  ∀ id, ¬ part id →
    after.enclosing id = before.enclosing id ∧ after.bindings id = before.bindings id

theorem Store.Untouched.define {part : ScopeId → Prop} {before after : Store} {scope : ScopeId}
    (untouched : before.Untouched part after) (inside : part scope) (name : String)
    (value : Value) : before.Untouched part (after.define scope name value) := by
  intro id outside
  have other : id ≠ scope := by
    rintro rfl
    exact outside inside
  rw [enclosing_define, bindings_define_of_ne other]
  exact untouched id outside

theorem Store.Untouched.extend {part : ScopeId → Prop} {before after : Store}
    (untouched : before.Untouched part after) (inside : part after.size) (outer : Option ScopeId)
    (bindings : Bindings) : before.Untouched part (after.extend outer bindings) := by
  intro id outside
  have other : id ≠ after.size := by
    rintro rfl
    exact outside inside
  rw [enclosing_extend, bindings_extend, if_neg other, if_neg other]
  exact untouched id outside

/-- Two runs, set out from two states, go side by side: they share a part of their stores, have had
the same happen to them, and have touched nothing outside that part. Each is in its own scope. -/
structure Beside (part : ScopeId → Prop) (first second : State) (here there : ScopeId)
    (one other : State) : Prop where
  shared : one.store.Shared part other.store
  grown : first.store.size ≤ one.store.size
  here : one.current = here
  there : other.current = there
  calls : other.calls = one.calls
  trace : ∃ events, one.trace.toList = first.trace.toList ++ events ∧
    other.trace.toList = second.trace.toList ++ events
  untouched : first.store.Untouched part one.store
  otherUntouched : second.store.Untouched part other.store

section

variable {part : ScopeId → Prop} {first second one other : State} {here there : ScopeId}

namespace Beside

theorem add (beside : Beside part first second here there one other) (event : Event) :
    Beside part first second here there (one.add event) (other.add event) := by
  obtain ⟨events, left, right⟩ := beside.trace
  have trace : ∃ events, (one.add event).trace.toList = first.trace.toList ++ events ∧
      (other.add event).trace.toList = second.trace.toList ++ events := by
    refine ⟨events ++ [event], ?_, ?_⟩
    · rw [State.add_trace, left, List.append_assoc]
    · rw [State.add_trace, right, List.append_assoc]
  exact { beside with trace }

theorem define (beside : Beside part first second here there one other) {scope : ScopeId}
    (inside : part scope) (name : String) {value : Value} (tame : value.Tame part) :
    Beside part first second here there
      { one with store := one.store.define scope name value }
      { other with store := other.store.define scope name value } := by
  have grown : first.store.size ≤ (one.store.define scope name value).size := by
    rw [Store.size_define]
    exact beside.grown
  exact { beside with
    grown
    shared := beside.shared.define scope name tame
    untouched := beside.untouched.define inside name value
    otherUntouched := beside.otherUntouched.define inside name value }

theorem extend (beside : Beside part first second here there one other) {outer : ScopeId}
    (inside : part outer) (fresh : part one.store.size) {bindings : Bindings}
    (tame : ∀ name value, bindings.get? name = some value → value.Tame part) :
    Beside part first second here there
      { one with store := one.store.extend (some outer) bindings }
      { other with store := other.store.extend (some outer) bindings } := by
  have grown : first.store.size ≤ (one.store.extend (some outer) bindings).size := by
    rw [Store.size_extend]
    exact Nat.le_succ_of_le beside.grown
  have otherFresh : part other.store.size := by
    rw [beside.shared.size]
    exact fresh
  exact { beside with
    grown
    shared := beside.shared.extend inside tame
    untouched := beside.untouched.extend fresh _ _
    otherUntouched := beside.otherUntouched.extend otherFresh _ _ }

/-- Each goes to a scope of its own. -/
theorem goTo (beside : Beside part first second here there one other) (left right : ScopeId) :
    Beside part first second left right { one with current := left }
      { other with current := right } :=
  { beside with here := rfl, there := rfl }

theorem ask (beside : Beside part first second here there one other) :
    Beside part first second here there { one with asked := one.asked + 1 }
      { other with asked := other.asked + 1 } :=
  { beside with }

theorem count (beside : Beside part first second here there one other) (calls : Nat) :
    Beside part first second here there { one with calls } { other with calls } :=
  { beside with calls := rfl }

end Beside

namespace Run

def Alike (part : ScopeId → Prop) (first second : State) (here there : ScopeId) {α : Type}
    (good : α → Prop) (run otherRun : Run α) : Prop :=
  ∀ one other, Beside part first second here there one other →
    (run one).Alike (Beside part first second here there) good (otherRun other)

variable {α β : Type} {run otherRun : Run α}

theorem Alike.imp {good fine : α → Prop}
    (runs : Alike part first second here there good run otherRun)
    (values : ∀ value, good value → fine value) :
    Alike part first second here there fine run otherRun :=
  fun one other beside => (runs one other beside).imp (fun _ _ states => states) values

theorem alike_give {good : α → Prop} {value : α} (known : good value) :
    Alike part first second here there good (fun state => .done value state)
      (fun state => .done value state) :=
  fun _ _ beside => .done known beside

theorem alike_record {good : α → Prop} {value : α} (event : Event) (known : good value) :
    Alike part first second here there good (fun state => .done value (state.add event))
      (fun state => .done value (state.add event)) :=
  fun _ _ beside => .done known (beside.add event)

theorem alike_fail {good : α → Prop} (token : Token) (cause : Cause) :
    Alike part first second here there good (Run.fail token cause) (Run.fail token cause) :=
  fun _ _ beside => .fault beside

theorem alike_spent {good : α → Prop} :
    Alike part first second here there good Run.spent Run.spent :=
  fun _ _ _ => .spent

/-- Natives that answer alike at all times may have been asked more often on one side. -/
theorem alike_ask {good : Value → Prop} {host : Host} (pure : host.Pure) {native : Native}
    {arguments : List Value} (known : good (host.answer native arguments)) :
    Alike part first second here there good (Run.ask host native arguments)
      (Run.ask host native arguments) := by
  intro one other beside
  unfold Run.ask
  rw [pure, pure]
  exact .done known beside.ask

theorem alike_here (inside : part here) :
    Alike part first second here here part Run.here Run.here := by
  intro one other beside
  unfold Run.here
  rw [beside.here, beside.there]
  exact .done inside beside

theorem alike_lookUp (inside : part here) (name : Token) :
    Alike part first second here here (Value.Tame part) (Run.lookUp name) (Run.lookUp name) := by
  intro one other beside
  unfold Run.lookUp
  rw [beside.here, beside.there, beside.shared.lookUp inside]
  cases found : one.store.get? here name.lexeme with
  | none => exact .fault beside
  | some value => exact .done (beside.shared.tame_of_lookUp inside found) beside

theorem alike_assign (inside : part here) (name : Token) {value : Value}
    (tame : value.Tame part) :
    Alike part first second here here (fun _ => True) (Run.assign name value)
      (Run.assign name value) := by
  intro one other beside
  have left : one.store.resolve one.current name.lexeme = one.store.resolve here name.lexeme := by
    rw [beside.here]
  have right : other.store.resolve other.current name.lexeme =
      one.store.resolve here name.lexeme := by
    rw [beside.there, beside.shared.resolve inside]
  unfold Run.assign
  rw [left, right]
  cases found : one.store.resolve here name.lexeme with
  | none => exact .fault beside
  | some scope =>
    have reached := beside.shared.inside_of_resolve inside found
    exact .done trivial (beside.define reached name.lexeme tame)

theorem alike_define (inside : part here) (name : Token) {value : Value}
    (tame : value.Tame part) :
    Alike part first second here here (fun _ => True) (Run.define name value)
      (Run.define name value) := by
  intro one other beside
  have left : one.store.define one.current name.lexeme value =
      one.store.define here name.lexeme value := by rw [beside.here]
  have right : other.store.define other.current name.lexeme value =
      other.store.define here name.lexeme value := by rw [beside.there]
  unfold Run.define
  rw [left, right]
  exact .done trivial (beside.define inside name.lexeme tame)

theorem alike_noteEntry (name : Token) (params : List Token) {scope : ScopeId}
    (inside : part scope) :
    Alike part first second here there (fun _ => True) (Run.noteEntry name params scope)
      (Run.noteEntry name params scope) := by
  intro one other beside
  unfold Run.noteEntry
  rw [beside.shared.depth inside]
  exact .done trivial (beside.add _)

theorem alike_extend (fresh : ∀ id, first.store.size ≤ id → part id) {outer : ScopeId}
    (inside : part outer) {bindings : Bindings}
    (tame : ∀ name value, bindings.get? name = some value → value.Tame part) :
    Alike part first second here there part (Run.extend outer bindings)
      (Run.extend outer bindings) := by
  intro one other beside
  have new := fresh one.store.size beside.grown
  unfold Run.extend
  rw [beside.shared.size]
  exact .done new (beside.extend inside new tame)

theorem Alike.andThen {mid : α → Prop} {good : β → Prop} {next otherNext : α → Run β}
    (runs : Alike part first second here there mid run otherRun)
    (rest : ∀ value, mid value →
      Alike part first second here there good (next value) (otherNext value)) :
    Alike part first second here there good (run.andThen next) (otherRun.andThen otherNext) := by
  intro one other beside
  have alike := runs one other beside
  unfold Run.andThen
  generalize run one = left at alike ⊢
  generalize otherRun other = right at alike ⊢
  cases alike with
  | done known states => exact rest _ known _ _ states
  | fault states => exact .fault states
  | spent => exact .spent

/-- In a scope that both go to it does not matter where they come from. -/
theorem Alike.within {good : α → Prop} {scope : ScopeId}
    (runs : Alike part first second scope scope good run otherRun) :
    Alike part first second here there good (run.within scope) (otherRun.within scope) := by
  intro one other beside
  have alike := runs _ _ (beside.goTo scope scope)
  rw [within_eq, within_eq, beside.here, beside.there]
  generalize run { one with current := scope } = left at alike ⊢
  generalize otherRun { other with current := scope } = right at alike ⊢
  cases alike with
  | done known states => exact .done known (states.goTo here there)
  | fault states => exact .fault (states.goTo here there)
  | spent => exact .spent

theorem Alike.opened {good : α → Prop} (fresh : ∀ id, first.store.size ≤ id → part id)
    {outer : ScopeId} (declared : part outer) {bindings : Bindings}
    (tame : ∀ name value, bindings.get? name = some value → value.Tame part)
    {entry : ScopeId → Run Unit} {fine : Unit → Prop}
    (enters : ∀ scope, part scope →
      Alike part first second here there fine (entry scope) (entry scope))
    (bodies : ∀ scope, part scope → Alike part first second scope scope good run otherRun) :
    Alike part first second here there good (Machine.opened outer bindings entry run)
      (Machine.opened outer bindings entry otherRun) := by
  rw [opened_eq, opened_eq]
  apply (alike_extend fresh declared tame).andThen
  intro scope reached
  apply (enters scope reached).andThen
  intro _ _
  exact (bodies scope reached).within

theorem Alike.asCall {good : α → Prop} (config : Config) (paren : Token)
    (runs : Alike part first second here there good run otherRun) :
    Alike part first second here there good (run.asCall config paren)
      (otherRun.asCall config paren) := by
  intro one other beside
  by_cases deep : config.maxDepth ≤ one.calls
  · have otherDeep : config.maxDepth ≤ other.calls := beside.calls ▸ deep
    rw [asCall_refused paren run deep, asCall_refused paren otherRun otherDeep]
    exact .fault beside
  · have otherShallow : ¬ config.maxDepth ≤ other.calls := beside.calls ▸ deep
    have alike := runs _ _ (beside.count (one.calls + 1))
    rw [asCall_begun paren run deep, asCall_begun paren otherRun otherShallow, beside.calls]
    generalize run { one with calls := one.calls + 1 } = left at alike ⊢
    generalize otherRun { other with calls := one.calls + 1 } = right at alike ⊢
    cases alike with
    | done known states =>
      simp only [Outcome.mapState, states.calls]
      exact .done known (states.count _)
    | fault states =>
      simp only [Outcome.mapState, states.calls]
      exact .fault (states.count _)
    | spent => exact .spent

theorem Alike.settled {good : Value → Prop} {run otherRun : Run Value} (policy : Policy)
    (nil : good .nil) (runs : Alike part first second here there good run otherRun) :
    Alike part first second here there good (run.settled policy) (otherRun.settled policy) := by
  intro one other beside
  have alike := runs one other beside
  unfold Run.settled Run.recover
  generalize run one = left at alike ⊢
  generalize otherRun other = right at alike ⊢
  cases alike with
  | done known states => exact .done known states
  | fault states =>
    cases policy with
    | resume => exact .done nil (states.add _)
    | abort => exact .fault states
  | spent => exact .spent

end Run

end

namespace World

/-- Where both runs are in the same scope, and in the part that they share, plain pieces of
programs go on side by side. -/
theorem alike_discipline (world : World) (handsOn : world.host.HandsOn) (pure : world.host.Pure)
    {part : ScopeId → Prop}
    {first : State} (second : State) (fresh : ∀ id, first.store.size ≤ id → part id) :
    Discipline world world (fun _ => part)
      fun _ least post (run otherRun : Run _) => ∀ here, part here →
        Run.Alike part first second here here (fun value => ∃ known, least ≤ known ∧
          post known value) run otherRun where
  grows _ declared := declared
  pure good _ _ := Run.alike_give ⟨_, Nat.le_refl _, good⟩
  give good _ _ := Run.alike_give ⟨_, Nat.le_refl _, good⟩
  record event good _ _ := Run.alike_record event ⟨_, Nat.le_refl _, good⟩
  spent _ _ := Run.alike_spent
  fail token cause _ _ := Run.alike_fail token cause
  here here inside := (Run.alike_here inside).imp fun _ reached => ⟨_, Nat.le_refl _, reached⟩
  lookUp name _ inside :=
    (Run.alike_lookUp inside name).imp fun _ tame => ⟨_, Nat.le_refl _, tame⟩
  assign name tame _ inside :=
    (Run.alike_assign inside name tame).imp fun _ _ => ⟨_, Nat.le_refl _, trivial⟩
  define name tame _ inside :=
    (Run.alike_define inside name tame).imp fun _ _ => ⟨_, Nat.le_refl _, trivial⟩
  noteEntry name params declared _ _ :=
    (Run.alike_noteEntry name params declared).imp fun _ _ => ⟨_, Nat.le_refl _, trivial⟩
  ask native tame _ _ :=
    Run.alike_ask pure ⟨_, Nat.le_refl _, handsOn.tame tame 0 native⟩
  mark _ _ _ := Run.alike_give ⟨_, Nat.le_refl _, trivial⟩
  frame runs := runs
  andThen firsts nexts here inside := by
    apply (firsts here inside).andThen
    rintro value ⟨known, more, good⟩
    apply (nexts known value more good here inside).imp
    rintro result ⟨last, further, fine⟩
    exact ⟨last, Nat.le_trans more further, fine⟩
  opened declared tame enters bodies here inside :=
    Run.Alike.opened fresh declared tame
      (fun scope reached => enters _ scope (Nat.le_refl _) reached here inside)
      (bodies _ (Nat.le_refl _))
  asCall runs here inside := (runs here inside).asCall _ _
  settled runs here inside :=
    (runs here inside).settled _ ⟨_, Nat.le_refl _, Value.tame_of_closure?_none rfl⟩

/-- A call of a plain function that was declared inside, from whatever scopes. -/
theorem callFunction_alike (world : World) (handsOn : world.host.HandsOn) (pure : world.host.Pure)
    {part : ScopeId → Prop} {first second : State}
    (fresh : ∀ id, first.store.size ≤ id → part id) (fuel : Nat) (name : Token)
    (params : List Token) {body : List Stmt} (plain : Stmt.allPlain body = true)
    {closure : ScopeId} (declared : part closure) {arguments : List Value}
    (tame : ∀ argument ∈ arguments, argument.Tame part) (here there : ScopeId) :
    Run.Alike part first second here there (fun _ => True)
      (world.callFunction fuel name params body closure arguments)
      (world.callFunction fuel name params body closure arguments) := by
  cases fuel with
  | zero => exact Run.alike_spent
  | succ fuel =>
    have discipline := world.alike_discipline handsOn pure second fresh
    have bodies := (discipline.upto fuel).executeAll 0 body plain
    unfold World.callFunction
    rw [Machine.callFunction, Run.bind_eq]
    apply Run.Alike.andThen
    · apply Run.Alike.opened fresh declared
      · intro _ value found
        exact tame value (Bindings.get?_ofArguments found)
      · intro scope reached
        exact Run.alike_noteEntry name params reached
      · exact bodies
    · intro returned _
      exact Run.alike_give trivial

/-- What can be reached, and what is yet to be opened, is a part that both stores share. -/
theorem shared_of_agree {first second : Store} {roots : ScopeId → Prop}
    (size : second.size = first.size)
    (agree : ∀ id, first.Reach roots id → first.AgreeOn second id)
    (plain : ∀ id, first.Reach roots id → ∀ name value,
      (first.bindings id).get? name = some value → value.Plain) :
    first.Shared (fun id => first.Reach roots id ∨ first.size ≤ id) second := by
  refine ⟨size, ?_, ?_, ?_, ?_⟩
  · rintro id (reached | outside)
    · exact (agree id reached).1
    · rw [Store.enclosing_of_le outside, Store.enclosing_of_le (size ▸ outside)]
  · rintro id (reached | outside) name
    · exact (agree id reached).2 name
    · rw [Store.bindings_of_le outside, Store.bindings_of_le (size ▸ outside)]
  · rintro id outer (reached | outside) link
    · exact Or.inl (.outward reached link)
    · rw [Store.enclosing_of_le outside] at link
      cases link
  · rintro id (reached | outside) name value found
    · intro declared params body closure core
      have function := Value.closure?_eq_some.mpr ⟨declared, params, body, core⟩
      exact ⟨plain id reached name value found declared params body closure core,
        Or.inl (.function reached found function)⟩
    · rw [Store.bindings_of_le outside] at found
      cases found

end World

/-- Two calls confined to what they can reach: the same happened in both, and each left every
other scope that there was exactly as it was. -/
structure Confined (roots : ScopeId → Prop) (first second one other : State) : Prop where
  events : ∃ events, one.trace.toList = first.trace.toList ++ events ∧
    other.trace.toList = second.trace.toList ++ events
  left : ∀ id < first.store.size, ¬ first.store.Reach roots id →
    one.store.enclosing id = first.store.enclosing id ∧
      one.store.bindings id = first.store.bindings id
  right : ∀ id < second.store.size, ¬ second.store.Reach roots id →
    other.store.enclosing id = second.store.enclosing id ∧
      other.store.bindings id = second.store.bindings id

namespace World

/-- In a world whose natives are pure and make no functions: a function called with arguments in two states of
one size and depth of calls, which agree on all that the function and the arguments can reach, comes
to the same value or the same fault in both, prints and reports the same, and leaves every other
scope as it was. Where the two callers are does not matter, nor what is bound elsewhere. -/
theorem call_confined (world : World) (handsOn : world.host.HandsOn) (pure : world.host.Pure)
    (fuel : Nat) (name : Token) (params : List Token) (body : List Stmt) (closure : ScopeId)
    (arguments : List Value) (first second : State) (size : second.store.size = first.store.size)
    (calls : second.calls = first.calls)
    (agree : ∀ id, first.store.Reach (broughtBy closure arguments) id →
      first.store.AgreeOn second.store id)
    (plainBody : Stmt.allPlain body = true)
    (plainArguments : ∀ argument ∈ arguments, argument.Plain)
    (plainStored : ∀ id, first.store.Reach (broughtBy closure arguments) id → ∀ name value,
      (first.store.bindings id).get? name = some value → value.Plain) :
    (world.callFunction fuel name params body closure arguments first).Alike
      (Confined (broughtBy closure arguments) first second) (fun _ => True)
      (world.callFunction fuel name params body closure arguments second) := by
  let part (id : ScopeId) : Prop :=
    first.store.Reach (broughtBy closure arguments) id ∨ first.store.size ≤ id
  have beside : Beside part first second first.current second.current first second := by
    refine ⟨shared_of_agree size agree plainStored, Nat.le_refl _, rfl, rfl, calls, ?_, ?_, ?_⟩
    · exact ⟨[], (List.append_nil _).symm, (List.append_nil _).symm⟩
    · exact fun _ _ => ⟨rfl, rfl⟩
    · exact fun _ _ => ⟨rfl, rfl⟩
  have tame : ∀ argument ∈ arguments, argument.Tame part := by
    intro argument member declared params body closure core
    have function := Value.closure?_eq_some.mpr ⟨declared, params, body, core⟩
    exact ⟨plainArguments argument member declared params body closure core,
      Or.inl (.root (Or.inr ⟨argument, member, function⟩))⟩
  have declared : part closure := Or.inl (.root (Or.inl rfl))
  have alike := world.callFunction_alike handsOn pure (fun _ => Or.inr) fuel name params plainBody
    declared tame first.current second.current first second beside
  apply alike.imp
  · intro one other ends
    have outside {id : ScopeId} (inside : id < first.store.size)
        (unreached : ¬ first.store.Reach (broughtBy closure arguments) id) : ¬ part id := by
      rintro (reached | beyond)
      · exact unreached reached
      · exact absurd inside (Nat.not_lt.mpr beyond)
    refine ⟨ends.trace, ?_, ?_⟩
    · intro id inside unreached
      exact ends.untouched id (outside inside unreached)
    · intro id inside unreached
      apply ends.otherUntouched id (outside (size ▸ inside) _)
      intro reached
      exact unreached (reached.of_agree agree)
  · exact fun _ _ => trivial

theorem bare_pure : bare.host.Pure := by
  intro count
  cases count <;> rfl

/-- A scope that keeps a text, and one beside it with another. -/
def keeping (other : String) (caller : ScopeId) : State :=
  let outer : Scope := ⟨none, []⟩
  let kept : Scope := ⟨some 0, [("kept", .text "a")]⟩
  let secret : Scope := ⟨some 0, [("kept", .text other)]⟩
  ⟨⟨#[outer, kept, secret]⟩, caller, 0, #[], 0⟩

def addToKept : List Stmt :=
  let word (lexeme : String) : Token := .plain .identifier lexeme 1
  let longer : Expr := .binary (.var (word "kept")) (.plain .plus "+" 1) (.literal (.text "b"))
  [.expression (.assign (word "kept") longer), .print (.var (word "kept")),
    .ret (.plain .kwReturn "return" 1) (some (.var (word "kept")))]

theorem keeping_get? {other name : String} {caller id : ScopeId} {value : Value}
    (found : ((keeping other caller).store.bindings id).get? name = some value) :
    ∃ text, value = .text text := by
  have only {stored : String} (bound : Bindings.get? [("kept", .text stored)] name = some value) :
      ∃ text, value = .text text := by
    rw [Bindings.get?_cons] at bound
    split at bound
    · exact ⟨stored, (Option.some.inj bound).symm⟩
    · cases bound
  match id with
  | 0 => cases found
  | 1 => exact only found
  | 2 => exact only found
  | _ + 3 => cases found

theorem keeping_reach {id : ScopeId}
    (reached : (keeping "x" 2).store.Reach (broughtBy 1 []) id) : id = 1 ∨ id = 0 := by
  induction reached with
  | root start =>
    rcases start with rfl | ⟨_, member, _⟩
    · exact Or.inl rfl
    · cases member
  | outward inside link ih =>
    rcases ih with rfl | rfl <;> cases link
    exact Or.inr rfl
  | function inside found declared ih =>
    obtain ⟨text, rfl⟩ := keeping_get? found
    cases declared

theorem call_confined_keeping :
    let call := bare.callFunction 9 (.plain .identifier "add" 1) [] addToKept 1 []
    (call (keeping "x" 2)).final?.map State.output = some ["ab"] ∧
    (call (keeping "x" 2)).Alike (Confined (broughtBy 1 []) (keeping "x" 2) (keeping "y" 0))
      (fun _ => True) (call (keeping "y" 0)) := by
  intro call
  have agree : ∀ id, (keeping "x" 2).store.Reach (broughtBy 1 []) id →
      (keeping "x" 2).store.AgreeOn (keeping "y" 0).store id := by
    intro id reached
    rcases keeping_reach reached with rfl | rfl <;> exact ⟨rfl, fun _ => rfl⟩
  have plainStored : ∀ id, (keeping "x" 2).store.Reach (broughtBy 1 []) id → ∀ name value,
      ((keeping "x" 2).store.bindings id).get? name = some value → value.Plain := by
    intro id _ name value found declared params body closure core
    obtain ⟨text, rfl⟩ := keeping_get? found
    cases core
  have plainArguments : ∀ argument ∈ ([] : List Value), argument.Plain := by
    intro argument member
    cases member
  refine ⟨by decide +kernel, ?_⟩
  exact call_confined bare bare_handsOn bare_pure 9 _ [] addToKept 1 [] _ _ rfl rfl agree
    (by decide +kernel) plainArguments plainStored

end World

end Lox
