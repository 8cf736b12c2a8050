import Lox.Proofs.Likeness
import Lox.Proofs.Straight

set_option autoImplicit false

namespace Lox

/-- Natives answer alike to arguments that are alike. -/
def Host.Blind (host : Host) (like : Likeness) : Prop :=
  ∀ count native arguments twins, List.Forall₂ (Value.Like like) arguments twins →
    (host.answerAfter count native arguments).Like like (host.answerAfter count native twins)

theorem World.bare_blind (like : Likeness) : World.bare.host.Blind like := by
  intro count native arguments twins _
  rw [World.bare_answerAfter, World.bare_answerAfter]
  exact .nil

namespace Run

variable {α β γ δ : Type} {like : Likeness}

/-- From states that are alike, two runs come to like outcomes with values so related. -/
def Keeps (like : Likeness) (relates : α → β → Prop) (first : Run α) (second : Run β) : Prop :=
  ∀ state twin : State, state.Like like twin →
    Outcome.Like like relates (first state) (second twin)

theorem keeps_spent {relates : α → β → Prop} : Keeps like relates (spent (α := α)) spent :=
  fun _ _ _ => .spent

theorem keeps_pure {relates : α → β → Prop} {value : α} {other : β} (values : relates value other) :
    Keeps like relates (pure value) (pure other) :=
  fun _ _ states => .done values states

theorem Keeps.andThen {mid : α → β → Prop} {relates : γ → δ → Prop} {first : Run α} {second : Run β}
    {next : α → Run γ} {after : β → Run δ} (firsts : Keeps like mid first second)
    (nexts : ∀ value other, mid value other → Keeps like relates (next value) (after other)) :
    Keeps like relates (first >>= next) (second >>= after) := by
  intro state twin states
  have outs := firsts state twin states
  simp only [bind_eq, Run.andThen]
  generalize first state = one, second twin = other at outs ⊢
  cases outs with
  | done values states => exact nexts _ _ values _ _ states
  | fault faults states => exact .fault faults states
  | spent => exact .spent

theorem Keeps.imp {relates wider : α → β → Prop} {first : Run α} {second : Run β}
    (runs : Keeps like relates first second) (more : ∀ value other, relates value other → wider value other) :
    Keeps like wider first second := by
  intro state twin states
  have outs := runs state twin states
  generalize first state = one, second twin = other at outs ⊢
  cases outs with
  | done values after => exact .done (more _ _ values) after
  | fault faults after => exact .fault faults after
  | spent => exact .spent

theorem keeps_fail {relates : α → β → Prop} {token other : Token} (stands : like token other)
    (cause : Cause) : Keeps like relates (fail token cause) (fail other cause) :=
  fun _ _ states => .fault ⟨stands, rfl⟩ states

theorem keeps_note {event other : Event} (events : event.Like like other) :
    Keeps like (fun _ _ => True) (note event) (note other) :=
  fun _ _ states => .done trivial (states.add events)

theorem keeps_here : Keeps like (fun scope other => other = scope) here here :=
  fun _ _ states => .done states.current states

theorem keeps_lookUp (faithful : like.Faithful) {name other : Token} (stands : like name other) :
    Keeps like (Value.Like like) (lookUp name) (lookUp other) := by
  intro state twin states
  have found := states.store.get? state.current name.lexeme
  unfold lookUp
  rw [states.current, faithful.lexeme stands]
  generalize state.store.get? state.current name.lexeme = value,
    twin.store.get? state.current name.lexeme = copy at found ⊢
  cases found with
  | none => exact .fault ⟨stands, rfl⟩ states
  | some values => exact .done values states

theorem keeps_assign (faithful : like.Faithful) {name other : Token} (stands : like name other)
    {value copy : Value} (values : value.Like like copy) :
    Keeps like (fun _ _ => True) (assign name value) (assign other copy) := by
  intro state twin states
  unfold assign
  rw [states.current, faithful.lexeme stands, states.store.resolve]
  cases state.store.resolve state.current name.lexeme with
  | none => exact .fault ⟨stands, rfl⟩ states
  | some scope =>
    exact .done trivial ⟨states.store.define scope _ values, rfl, states.calls, states.trace, states.asked⟩

theorem keeps_define (faithful : like.Faithful) {name other : Token} (stands : like name other)
    {value copy : Value} (values : value.Like like copy) :
    Keeps like (fun _ _ => True) (define name value) (define other copy) := by
  intro state twin states
  unfold define
  rw [states.current, faithful.lexeme stands]
  exact .done trivial ⟨states.store.define _ _ values, rfl, states.calls, states.trace, states.asked⟩

theorem keeps_extend (enclosing : ScopeId) {bindings others : Bindings}
    (bound : bindings.Like like others) :
    Keeps like (fun scope other => other = scope) (extend enclosing bindings)
      (extend enclosing others) :=
  fun _ _ states => .done states.store.size
    ⟨states.store.extend _ bound, states.current, states.calls, states.trace, states.asked⟩

theorem keeps_ask {host : Host} (blind : host.Blind like) (native : Native)
    {arguments twins : List Value} (alike : List.Forall₂ (Value.Like like) arguments twins) :
    Keeps like (Value.Like like) (ask host native arguments) (ask host native twins) := by
  intro state twin states
  unfold ask
  rw [states.asked]
  exact .done (blind state.asked native arguments twins alike)
    ⟨states.store, states.current, states.calls, states.trace, rfl⟩

theorem Keeps.within {relates : α → β → Prop} {first : Run α} {second : Run β}
    (runs : Keeps like relates first second) (scope : ScopeId) :
    Keeps like relates (first.within scope) (second.within scope) := by
  intro state twin states
  have outs := runs _ _ (states.withCurrent scope)
  rw [within_eq, within_eq, states.current]
  generalize first { state with current := scope } = one,
    second { twin with current := scope } = other at outs ⊢
  cases outs with
  | done values after => exact .done values (after.withCurrent state.current)
  | fault faults after => exact .fault faults (after.withCurrent state.current)
  | spent => exact .spent

theorem Keeps.asCall {relates : α → β → Prop} {first : Run α} {second : Run β}
    (runs : Keeps like relates first second) (config : Config) {paren other : Token}
    (stands : like paren other) :
    Keeps like relates (first.asCall config paren) (second.asCall config other) := by
  intro state twin states
  by_cases deep : config.maxDepth ≤ state.calls
  · rw [asCall_refused paren first deep, asCall_refused other second (states.calls ▸ deep)]
    exact .fault ⟨stands, rfl⟩ states
  · rw [asCall_begun paren first deep, asCall_begun other second (states.calls ▸ deep), states.calls]
    have outs := runs _ _ (states.withCalls (state.calls + 1))
    generalize first { state with calls := state.calls + 1 } = one,
      second { twin with calls := state.calls + 1 } = copy at outs ⊢
    cases outs with
    | done values after => exact .done values after.leave
    | fault faults after => exact .fault faults after.leave
    | spent => exact .spent

theorem Keeps.settled {first second : Run Value} (runs : Keeps like (Value.Like like) first second)
    (policy : Policy) : Keeps like (Value.Like like) (first.settled policy) (second.settled policy) := by
  intro state twin states
  have outs := runs state twin states
  unfold Run.settled Run.recover
  generalize first state = one, second twin = other at outs ⊢
  cases outs with
  | done values after => exact .done values after
  | fault faults after =>
    cases policy with
    | resume => exact .done .nil (after.add (.reported faults))
    | abort => exact .fault faults after
  | spent => exact .spent

theorem keeps_checkArity {paren other : Token} (stands : like paren other) (expected : Option Nat)
    (given : Nat) :
    Keeps like (fun _ _ => True) (checkArity paren expected given) (checkArity other expected given) := by
  unfold checkArity
  split
  · exact keeps_pure trivial
  · split
    · exact keeps_pure trivial
    · exact keeps_fail stands _

theorem keeps_noteEntry (faithful : like.Faithful) {name other : Token} {params others : List Token}
    (named : like name other) (listed : List.Forall₂ like params others) (scope : ScopeId) :
    Keeps like (fun _ _ => True) (noteEntry name params scope) (noteEntry other others scope) := by
  intro state twin states
  have lexemes : others.map Token.lexeme = params.map Token.lexeme := by
    induction listed with
    | nil => rfl
    | cons stands _ ih => rw [List.map_cons, List.map_cons, faithful.lexeme stands, ih]
  unfold noteEntry
  rw [faithful.lexeme named, lexemes, states.store.depth]
  exact .done trivial (states.add (.entered _ _ _))

theorem keeps_answer {answer : Answer} {operator other : Token} (stands : like operator other)
    (tame : ∀ value, answer = .value value → value.Like like value) :
    Keeps like (Value.Like like) (answer.run operator) (answer.run other) := by
  cases answer with
  | value value => exact keeps_pure (tame value rfl)
  | refused cause => exact keeps_fail stands cause
  | unknown =>
    exact (keeps_note (.noOperator stands)).andThen fun _ _ _ => keeps_pure (.number 0.0)

end Run

namespace Machine

open Run

variable {like : Likeness}

structure Blind (world : World) (like : Likeness) (fuel : Nat) : Prop where
  evaluate {expr twin : Expr} (exprs : expr.Like like twin) :
    Keeps like (Value.Like like) (evaluate world fuel expr) (evaluate world fuel twin)
  evaluateAll {exprs twins : List Expr} (alike : Expr.AllLike like exprs twins) :
    Keeps like (List.Forall₂ (Value.Like like)) (evaluateAll world fuel exprs)
      (evaluateAll world fuel twins)
  callFunction {name other : Token} {params others : List Token} {body twin : List Stmt}
    {arguments copies : List Value} (named : like name other) (listed : List.Forall₂ like params others)
    (bodies : Stmt.AllLike like body twin) (closure : ScopeId)
    (values : List.Forall₂ (Value.Like like) arguments copies) :
    Keeps like (Value.Like like) (callFunction world fuel name params body closure arguments)
      (callFunction world fuel other others twin closure copies)
  execute {stmt twin : Stmt} (stmts : stmt.Like like twin) :
    Keeps like (Option.Rel (Value.Like like)) (execute world fuel stmt) (execute world fuel twin)
  executeAll {stmts twins : List Stmt} (alike : Stmt.AllLike like stmts twins) :
    Keeps like (Option.Rel (Value.Like like)) (executeAll world fuel stmts)
      (executeAll world fuel twins)

theorem keeps_opened {α β : Type} {relates : α → β → Prop} {enclosing : ScopeId}
    {bindings others : Bindings} {entry enter : ScopeId → Run Unit} {first : Run α} {second : Run β}
    (bound : bindings.Like like others)
    (enters : ∀ scope, Keeps like (fun _ _ => True) (entry scope) (enter scope))
    (bodies : Keeps like relates first second) :
    Keeps like relates (opened enclosing bindings entry first)
      (opened enclosing others enter second) := by
  rw [opened_eq, opened_eq]
  apply (keeps_extend enclosing bound).andThen
  rintro _ scope rfl
  apply (enters scope).andThen
  intro _ _ _
  exact bodies.within scope

namespace Blind

variable {world : World} {fuel : Nat}

theorem evaluate_succ (blind : Blind world like fuel) (faithful : like.Faithful)
    (host : world.host.Blind like) {expr twin : Expr} (exprs : expr.Like like twin) :
    Keeps like (Value.Like like) (Machine.evaluate world (fuel + 1) expr)
      (Machine.evaluate world (fuel + 1) twin) := by
  apply Keeps.settled
  cases exprs with
  | literal values => exact keeps_pure values
  | grouping inners => exact blind.evaluate inners
  | var named => exact keeps_lookUp faithful named
  | assign named values =>
    apply (blind.evaluate values).andThen
    intro value copy same
    apply (keeps_assign faithful named same).andThen
    intro _ _ _
    exact keeps_pure same
  | logical lefts sign rights =>
    apply (blind.evaluate lefts).andThen
    intro value copy same
    rw [faithful.kind sign, same.truthy_eq]
    split
    · exact keeps_pure same
    · exact blind.evaluate rights
  | unary sign rights =>
    apply (blind.evaluate rights).andThen
    intro value copy same
    rw [faithful.kind sign, Answer.ofUnary_like _ same]
    exact keeps_answer sign fun _ answer => .self (Answer.closure?_ofUnary answer)
  | binary lefts sign rights =>
    apply (blind.evaluate lefts).andThen
    intro first copy one
    apply (blind.evaluate rights).andThen
    intro second other two
    rw [faithful.kind sign, Answer.ofBinary_like _ one two]
    exact keeps_answer sign fun _ answer => .self (Answer.closure?_ofBinary answer)
  | call callees sign lists =>
    apply (blind.evaluate callees).andThen
    intro callee copy same
    apply (blind.evaluateAll lists).andThen
    intro values copies alike
    have count := alike.length_eq
    cases same with
    | function named listed bodies closure =>
      simp only [← count, ← listed.length_eq]
      apply (keeps_checkArity sign _ _).andThen
      intro _ _ _
      exact (blind.callFunction named listed bodies closure alike).asCall world.config sign
    | native native =>
      simp only [← count]
      apply (keeps_checkArity sign _ _).andThen
      intro _ _ _
      have answers := keeps_ask host native alike
      exact answers.asCall world.config sign
    | text | number | bool | nil | uninitialized | returned => exact keeps_fail sign _

theorem evaluateAll_succ (blind : Blind world like fuel) {exprs twins : List Expr}
    (alike : Expr.AllLike like exprs twins) :
    Keeps like (List.Forall₂ (Value.Like like)) (Machine.evaluateAll world (fuel + 1) exprs)
      (Machine.evaluateAll world (fuel + 1) twins) := by
  cases alike with
  | nil => exact keeps_pure .nil
  | cons first more =>
    apply (blind.evaluate first).andThen
    intro value copy one
    apply (blind.evaluateAll more).andThen
    intro values copies others
    exact keeps_pure (.cons one others)

theorem callFunction_succ (blind : Blind world like fuel) (faithful : like.Faithful)
    {name other : Token} {params others : List Token} {body twin : List Stmt}
    {arguments copies : List Value} (named : like name other) (listed : List.Forall₂ like params others)
    (bodies : Stmt.AllLike like body twin) (closure : ScopeId)
    (values : List.Forall₂ (Value.Like like) arguments copies) :
    Keeps like (Value.Like like)
      (Machine.callFunction world (fuel + 1) name params body closure arguments)
      (Machine.callFunction world (fuel + 1) other others twin closure copies) := by
  apply (keeps_opened (Bindings.like_ofArguments faithful listed values)
    (keeps_noteEntry faithful named listed) (blind.executeAll bodies)).andThen
  intro returned copy same
  apply keeps_pure
  cases same with
  | none => exact .nil
  | some values => exact values

theorem execute_succ (blind : Blind world like fuel) (faithful : like.Faithful) {stmt twin : Stmt}
    (stmts : stmt.Like like twin) :
    Keeps like (Option.Rel (Value.Like like)) (Machine.execute world (fuel + 1) stmt)
      (Machine.execute world (fuel + 1) twin) := by
  cases stmts with
  | expression values =>
    apply (blind.evaluate values).andThen
    intro _ _ _
    exact keeps_pure .none
  | print values =>
    apply (blind.evaluate values).andThen
    intro value copy same
    rw [same.print_eq faithful]
    apply (keeps_note (.printed _)).andThen
    intro _ _ _
    exact keeps_pure .none
  | declare named values =>
    apply (blind.evaluate values).andThen
    intro value copy same
    apply (keeps_define faithful named same).andThen
    intro _ _ _
    exact keeps_pure .none
  | block bodies =>
    apply keeps_here.andThen
    rintro _ here rfl
    exact keeps_opened .nil (fun _ => keeps_pure trivial) (blind.executeAll bodies)
  | branch conditions yeses =>
    apply (blind.evaluate conditions).andThen
    intro value copy same
    rw [same.truthy_eq]
    split
    · exact blind.execute yeses
    · exact keeps_pure .none
  | branchElse conditions yeses noes =>
    apply (blind.evaluate conditions).andThen
    intro value copy same
    rw [same.truthy_eq]
    split
    · exact blind.execute yeses
    · exact blind.execute noes
  | loop conditions bodies =>
    apply (blind.evaluate conditions).andThen
    intro value copy same
    rw [same.truthy_eq]
    split
    · apply (blind.execute bodies).andThen
      intro returned other left
      cases left with
      | none => exact blind.execute (.loop conditions bodies)
      | some values => exact keeps_pure (.some values)
    · exact keeps_pure .none
  | function named listed bodies =>
    apply keeps_here.andThen
    rintro _ here rfl
    apply (keeps_define faithful named (.function named listed bodies _)).andThen
    intro _ _ _
    exact keeps_pure .none
  | retNothing key => exact keeps_pure (.some .nil)
  | ret key values =>
    apply (blind.evaluate values).andThen
    intro value copy same
    exact keeps_pure (.some same)

theorem executeAll_succ (blind : Blind world like fuel) {stmts twins : List Stmt}
    (alike : Stmt.AllLike like stmts twins) :
    Keeps like (Option.Rel (Value.Like like)) (Machine.executeAll world (fuel + 1) stmts)
      (Machine.executeAll world (fuel + 1) twins) := by
  cases alike with
  | nil => exact keeps_pure .none
  | cons first more =>
    apply (blind.execute first).andThen
    intro returned copy same
    cases same with
    | none => exact blind.executeAll more
    | some values => exact keeps_pure (.some values)

end Blind

/-- Whatever the fuel, pieces of programs that are alike do alike. -/
theorem blind {world : World} (faithful : like.Faithful) (host : world.host.Blind like)
    (fuel : Nat) : Blind world like fuel := by
  induction fuel with
  | zero =>
    exact ⟨fun _ => keeps_spent, fun _ => keeps_spent, fun _ _ _ _ _ => keeps_spent,
      fun _ => keeps_spent, fun _ => keeps_spent⟩
  | succ fuel blind =>
    exact ⟨blind.evaluate_succ faithful host, blind.evaluateAll_succ,
      blind.callFunction_succ faithful, blind.execute_succ faithful, blind.executeAll_succ⟩

/-- Programs that are alike, without returns of their own, do alike at the top level. Their results
are alike if those before were, or if there is an expression to give another. -/
theorem keeps_runAll {world : World} (faithful : like.Faithful) (host : world.host.Blind like)
    (fuel : Nat) {program twin : Program} (alike : Stmt.AllLike like program twin)
    (plain : Stmt.allStraight program = true) (plainTwin : Stmt.allStraight twin = true) :
    ∀ result other : Option Value, Keeps like
      (fun value copy => Option.Rel (Value.Like like) result other ∨ program.expressive = true →
        Option.Rel (Value.Like like) value copy)
      (runAll world fuel result program) (runAll world fuel other twin) := by
  have blind := Machine.blind faithful host fuel
  induction program generalizing twin with
  | nil =>
    cases alike
    intro result other
    exact keeps_pure fun same => same.resolve_right Bool.false_ne_true
  | cons stmt rest ih =>
    cases alike with
    | @cons _ copy _ others first more =>
      obtain ⟨plainStmt, plainRest⟩ := Bool.and_eq_true_iff.mp plain
      obtain ⟨plainCopy, plainOthers⟩ := Bool.and_eq_true_iff.mp plainTwin
      intro result other
      -- What a statement other than an expression gives does not count.
      have passed (silent : stmt.isExpression = false) (silentCopy : copy.isExpression = false) :
          Keeps like
          (fun value copy => Option.Rel (Value.Like like) result other ∨
            Program.expressive (stmt :: rest) = true → Option.Rel (Value.Like like) value copy)
          (runAll world fuel result (stmt :: rest)) (runAll world fuel other (copy :: others)) := by
        rw [runAll_cons plainStmt silent, runAll_cons plainCopy silentCopy, Program.expressive,
          List.any_cons, silent, Bool.false_or]
        apply (blind.execute first).andThen
        intro _ _ _
        exact ih more plainRest plainOthers result other
      cases first with
      | expression values =>
        rw [runAll, runAll]
        apply (blind.evaluate values).andThen
        intro value copy same
        refine (ih more plainRest plainOthers (some value) (some copy)).imp ?_
        exact fun _ _ related _ => related (.inl (.some same))
      | block | function | branch | branchElse | print | retNothing | ret | declare | loop =>
        exact passed rfl rfl

end Machine

end Lox
