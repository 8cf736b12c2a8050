import Lox.Proofs.Policy
import Lox.Proofs.Pruned
import Lox.Proofs.Returns
import Lox.Proofs.Straight

set_option autoImplicit false

namespace Lox

open Machine

namespace Run

variable {α β γ δ : Type} {change : α → β}

/-- From pruned states, the second run does what the first does, up to pruning. -/
def Prunes (change : α → β) (whole : Run α) (short : Run β) : Prop :=
  ∀ state : State, short state.pruned = (whole state).pruned change

theorem prunes_spent : Prunes change (spent (α := α)) spent :=
  fun _ => rfl

theorem prunes_pure (value : α) : Prunes change (pure value) (pure (change value)) :=
  fun _ => rfl

theorem prunes_fail (token : Token) (cause : Cause) :
    Prunes change (fail (α := α) token cause) (fail token cause) :=
  fun _ => rfl

theorem prunes_note (event : Event) : Prunes id (note event) (note event) :=
  fun _ => rfl

theorem prunes_here : Prunes id here here :=
  fun _ => rfl

theorem prunes_lookUp (name : Token) : Prunes Value.pruned (lookUp name) (lookUp name) := by
  intro state
  have found := state.store.get?_mapValues Value.pruned state.current name.lexeme
  unfold lookUp State.pruned
  simp only [found]
  cases state.store.get? state.current name.lexeme <;> rfl

theorem prunes_assign (name : Token) (value : Value) :
    Prunes id (assign name value) (assign name value.pruned) := by
  intro state
  have found := state.store.resolve_mapValues Value.pruned state.current name.lexeme
  unfold assign State.pruned
  simp only [found, Store.define_mapValues]
  cases state.store.resolve state.current name.lexeme <;> rfl

theorem prunes_define (name : Token) (value : Value) :
    Prunes id (define name value) (define name value.pruned) := by
  intro state
  unfold define State.pruned
  simp only [Store.define_mapValues]
  rfl

theorem prunes_extend (enclosing : ScopeId) (bindings : Bindings) :
    Prunes id (extend enclosing bindings) (extend enclosing (bindings.mapValues Value.pruned)) := by
  intro state
  unfold extend State.pruned
  simp only [Store.extend_mapValues, Store.size_mapValues]
  rfl

theorem prunes_ask {host : Host} (discreet : host.Discreet) (native : Native)
    (arguments : List Value) : Prunes Value.pruned (ask host native arguments)
      (ask host native (arguments.map Value.pruned)) := by
  intro state
  exact congrArg (Outcome.done · _) (discreet state.asked native arguments)

theorem prunes_noteEntry (name : Token) (params : List Token) (scope : ScopeId) :
    Prunes id (noteEntry name params scope) (noteEntry name params scope) := by
  intro state
  unfold noteEntry State.pruned
  simp only [Store.depth_mapValues]
  rfl

theorem prunes_checkArity (paren : Token) (expected : Option Nat) (given : Nat) :
    Prunes id (checkArity paren expected given) (checkArity paren expected given) := by
  unfold checkArity
  split
  · exact prunes_pure ()
  · split
    · exact prunes_pure ()
    · exact prunes_fail paren _

theorem prunes_answer {answer : Answer} (operator : Token)
    (tame : ∀ value, answer = .value value → value.closure? = none) :
    Prunes Value.pruned (answer.run operator) (answer.run operator) := by
  cases answer with
  | value value =>
    intro state
    exact congrArg (Outcome.done · _) (Value.pruned_of_closure?_none (tame value rfl)).symm
  | refused cause => exact prunes_fail operator cause
  | unknown => exact fun _ => rfl

/-- One run after another, where something is known of the value between them. -/
theorem Prunes.andThenOf {mid : α → Prop} {last : γ → δ} {first : Run α} {second : Run β}
    {next : α → Run γ} {after : β → Run δ} (firsts : Prunes change first second)
    (gives : Gives mid first)
    (nexts : ∀ value, mid value → Prunes last (next value) (after (change value))) :
    Prunes last (first >>= next) (second >>= after) := by
  intro state
  simp only [bind_eq, Run.andThen, firsts state]
  cases out : first state with
  | done value middle => exact nexts value (gives state value middle out) middle
  | fault | spent => rfl

theorem Prunes.andThen {last : γ → δ} {first : Run α} {second : Run β} {next : α → Run γ}
    {after : β → Run δ} (firsts : Prunes change first second)
    (nexts : ∀ value, Prunes last (next value) (after (change value))) :
    Prunes last (first >>= next) (second >>= after) :=
  firsts.andThenOf (gives_any first) fun value _ => nexts value

theorem Prunes.within {whole : Run α} {short : Run β} (prunes : Prunes change whole short)
    (scope : ScopeId) : Prunes change (whole.within scope) (short.within scope) := by
  intro state
  have inner := prunes { state with current := scope }
  rw [within_eq, within_eq]
  unfold State.pruned at inner ⊢
  simp only [inner]
  cases whole { state with current := scope } <;> rfl

theorem Prunes.opened {whole : Run α} {short : Run β} (prunes : Prunes change whole short)
    (enclosing : ScopeId) (bindings : Bindings) {entry : ScopeId → Run Unit}
    (enters : ∀ scope, Prunes id (entry scope) (entry scope)) :
    Prunes change (Machine.opened enclosing bindings entry whole)
      (Machine.opened enclosing (bindings.mapValues Value.pruned) entry short) := by
  rw [opened_eq, opened_eq]
  exact (prunes_extend enclosing bindings).andThen fun scope =>
    (enters scope).andThen fun _ => prunes.within scope

theorem Prunes.asCall {whole : Run α} {short : Run β} (prunes : Prunes change whole short)
    (config : Config) (paren : Token) :
    Prunes change (whole.asCall config paren) (short.asCall config paren) := by
  intro state
  by_cases deep : config.maxDepth ≤ state.calls
  · have deepToo : config.maxDepth ≤ state.pruned.calls := deep
    rw [asCall_refused paren whole deep, asCall_refused paren short deepToo]
    rfl
  · have shallow : ¬ config.maxDepth ≤ state.pruned.calls := deep
    rw [asCall_begun paren whole deep, asCall_begun paren short shallow]
    have inner := prunes { state with calls := state.calls + 1 }
    unfold State.pruned at inner ⊢
    simp only [inner]
    cases whole { state with calls := state.calls + 1 } <;> rfl

theorem Prunes.settled {whole short : Run Value} (prunes : Prunes Value.pruned whole short)
    (policy : Policy) : Prunes Value.pruned (whole.settled policy) (short.settled policy) := by
  intro state
  unfold Run.settled Run.recover
  rw [prunes state]
  cases whole state with
  | done | spent => rfl
  | fault => cases policy <;> rfl

end Run

open Run

namespace Machine

/-- With so much fuel, statements that must return give a value on their way out. -/
theorem mustReturn (world : World) (fuel : Nat) :
    (∀ stmt : Stmt, stmt.mustReturn = true →
      Gives (· ≠ none) (execute (M := Run) world fuel stmt)) ∧
    ∀ stmts : List Stmt, Stmt.someMustReturn stmts = true →
      Gives (· ≠ none) (executeAll (M := Run) world fuel stmts) := by
  induction fuel with
  | zero => exact ⟨fun _ _ => gives_spent, fun _ _ => gives_spent⟩
  | succ fuel ih =>
    obtain ⟨one, all⟩ := ih
    constructor
    · intro stmt must
      cases stmt with
      | ret keyword value =>
        cases value with
        | none => exact gives_pure nofun
        | some expr => exact (gives_any _).andThen fun _ _ => gives_pure nofun
      | block body =>
        refine (gives_any _).andThen ?_
        intro here _
        rw [opened_eq]
        refine (gives_any _).andThen ?_
        intro scope _
        refine (gives_any _).andThen ?_
        intro _ _
        exact (all body must).within scope
      | branch condition yes no =>
        cases no with
        | none => cases must
        | some no =>
          obtain ⟨mustYes, mustNo⟩ := Bool.and_eq_true_iff.mp must
          refine (gives_any _).andThen ?_
          intro value _
          split
          · exact one yes mustYes
          · exact one no mustNo
      | expression | print | declare | function | loop => cases must
    · intro stmts must
      cases stmts with
      | nil => cases must
      | cons stmt rest =>
        rcases Bool.or_eq_true_iff.mp must with now | later
        · refine (one stmt now).andThen ?_
          intro returned some_value
          cases returned with
          | none => exact absurd rfl some_value
          | some value => exact gives_pure nofun
        · refine (gives_any _).andThen ?_
          intro returned _
          cases returned with
          | none => exact all rest later
          | some value => exact gives_pure nofun

structure Pruned (world : World) (fuel : Nat) : Prop where
  evaluate (expr : Expr) :
    Prunes Value.pruned (evaluate world fuel expr) (evaluate world fuel expr.pruned)
  evaluateAll (exprs : List Expr) :
    Prunes (List.map Value.pruned) (evaluateAll world fuel exprs)
      (evaluateAll world fuel (Expr.prunedAll exprs))
  callFunction (name : Token) (params : List Token) (body : List Stmt) (closure : ScopeId)
    (arguments : List Value) :
    Prunes Value.pruned (callFunction world fuel name params body closure arguments)
      (callFunction world fuel name params (Stmt.prunedAll body) closure
        (arguments.map Value.pruned))
  execute (stmt : Stmt) :
    Prunes (Option.map Value.pruned) (execute world fuel stmt) (execute world fuel stmt.pruned)
  executeAll (stmts : List Stmt) :
    Prunes (Option.map Value.pruned) (executeAll world fuel stmts)
      (executeAll world fuel (Stmt.prunedAll stmts))

namespace Pruned

variable {world : World} {fuel : Nat}

theorem evaluate_succ (pruned : Pruned world fuel) (host : world.host.Discreet) (expr : Expr) :
    Prunes Value.pruned (Machine.evaluate world (fuel + 1) expr)
      (Machine.evaluate world (fuel + 1) expr.pruned) := by
  cases expr with
  | literal value => exact (prunes_pure value).settled world.config.policy
  | grouping inner => exact (pruned.evaluate inner).settled world.config.policy
  | var name => exact (prunes_lookUp name).settled world.config.policy
  | assign name value =>
    apply Prunes.settled
    apply (pruned.evaluate value).andThen
    intro value
    exact (prunes_assign name value).andThen fun _ => prunes_pure value
  | logical left operator right =>
    apply Prunes.settled
    apply (pruned.evaluate left).andThen
    intro value
    rw [Value.truthy_pruned]
    split
    · exact prunes_pure value
    · exact pruned.evaluate right
  | unary operator right =>
    apply Prunes.settled
    apply (pruned.evaluate right).andThen
    intro value
    rw [Answer.ofUnary_pruned]
    exact prunes_answer operator fun _ => Answer.closure?_ofUnary
  | binary left operator right =>
    apply Prunes.settled
    apply (pruned.evaluate left).andThen
    intro first
    apply (pruned.evaluate right).andThen
    intro second
    rw [Answer.ofBinary_pruned]
    exact prunes_answer operator fun _ => Answer.closure?_ofBinary
  | call callee paren arguments =>
    apply Prunes.settled
    apply (pruned.evaluate callee).andThen
    intro callee
    apply (pruned.evaluateAll arguments).andThen
    intro values
    have count : (values.map Value.pruned).length = values.length := List.length_map _
    cases callee with
    | function name params body closure =>
      simp only [Value.pruned, count]
      apply (prunes_checkArity paren _ _).andThen
      intro _
      exact (pruned.callFunction name params body closure values).asCall world.config paren
    | native native =>
      simp only [Value.pruned, count]
      apply (prunes_checkArity paren _ _).andThen
      intro _
      exact (prunes_ask host native values).asCall world.config paren
    | text | number | bool | nil | uninitialized | returned => exact prunes_fail paren _

theorem evaluateAll_succ (pruned : Pruned world fuel) (exprs : List Expr) :
    Prunes (List.map Value.pruned) (Machine.evaluateAll world (fuel + 1) exprs)
      (Machine.evaluateAll world (fuel + 1) (Expr.prunedAll exprs)) := by
  cases exprs with
  | nil => exact prunes_pure []
  | cons expr rest =>
    apply (pruned.evaluate expr).andThen
    intro value
    apply (pruned.evaluateAll rest).andThen
    intro values
    exact prunes_pure (value :: values)

theorem callFunction_succ (pruned : Pruned world fuel) (name : Token) (params : List Token)
    (body : List Stmt) (closure : ScopeId) (arguments : List Value) :
    Prunes Value.pruned (Machine.callFunction world (fuel + 1) name params body closure arguments)
      (Machine.callFunction world (fuel + 1) name params (Stmt.prunedAll body) closure
        (arguments.map Value.pruned)) := by
  have bound := Bindings.ofArguments_mapValues Value.pruned params arguments
  unfold Machine.callFunction
  rw [bound]
  apply ((pruned.executeAll body).opened closure _ (prunes_noteEntry name params)).andThen
  intro returned
  cases returned with
  | none => exact prunes_pure Value.nil
  | some value => exact prunes_pure value

theorem execute_succ (pruned : Pruned world fuel) (stmt : Stmt) :
    Prunes (Option.map Value.pruned) (Machine.execute world (fuel + 1) stmt)
      (Machine.execute world (fuel + 1) stmt.pruned) := by
  cases stmt with
  | expression expr => exact (pruned.evaluate expr).andThen fun _ => prunes_pure none
  | print expr =>
    apply (pruned.evaluate expr).andThen
    intro value
    rw [Value.print_pruned]
    exact (prunes_note _).andThen fun _ => prunes_pure none
  | declare name expr =>
    apply (pruned.evaluate expr).andThen
    intro value
    exact (prunes_define name value).andThen fun _ => prunes_pure none
  | block body =>
    apply prunes_here.andThen
    intro here
    exact (pruned.executeAll body).opened here [] fun _ => prunes_pure ()
  | branch condition yes no =>
    cases no with
    | none =>
      apply (pruned.evaluate condition).andThen
      intro value
      rw [Value.truthy_pruned]
      split
      · exact pruned.execute yes
      · exact prunes_pure none
    | some no =>
      apply (pruned.evaluate condition).andThen
      intro value
      rw [Value.truthy_pruned]
      split
      · exact pruned.execute yes
      · exact pruned.execute no
  | loop condition body =>
    apply (pruned.evaluate condition).andThen
    intro value
    rw [Value.truthy_pruned]
    split
    · apply (pruned.execute body).andThen
      intro returned
      cases returned with
      | none => exact pruned.execute (.loop condition body)
      | some value => exact prunes_pure (some value)
    · exact prunes_pure none
  | function name params body =>
    apply prunes_here.andThen
    intro here
    exact (prunes_define name (.function name params body here)).andThen fun _ => prunes_pure none
  | ret keyword value =>
    cases value with
    | none => exact prunes_pure (some Value.nil)
    | some expr => exact (pruned.evaluate expr).andThen fun value => prunes_pure (some value)

/-- After a statement that must return, the rest of the list is not run. -/
theorem executeAll_succ (pruned : Pruned world fuel) (stmts : List Stmt) :
    Prunes (Option.map Value.pruned) (Machine.executeAll world (fuel + 1) stmts)
      (Machine.executeAll world (fuel + 1) (Stmt.prunedAll stmts)) := by
  cases stmts with
  | nil => exact prunes_pure none
  | cons stmt rest =>
    unfold Stmt.prunedAll
    split
    · rename_i must
      apply (pruned.execute stmt).andThenOf ((mustReturn world fuel).1 stmt must)
      intro returned some_value
      cases returned with
      | none => exact absurd rfl some_value
      | some value => exact prunes_pure (some value)
    · apply (pruned.execute stmt).andThen
      intro returned
      cases returned with
      | none => exact pruned.executeAll rest
      | some value => exact prunes_pure (some value)

end Pruned

theorem pruned {world : World} (host : world.host.Discreet) (fuel : Nat) : Pruned world fuel := by
  induction fuel with
  | zero =>
    exact ⟨fun _ => prunes_spent, fun _ => prunes_spent, fun _ _ _ _ _ => prunes_spent,
      fun _ => prunes_spent, fun _ => prunes_spent⟩
  | succ fuel ih =>
    exact ⟨ih.evaluate_succ host, ih.evaluateAll_succ, ih.callFunction_succ, ih.execute_succ,
      ih.executeAll_succ⟩

theorem isExpression_pruned (stmt : Stmt) : stmt.pruned.isExpression = stmt.isExpression := by
  cases stmt with
  | branch condition yes no => cases no <;> rfl
  | ret keyword value => cases value <;> rfl
  | _ => rfl

theorem runAll_pruned {world : World} (host : world.host.Discreet) (fuel : Nat)
    (program : Program) : ∀ result : Option Value,
    Prunes (Option.map Value.pruned) (runAll world fuel result program)
      (runAll world fuel (result.map Value.pruned) (Stmt.prunedAll program)) := by
  have parts := pruned host fuel
  induction program with
  | nil => exact fun result => prunes_pure result
  | cons stmt rest ih =>
    intro result
    cases silent : stmt.isExpression with
    | true =>
      cases stmt with
      | expression expr =>
        have tail : Stmt.prunedAll (.expression expr :: rest) =
            .expression expr.pruned :: Stmt.prunedAll rest := rfl
        rw [tail, runAll, runAll]
        exact (parts.evaluate expr).andThen fun value => ih (some value)
      | _ => cases silent
    | false =>
      rw [runAll_cons_eq silent]
      rw [← isExpression_pruned] at silent
      unfold Stmt.prunedAll
      split
      · rename_i must
        rw [runAll_cons_eq silent]
        apply (parts.execute stmt).andThenOf ((mustReturn world fuel).1 stmt must)
        intro returned some_value
        cases returned with
        | none => exact absurd rfl some_value
        | some value => exact prunes_pure result
      · rw [runAll_cons_eq silent]
        apply (parts.execute stmt).andThen
        intro returned
        cases returned with
        | none => exact ih result
        | some value => exact prunes_pure result

end Machine

namespace World

variable {world : World}

theorem interpret?_pruned (host : world.host.Discreet) (fuel : Nat) (program : Program)
    (state : State) : world.interpret? fuel (Stmt.prunedAll program) state.pruned =
      (world.interpret? fuel program state).map Verdict.pruned := by
  have prunes := runAll_pruned host fuel program none state
  unfold interpret? World.runAll
  rw [Option.map_none] at prunes
  rw [prunes]
  cases Machine.runAll (M := Run) world fuel none program state <;> rfl

/-- What follows a return is dead. The pruned program, run from the pruned state, ends if and only
if the whole one does, and does all the same but for what it leaves out of the bodies of functions.
A call gives the value of the one return that its body executes, wherever it stands in blocks,
branches and loops; without one it gives nil. -/
theorem dead_after_return (world : World) (host : world.host.Discreet) :
    (∀ (program : Program) (state : State) (fuel : Nat),
      world.interpret? fuel (Stmt.prunedAll program) state.pruned =
        (world.interpret? fuel program state).map Verdict.pruned) ∧
    ∀ (fuel : Nat) (name : Token) (params : List Token) (body : List Stmt) (closure : ScopeId)
      (arguments : List Value) (state : State) (value : Value) (after : State),
      world.callFunction (fuel + 1) name params body closure arguments state = .done value after →
      let Performs := Stmt.PerformsAll world fuel body (state.entering name params closure arguments)
      Performs value ∧ (∀ other, Performs other → other = value) ∨
        (∀ other, ¬ Performs other) ∧ value = .nil := by
  constructor
  · intro program state fuel
    exact interpret?_pruned host fuel program state
  · intro fuel name params body closure arguments state value after done
    exact callFunction_performs done

/-- The body of a function that returns from inside a loop, with statements that are not reached. -/
def search : List Stmt :=
  let key : Token := .plain .kwReturn "return" 1
  let say (text : String) : Stmt := .print (.literal (.text text))
  let found : Stmt := .block [.ret key (some (.literal (.text "found"))), say "dead"]
  [.loop (.literal (.bool true)) (.block [.branch (.var (.plain .identifier "x" 1)) found
      (some (.ret key none)), say "dead"]), say "passed by"]

def searching : Program :=
  let say (text : String) : Stmt := .print (.literal (.text text))
  let close : Token := .plain .rightParen ")" 2
  [.print (.call (.var (.plain .identifier "f" 2)) close [.literal (.bool true)]),
    .block [.ret (.plain .kwReturn "return" 3) none, say "dead"], say "dead"]

theorem bare_discreet : bare.host.Discreet := by
  intro count native arguments
  rw [bare_answerAfter, bare_answerAfter, Value.pruned]

theorem dead_after_return_searching :
    let word (lexeme : String) : Token := .plain .identifier lexeme 1
    let fresh := State.initial bare.config []
    let callee := Value.function (word "f") [word "x"] search State.globals
    let start := { fresh with store := fresh.store.define State.globals "f" callee }
    (Stmt.prunedAll searching).length = 2 ∧
    (bare.interpret? 20 searching start).map (·.printed start) = some ["found"] ∧
    bare.interpret? 20 (Stmt.prunedAll searching) start.pruned =
      (bare.interpret? 20 searching start).map Verdict.pruned ∧
    ∃ value after, bare.callFunction 20 (word "f") [word "x"] search State.globals [.bool true]
        start = .done value after ∧ value.print = "found" ∧
      Stmt.PerformsAll bare 19 search
        (start.entering (word "f") [word "x"] State.globals [.bool true]) value := by
  intro word fresh callee start
  have dead := dead_after_return bare bare_discreet
  refine ⟨by decide +kernel, by decide +kernel, dead.1 searching start 20, ?_⟩
  let printed : Outcome Value → Option String
    | .done value _ => some value.print
    | _ => none
  have found : printed (bare.callFunction 20 (word "f") [word "x"] search State.globals
      [.bool true] start) = some "found" := by decide +kernel
  cases out : bare.callFunction 20 (word "f") [word "x"] search State.globals [.bool true]
      start with
  | done value after =>
    rw [out] at found
    have text : value.print = "found" := Option.some.inj found
    rcases dead.2 19 _ _ _ _ _ _ value after out with ⟨performs, _⟩ | ⟨_, nothing⟩
    · exact ⟨value, after, rfl, text, performs⟩
    · rw [nothing] at text
      exact absurd text (by decide)
  | fault | spent =>
    rw [out] at found
    cases found

end World

end Lox
