import Lox.Proofs.Outcome

set_option autoImplicit false

namespace Lox

def Quiet (events : List Event) : Prop :=
  ∀ event ∈ events, event.fault? = none

/-- The steps that a program takes in the scope in which it is. -/
inductive Run.Primitive : {α : Type} → Run α → Prop
  | spent {α : Type} : Primitive (Run.spent (α := α))
  | give {α : Type} (value : α) : Primitive fun state => .done value state
  | fail {α : Type} (token : Token) (cause : Cause) : Primitive (Run.fail (α := α) token cause)
  | here : Primitive Run.here
  | lookUp (name : Token) : Primitive (Run.lookUp name)
  | assign (name : Token) (value : Value) : Primitive (Run.assign name value)
  | define (name : Token) (value : Value) : Primitive (Run.define name value)
  | ask (host : Host) (native : Native) (arguments : List Value) :
      Primitive (Run.ask host native arguments)
  | record {α : Type} (event : State → Event) (quiet : ∀ state, (event state).fault? = none)
      (value : α) : Primitive fun state => .done value (state.add (event state))

inductive Store.Written (store : Store) (current : ScopeId) : Store → Prop
  | kept : Written store current store
  | bound (name : String) (value : Value) :
      Written store current (store.define current name value)
  | overwritten (name : String) (value : Value) (scope : ScopeId)
      (found : store.resolve current name = some scope) :
      Written store current (store.define scope name value)

structure State.Stepped (before after : State) : Prop where
  current : after.current = before.current
  calls : after.calls = before.calls
  store : before.store.Written before.current after.store
  trace : ∃ events, Quiet events ∧ after.trace.toList = before.trace.toList ++ events

@[simp] theorem State.add_trace (state : State) (event : Event) :
    (state.add event).trace.toList = state.trace.toList ++ [event] := by
  simp [State.add]

theorem State.Stepped.refl (state : State) : state.Stepped state :=
  ⟨rfl, rfl, .kept, [], by simp [Quiet], by simp⟩

theorem State.Stepped.add (state : State) (event : Event) (quiet : event.fault? = none) :
    state.Stepped (state.add event) :=
  ⟨rfl, rfl, .kept, [event], by simp [Quiet, quiet], by simp⟩

/-- All that a primitive step can do. -/
theorem Run.Primitive.stepped {α : Type} {run : Run α} (primitive : run.Primitive)
    (before after : State) (final : (run before).final? = some after) :
    before.Stepped after := by
  cases primitive with
  | spent => cases final
  | give value =>
    cases final
    exact .refl before
  | fail token cause =>
    cases final
    exact .refl before
  | here =>
    cases final
    exact .refl before
  | lookUp name =>
    unfold Run.lookUp at final
    split at final <;> cases final <;> exact .refl before
  | assign name value =>
    unfold Run.assign at final
    split at final
    · rename_i scope found
      cases final
      exact ⟨rfl, rfl, .overwritten name.lexeme value scope found, [], by simp [Quiet], by simp⟩
    · cases final
      exact .refl before
  | define name value =>
    cases final
    exact ⟨rfl, rfl, .bound name.lexeme value, [], by simp [Quiet], by simp⟩
  | ask host native arguments =>
    cases final
    exact ⟨rfl, rfl, .kept, [], by simp [Quiet], by simp⟩
  | record event quiet value =>
    cases final
    exact .add before (event before) (quiet before)

theorem Answer.run_primitive (answer : Answer) (operator : Token) :
    (answer.run operator).Primitive := by
  cases answer with
  | value value => exact .give value
  | refused cause => exact .fail operator cause
  | unknown => exact .record (fun _ => .noOperator operator) (fun _ => rfl) (Value.number 0.0)

theorem Run.checkArity_primitive (paren : Token) (expected : Option Nat) (given : Nat) :
    (Run.checkArity paren expected given).Primitive := by
  unfold Run.checkArity
  split
  · exact .give ()
  · split
    · exact .give ()
    · exact .fail paren _

theorem Run.note_primitive (event : Event) (quiet : event.fault? = none) :
    (Run.note event).Primitive :=
  .record (fun _ => event) (fun _ => quiet) ()

theorem Run.noteEntry_primitive (name : Token) (params : List Token) (scope : ScopeId) :
    (Run.noteEntry name params scope).Primitive :=
  .record
    (fun state => .entered name.lexeme (params.map Token.lexeme) (state.store.depth scope))
    (fun _ => rfl) ()

open Machine

variable {M N : Type → Type} [Machine M] [Machine N]

/-- A relation between runs of two machines that is kept by all that an evaluator does, in two
worlds with the same natives. -/
structure Parallel (left right : World) (P : (α : Type) → M α → N α → Prop) : Prop where
  host : left.host = right.host
  pure {α : Type} (value : α) : P α (pure value) (pure value)
  step {α : Type} {run : Run α} (primitive : run.Primitive) : P α (step run) (step run)
  mark (mark : Mark) : P Unit (Machine.mark mark) (Machine.mark mark)
  frame {α : Type} {frame : Frame} {first : M α} {second : N α} (runs : P α first second) :
    P α (Machine.frame frame first) (Machine.frame frame second)
  andThen {α β : Type} {first : M α} {second : N α} {next : α → M β} {after : α → N β}
    (firsts : P α first second) (nexts : ∀ value, P β (next value) (after value)) :
    P β (first >>= next) (second >>= after)
  opened {α : Type} {enclosing : ScopeId} {bindings : Bindings} {entry : ScopeId → Run Unit}
    {first : M α} {second : N α} (enters : ∀ scope, (entry scope).Primitive)
    (bodies : P α first second) :
    P α (opened enclosing bindings entry first) (opened enclosing bindings entry second)
  asCall {α : Type} {paren : Token} {invocation : Invocation} {first : M α} {second : N α}
    (runs : P α first second) :
    P α (asCall left.config paren invocation first) (asCall right.config paren invocation second)
  settled {first : M Value} {second : N Value} (runs : P Value first second) :
    P Value (settled left.config.policy first) (settled right.config.policy second)

def Lenient (P : (α : Type) → M α → N α → Prop) : Prop :=
  ∀ (α : Type) (run : N α), P α (step Run.spent) run

structure Parallel.Upto (left right : World) (P : (α : Type) → M α → N α → Prop)
    (fuel more : Nat) : Prop where
  evaluate (expr : Expr) : P Value (evaluate left fuel expr) (evaluate right more expr)
  evaluateAll (exprs : List Expr) :
    P (List Value) (evaluateAll left fuel exprs) (evaluateAll right more exprs)
  callFunction (name : Token) (params : List Token) (body : List Stmt) (closure : ScopeId)
    (arguments : List Value) :
    P Value (callFunction left fuel name params body closure arguments)
      (callFunction right more name params body closure arguments)
  execute (stmt : Stmt) : P (Option Value) (execute left fuel stmt) (execute right more stmt)
  executeAll (stmts : List Stmt) :
    P (Option Value) (executeAll left fuel stmts) (executeAll right more stmts)

namespace Parallel

variable {left right : World} {P : (α : Type) → M α → N α → Prop} {fuel more : Nat}

theorem evaluate_succ (parallel : Parallel left right P) (upto : Upto left right P fuel more)
    (expr : Expr) :
    P Value (Machine.evaluate left (fuel + 1) expr) (Machine.evaluate right (more + 1) expr) := by
  apply parallel.frame
  apply parallel.settled
  cases expr with
  | literal value => exact parallel.pure value
  | grouping inner => exact upto.evaluate inner
  | var name => exact parallel.step (.lookUp name)
  | assign name expr =>
    apply parallel.andThen (upto.evaluate expr)
    intro value
    exact parallel.andThen (parallel.step (.assign name value)) fun _ => parallel.pure value
  | logical first operator second =>
    apply parallel.andThen (upto.evaluate first)
    intro value
    split
    · exact parallel.pure value
    · exact upto.evaluate second
  | unary operator operand =>
    apply parallel.andThen (upto.evaluate operand)
    intro value
    exact parallel.andThen (parallel.mark _) fun _ => parallel.step (Answer.run_primitive _ operator)
  | binary first operator second =>
    apply parallel.andThen (upto.evaluate first)
    intro value
    apply parallel.andThen (upto.evaluate second)
    intro other
    exact parallel.andThen (parallel.mark _) fun _ => parallel.step (Answer.run_primitive _ operator)
  | call callee paren arguments =>
    apply parallel.andThen (upto.evaluate callee)
    intro callee
    apply parallel.andThen (parallel.frame (upto.evaluateAll arguments))
    intro values
    cases callee with
    | function name params body closure =>
      apply parallel.andThen (parallel.step (Run.checkArity_primitive paren _ _))
      intro _
      exact parallel.asCall (upto.callFunction name params body closure values)
    | native native =>
      apply parallel.andThen (parallel.step (Run.checkArity_primitive paren _ _))
      intro _
      rw [← parallel.host]
      exact parallel.asCall (parallel.step (.ask _ native values))
    | text | number | bool | nil | uninitialized | returned =>
      exact parallel.step (.fail paren .notCallable)

theorem evaluateAll_succ (parallel : Parallel left right P) (upto : Upto left right P fuel more)
    (exprs : List Expr) :
    P (List Value) (Machine.evaluateAll left (fuel + 1) exprs)
      (Machine.evaluateAll right (more + 1) exprs) := by
  cases exprs with
  | nil => exact parallel.pure []
  | cons expr rest =>
    apply parallel.andThen (upto.evaluate expr)
    intro value
    exact parallel.andThen (upto.evaluateAll rest) fun values => parallel.pure (value :: values)

theorem callFunction_succ (parallel : Parallel left right P) (upto : Upto left right P fuel more)
    (name : Token) (params : List Token) (body : List Stmt) (closure : ScopeId)
    (arguments : List Value) :
    P Value (Machine.callFunction left (fuel + 1) name params body closure arguments)
      (Machine.callFunction right (more + 1) name params body closure arguments) :=
  parallel.andThen
    (parallel.opened (Run.noteEntry_primitive name params) (upto.executeAll body))
    fun returned => parallel.pure (returned.getD .nil)

theorem execute_succ (parallel : Parallel left right P) (upto : Upto left right P fuel more)
    (stmt : Stmt) :
    P (Option Value) (Machine.execute left (fuel + 1) stmt)
      (Machine.execute right (more + 1) stmt) := by
  cases stmt with
  | expression expr => exact parallel.andThen (upto.evaluate expr) fun _ => parallel.pure none
  | print expr =>
    apply parallel.andThen (upto.evaluate expr)
    intro value
    exact parallel.andThen (parallel.step (Run.note_primitive _ rfl)) fun _ => parallel.pure none
  | declare name expr =>
    apply parallel.andThen (upto.evaluate expr)
    intro value
    exact parallel.andThen (parallel.step (.define name value)) fun _ => parallel.pure none
  | block body =>
    apply parallel.andThen (parallel.step .here)
    intro here
    exact parallel.opened (fun _ => .give ()) (upto.executeAll body)
  | branch condition yes no =>
    apply parallel.andThen (upto.evaluate condition)
    intro value
    split
    · exact parallel.frame (upto.execute yes)
    · cases no with
      | none => exact parallel.pure none
      | some no => exact parallel.frame (upto.execute no)
  | loop condition body =>
    apply parallel.andThen (upto.evaluate condition)
    intro value
    split
    · apply parallel.andThen (parallel.frame (upto.execute body))
      intro returned
      cases returned with
      | none => exact upto.execute (.loop condition body)
      | some value => exact parallel.pure (some value)
    · exact parallel.pure none
  | function name params body =>
    apply parallel.andThen (parallel.step .here)
    intro here
    exact parallel.andThen (parallel.step (.define name _)) fun _ => parallel.pure none
  | ret keyword value =>
    cases value with
    | none => exact parallel.pure (some Value.nil)
    | some expr =>
      exact parallel.andThen (upto.evaluate expr) fun value => parallel.pure (some value)

theorem executeAll_succ (parallel : Parallel left right P) (upto : Upto left right P fuel more)
    (stmts : List Stmt) :
    P (Option Value) (Machine.executeAll left (fuel + 1) stmts)
      (Machine.executeAll right (more + 1) stmts) := by
  cases stmts with
  | nil => exact parallel.pure none
  | cons stmt rest =>
    apply parallel.andThen (parallel.frame (upto.execute stmt))
    intro returned
    cases returned with
    | none => exact upto.executeAll rest
    | some value => exact parallel.pure (some value)

theorem upto_succ (parallel : Parallel left right P) (upto : Upto left right P fuel more) :
    Upto left right P (fuel + 1) (more + 1) :=
  ⟨parallel.evaluate_succ upto, parallel.evaluateAll_succ upto, parallel.callFunction_succ upto,
    parallel.execute_succ upto, parallel.executeAll_succ upto⟩

/-- A relation kept by all that an evaluator does holds of whatever is run. -/
theorem upto (parallel : Parallel left right P) (fuel : Nat) : Upto left right P fuel fuel := by
  induction fuel with
  | zero =>
    have spent (α : Type) : P α (Machine.step Run.spent) (Machine.step Run.spent) :=
      parallel.step .spent
    exact ⟨fun _ => spent _, fun _ => spent _, fun _ _ _ _ _ => spent _, fun _ => spent _,
      fun _ => spent _⟩
  | succ fuel ih => exact parallel.upto_succ ih

/-- A lenient relation also holds where the second side has more fuel. -/
theorem upto_of_le (parallel : Parallel left right P) (lenient : Lenient P) (fuel : Nat) :
    ∀ more, fuel ≤ more → Upto left right P fuel more := by
  induction fuel with
  | zero =>
    intro more _
    exact ⟨fun _ => lenient _ _, fun _ => lenient _ _, fun _ _ _ _ _ => lenient _ _,
      fun _ => lenient _ _, fun _ => lenient _ _⟩
  | succ fuel ih =>
    intro more enough
    obtain ⟨fewer, rfl⟩ : ∃ fewer, more = fewer + 1 := ⟨more - 1, by omega⟩
    exact parallel.upto_succ (ih fewer (by omega))

/-- The relation holds of whole programs. -/
theorem runAll (parallel : Parallel left right P) (upto : Upto left right P fuel more)
    (program : Program) :
    ∀ result, P (Option Value) (Machine.runAll left fuel result program)
      (Machine.runAll right more result program) := by
  induction program with
  | nil =>
    intro result
    exact parallel.pure result
  | cons stmt rest ih =>
    intro result
    cases stmt with
    | expression expr =>
      rw [Machine.runAll, Machine.runAll]
      exact parallel.andThen (upto.evaluate expr) fun value => ih (some value)
    | print | declare | block | branch | loop | function | ret =>
      apply parallel.andThen (parallel.frame (upto.execute _))
      intro returned
      apply parallel.andThen (parallel.mark _)
      intro _
      cases returned with
      | none => exact ih result
      | some _ => exact parallel.pure result

end Parallel

end Lox
