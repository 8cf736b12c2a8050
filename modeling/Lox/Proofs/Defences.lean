import Lox.Proofs.Plain
import Lox.Proofs.Recorded
import Lox.Proofs.Straight
import Lox.Proofs.Grammar.Proper
import Lox.Proofs.Grammar.Recognition

set_option autoImplicit false

namespace Lox

/-- A value that programs read from text can come by: none on its way out, and no function with a
body that is not proper. -/
def Value.Proper : Value → Prop
  | text _ | number _ | bool _ | nil | uninitialized | native _ => True
  | returned _ => False
  | function _ _ body _ => Stmt.allProper body = true

/-- A state with proper values alone, in which no operator was met that numbers do not know. -/
structure State.Proper (state : State) : Prop where
  bound : ∀ id name value, (state.store.bindings id).get? name = some value → value.Proper
  known : ∀ operator, Event.noOperator operator ∉ state.trace.toList

/-- Operators are where they belong, and no statement of the top level returns. -/
def Mark.Proper : Mark → Prop
  | unary operator _ => isUnary operator.kind = true
  | binary operator _ _ => isBinary operator.kind = true
  | finished returned => returned = none

def Deed.Proper : Deed → Prop
  | passed state => state.Proper
  | gave value => value.Proper
  | called invocation =>
    invocation.callee.Proper ∧ ∀ argument ∈ invocation.arguments, argument.Proper
  | noted mark => mark.Proper

/-- Natives answer with no value on its way out. A function that one answers with was given to it,
or has a body that tokens derive. -/
structure Host.Orderly (host : Host) : Prop where
  settled : ∀ count native arguments value,
    host.answerAfter count native arguments ≠ .returned value
  functions : ∀ count native arguments name params body closure,
    host.answerAfter count native arguments = .function name params body closure →
      .function name params body closure ∈ arguments ∨
        ∃ tokens, Sentence.Derives true (.declarations body) tokens

namespace Value

theorem Proper.not_returned {value : Value} (proper : value.Proper) (inner : Value) :
    value ≠ .returned inner := by
  rintro rfl
  exact proper

theorem proper_of_written {value : Value} (written : value.written = true) : value.Proper := by
  cases value <;> first | exact trivial | exact absurd written Bool.false_ne_true

end Value

theorem Host.Orderly.proper {host : Host} (orderly : host.Orderly) {arguments : List Value}
    (proper : ∀ argument ∈ arguments, argument.Proper) (count : Nat) (native : Native) :
    (host.answerAfter count native arguments).Proper := by
  cases answer : host.answerAfter count native arguments with
  | returned value => exact orderly.settled count native arguments value answer
  | function name params body closure =>
    rcases orderly.functions count native arguments name params body closure answer with
      given | ⟨_, derives⟩
    · exact proper _ given
    · exact derives.proper
  | text | number | bool | nil | uninitialized | native => exact trivial

namespace State

variable {state : State}

theorem Proper.define (proper : state.Proper) (scope : ScopeId) (name : String) {value : Value}
    (good : value.Proper) :
    State.Proper { state with store := state.store.define scope name value } := by
  have bound : state.store.Binds Value.Proper := proper.bound
  exact ⟨bound.define scope name good, proper.known⟩

theorem Proper.extend (proper : state.Proper) (outer : Option ScopeId) {bindings : Bindings}
    (good : ∀ name value, bindings.get? name = some value → value.Proper) :
    State.Proper { state with store := state.store.extend outer bindings } := by
  have bound : state.store.Binds Value.Proper := proper.bound
  exact ⟨bound.extend outer good, proper.known⟩

theorem Proper.add (proper : state.Proper) {event : Event}
    (known : ∀ operator, event ≠ .noOperator operator) : (state.add event).Proper := by
  refine ⟨proper.bound, ?_⟩
  intro operator member
  rw [State.add_trace, List.mem_append, List.mem_singleton] at member
  rcases member with before | now
  · exact proper.known operator before
  · exact known operator now.symm

theorem Proper.report (proper : state.Proper) (fault : Fault) :
    (state.add (.reported fault)).Proper :=
  proper.add fun _ same => by cases same

theorem Proper.lookUp (proper : state.Proper) {id : ScopeId} {name : String} {value : Value}
    (found : state.store.get? id name = some value) : value.Proper :=
  Store.Binds.get? proper.bound found

end State

structure Record.Proper {α : Type} (post : α → Prop) (record : Record α) : Prop where
  deeds : ∀ deed ∈ record.deeds, deed.Proper
  state : ∀ after, record.outcome.final? = some after → after.Proper
  value : ∀ value after, record.outcome = .done value after → post value

namespace Recorded

variable {α β : Type}

def Proper (post : α → Prop) (recorded : Recorded α) : Prop :=
  ∀ state : State, state.Proper → (recorded state).Proper post

theorem proper_pure {post : α → Prop} {value : α} (good : post value) :
    Proper post (pure value) := by
  intro state start
  refine ⟨?_, ?_, ?_⟩
  · intro deed member
    cases member
  · intro after final
    cases final
    exact start
  · intro _ after out
    cases out
    exact good

theorem proper_nothing :
    Proper (fun returned : Option Value => ∀ value ∈ returned, value.Proper) (pure none) := by
  apply proper_pure
  intro value member
  cases member

theorem proper_step {post : α → Prop} {run : Run α}
    (keeps : ∀ state after, state.Proper → (run state).final? = some after → after.Proper)
    (gives : ∀ state value after, state.Proper → run state = .done value after → post value) :
    Proper post (step run) := by
  intro state start
  refine ⟨?_, ?_, ?_⟩
  · intro deed member
    obtain ⟨after, final, rfl⟩ := List.mem_map.mp member
    exact keeps state after start (Option.mem_toList.mp final)
  · intro after final
    exact keeps state after start final
  · intro value after out
    exact gives state value after start out

theorem Proper.andThen {mid : α → Prop} {post : β → Prop} {recorded : Recorded α}
    {next : α → Recorded β} (first : Proper mid recorded)
    (rest : ∀ value, mid value → Proper post (next value)) : Proper post (recorded >>= next) := by
  intro state start
  have earlier := first state start
  show Record.Proper post (Recorded.andThen recorded next state)
  unfold Recorded.andThen
  cases out : (recorded state).outcome with
  | done value middle =>
    have there := earlier.state middle (Outcome.final?_of_done out)
    have later := rest value (earlier.value value middle out) middle there
    exact ⟨List.forall_mem_append.mpr ⟨earlier.deeds, later.deeds⟩, later.state, later.value⟩
  | fault reason middle =>
    refine ⟨earlier.deeds, ?_, ?_⟩
    · intro after final
      cases final
      exact earlier.state middle (Outcome.final?_of_fault out)
    · intro _ _ out
      cases out
  | spent => exact ⟨earlier.deeds, (fun _ final => by cases final), fun _ _ out => by cases out⟩

theorem proper_mark (mark : Mark) (good : mark.Proper) :
    Proper (fun _ => True) (Recorded.mark mark) := by
  intro state start
  refine ⟨?_, ?_, fun _ _ _ => trivial⟩
  · intro deed member
    rw [List.mem_singleton.mp member]
    exact good
  · intro after final
    cases final
    exact start

theorem Proper.within {post : α → Prop} {recorded : Recorded α} (proper : Proper post recorded)
    (scope : ScopeId) : Proper post (recorded.within scope) := by
  intro state start
  have inner := proper { state with current := scope } ⟨start.bound, start.known⟩
  refine ⟨inner.deeds, ?_, ?_⟩
  · intro after final
    rw [outcome_within, Outcome.final?_mapState, Option.map_eq_some_iff] at final
    obtain ⟨last, ended, rfl⟩ := final
    have there := inner.state last ended
    exact ⟨there.bound, there.known⟩
  · intro value after out
    rw [outcome_within] at out
    obtain ⟨last, ended, _⟩ := Outcome.mapState_eq_done out
    exact inner.value value last ended

theorem Proper.asCall {post : α → Prop} {recorded : Recorded α} (proper : Proper post recorded)
    (config : Config) (paren : Token) {invocation : Invocation}
    (good : (Deed.called invocation).Proper) :
    Proper post (recorded.asCall config paren invocation) := by
  intro state start
  have inner := proper { state with calls := state.calls + 1 } ⟨start.bound, start.known⟩
  refine ⟨?_, ?_, ?_⟩
  · intro deed member
    rcases List.mem_cons.mp member with rfl | during
    · exact good
    · split at during
      · cases during
      · exact inner.deeds deed during
  · intro after final
    by_cases deep : config.maxDepth ≤ state.calls
    · rw [outcome_asCall_refused paren invocation recorded deep] at final
      cases final
      exact start
    · rw [outcome_asCall_begun paren invocation recorded deep, Outcome.final?_mapState,
        Option.map_eq_some_iff] at final
      obtain ⟨last, ended, rfl⟩ := final
      have there := inner.state last ended
      exact ⟨there.bound, there.known⟩
  · intro value after out
    by_cases deep : config.maxDepth ≤ state.calls
    · rw [outcome_asCall_refused paren invocation recorded deep] at out
      cases out
    · rw [outcome_asCall_begun paren invocation recorded deep] at out
      obtain ⟨last, ended, _⟩ := Outcome.mapState_eq_done out
      exact inner.value value last ended

theorem Proper.settled {recorded : Recorded Value} (proper : Proper Value.Proper recorded)
    (policy : Policy) : Proper Value.Proper (recorded.settled policy) := by
  intro state start
  have inner := proper state start
  have value : ∀ value after, (recorded.settled policy state).outcome = .done value after →
      value.Proper := by
    intro value after out
    rcases done_settled out with same | rfl
    · exact inner.value value after same
    · exact trivial
  refine ⟨?_, ?_, value⟩
  · intro deed member
    rcases List.mem_append.mp member with during | last
    · exact inner.deeds deed during
    · split at last
      · rename_i result after out
        rw [List.mem_singleton.mp last]
        exact value result after out
      · cases last
      · cases last
  · intro after final
    rcases final_settled final with same | ⟨fault, last, out, rfl⟩
    · exact inner.state after same
    · exact (inner.state last (Outcome.final?_of_fault out)).report fault

theorem Proper.opened {post : α → Prop} {recorded : Recorded α} (proper : Proper post recorded)
    (enclosing : ScopeId) {bindings : Bindings} {entry : ScopeId → Run Unit}
    (good : ∀ name value, bindings.get? name = some value → value.Proper)
    (enters : ∀ scope, Proper (fun _ => True) (step (entry scope))) :
    Proper post (Machine.opened enclosing bindings entry recorded) := by
  have opens : Proper (fun _ => True) (step (Run.extend enclosing bindings)) := by
    refine proper_step ?_ fun _ _ _ _ _ => trivial
    intro state after start final
    cases final
    exact start.extend (some enclosing) good
  refine opens.andThen ?_
  intro scope _
  refine (enters scope).andThen ?_
  intro _ _
  exact proper.within scope

/-- A step that leaves the state as it is, or gives no state at all. -/
theorem proper_still {post : α → Prop} {run : Run α}
    (still : ∀ state after, (run state).final? = some after → after = state)
    (gives : ∀ state value after, state.Proper → run state = .done value after → post value) :
    Proper post (step run) := by
  refine proper_step ?_ gives
  intro state after start final
  rw [still state after final]
  exact start

theorem proper_spent {post : α → Prop} : Proper post (step Run.spent) :=
  proper_still (fun _ _ final => by cases final) fun _ _ _ _ out => by cases out

theorem proper_fail {post : α → Prop} (token : Token) (cause : Cause) :
    Proper post (step (Run.fail token cause)) :=
  proper_still (fun _ _ final => (Option.some.inj final).symm) fun _ _ _ _ out => by cases out

theorem proper_here : Proper (fun _ => True) (step Run.here) :=
  proper_still (fun _ _ final => (Option.some.inj final).symm) fun _ _ _ _ _ => trivial

theorem proper_lookUp (name : Token) : Proper Value.Proper (step (Run.lookUp name)) := by
  refine proper_still ?_ ?_
  · intro state after final
    unfold Run.lookUp at final
    split at final <;> exact (Option.some.inj final).symm
  · intro state value after start out
    unfold Run.lookUp at out
    split at out
    · rename_i found
      cases out
      exact start.lookUp found
    · cases out

theorem proper_assign (name : Token) {value : Value} (good : value.Proper) :
    Proper (fun _ => True) (step (Run.assign name value)) := by
  refine proper_step ?_ fun _ _ _ _ _ => trivial
  intro state after start final
  unfold Run.assign at final
  split at final
  · cases final
    exact start.define _ _ good
  · cases final
    exact start

theorem proper_define (name : Token) {value : Value} (good : value.Proper) :
    Proper (fun _ => True) (step (Run.define name value)) := by
  refine proper_step ?_ fun _ _ _ _ _ => trivial
  intro state after start final
  cases final
  exact start.define _ _ good

theorem proper_note {event : Event} (known : ∀ operator, event ≠ .noOperator operator) :
    Proper (fun _ => True) (step (Run.note event)) := by
  refine proper_step ?_ fun _ _ _ _ _ => trivial
  intro state after start final
  cases final
  exact start.add known

theorem proper_noteEntry (name : Token) (params : List Token) (scope : ScopeId) :
    Proper (fun _ => True) (step (Run.noteEntry name params scope)) := by
  refine proper_step ?_ fun _ _ _ _ _ => trivial
  intro state after start final
  cases final
  exact start.add fun _ same => by cases same

theorem proper_ask {host : Host} (orderly : host.Orderly) (native : Native) {arguments : List Value}
    (good : ∀ argument ∈ arguments, argument.Proper) :
    Proper Value.Proper (step (Run.ask host native arguments)) := by
  refine proper_step ?_ ?_
  · intro state after start final
    cases final
    exact ⟨start.bound, start.known⟩
  · intro state value after start out
    cases out
    exact orderly.proper good state.asked native

theorem proper_checkArity (paren : Token) (expected : Option Nat) (given : Nat) :
    Proper (fun _ => True) (step (Run.checkArity paren expected given)) := by
  unfold Run.checkArity
  have passes : Proper (fun _ => True) (step (pure ())) :=
    proper_still (fun _ _ final => (Option.some.inj final).symm) fun _ _ _ _ _ => trivial
  split
  · exact passes
  · split
    · exact passes
    · exact proper_fail paren _

theorem proper_answer {answer : Answer} (operator : Token) (known : answer ≠ .unknown)
    (written : ∀ value, answer = .value value → value.written = true) :
    Proper Value.Proper (step (answer.run operator)) := by
  cases answer with
  | value value =>
    refine proper_still (fun _ _ final => (Option.some.inj final).symm) ?_
    intro _ _ _ _ out
    cases out
    exact Value.proper_of_written (written value rfl)
  | refused cause => exact proper_fail operator cause
  | unknown => exact absurd rfl known

structure Guarded (world : World) (fuel : Nat) : Prop where
  evaluate (expr : Expr) (proper : expr.proper = true) :
    Proper Value.Proper (Machine.evaluate world fuel expr)
  evaluateAll (exprs : List Expr) (proper : Expr.allProper exprs = true) :
    Proper (fun values => ∀ value ∈ values, value.Proper) (Machine.evaluateAll world fuel exprs)
  callFunction (name : Token) (params : List Token) (body : List Stmt) (closure : ScopeId)
    (arguments : List Value) (proper : Stmt.allProper body = true)
    (good : ∀ argument ∈ arguments, argument.Proper) :
    Proper Value.Proper (Machine.callFunction world fuel name params body closure arguments)
  execute (stmt : Stmt) (proper : stmt.proper = true) :
    Proper (fun returned => ∀ value ∈ returned, value.Proper) (Machine.execute world fuel stmt)
  executeAll (stmts : List Stmt) (proper : Stmt.allProper stmts = true) :
    Proper (fun returned => ∀ value ∈ returned, value.Proper) (Machine.executeAll world fuel stmts)

namespace Guarded

variable {world : World} {fuel : Nat}

theorem evaluate_succ (guarded : Guarded world fuel) (orderly : world.host.Orderly) (expr : Expr)
    (proper : expr.proper = true) :
    Proper Value.Proper (Machine.evaluate world (fuel + 1) expr) := by
  apply Proper.settled
  cases expr with
  | literal value => exact proper_pure (Value.proper_of_written proper)
  | grouping inner => exact guarded.evaluate inner proper
  | var name => exact proper_lookUp name
  | assign name expr =>
    refine (guarded.evaluate expr proper).andThen ?_
    intro value good
    refine (proper_assign name good).andThen ?_
    intro _ _
    exact proper_pure good
  | logical left operator right =>
    obtain ⟨properLeft, properRight⟩ := Bool.and_eq_true_iff.mp proper
    refine (guarded.evaluate left properLeft).andThen ?_
    intro value good
    split
    · exact proper_pure good
    · exact guarded.evaluate right properRight
  | unary operator right =>
    obtain ⟨sign, properRight⟩ := Bool.and_eq_true_iff.mp proper
    refine (guarded.evaluate right properRight).andThen ?_
    intro value _
    have known := Answer.ofUnary_ne_unknown operator.kind value
    refine (proper_mark (.unary operator value) sign).andThen ?_
    intro _ _
    exact proper_answer operator known fun _ => Answer.written_ofUnary
  | binary left operator right =>
    obtain ⟨properBoth, properRight⟩ := Bool.and_eq_true_iff.mp proper
    obtain ⟨sign, properLeft⟩ := Bool.and_eq_true_iff.mp properBoth
    refine (guarded.evaluate left properLeft).andThen ?_
    intro first _
    refine (guarded.evaluate right properRight).andThen ?_
    intro second _
    have known := Answer.ofBinary_ne_unknown sign first second
    refine (proper_mark (.binary operator first second) sign).andThen ?_
    intro _ _
    exact proper_answer operator known fun _ => Answer.written_ofBinary
  | call callee paren arguments =>
    obtain ⟨properCallee, properArguments⟩ := Bool.and_eq_true_iff.mp proper
    refine (guarded.evaluate callee properCallee).andThen ?_
    intro callee good
    refine (guarded.evaluateAll arguments properArguments).andThen ?_
    intro values all
    cases callee with
    | function name params body closure =>
      refine (proper_checkArity paren _ _).andThen ?_
      intro _ _
      exact (guarded.callFunction name params body closure values good all).asCall _ paren ⟨good, all⟩
    | native native =>
      refine (proper_checkArity paren _ _).andThen ?_
      intro _ _
      exact (proper_ask orderly native all).asCall _ paren ⟨good, all⟩
    | text | number | bool | nil | uninitialized | returned => exact proper_fail paren _

theorem evaluateAll_succ (guarded : Guarded world fuel) (exprs : List Expr)
    (proper : Expr.allProper exprs = true) :
    Proper (fun values => ∀ value ∈ values, value.Proper)
      (Machine.evaluateAll world (fuel + 1) exprs) := by
  cases exprs with
  | nil => exact proper_pure (List.forall_mem_nil _)
  | cons expr rest =>
    obtain ⟨properExpr, properRest⟩ := Bool.and_eq_true_iff.mp proper
    refine (guarded.evaluate expr properExpr).andThen ?_
    intro value good
    refine (guarded.evaluateAll rest properRest).andThen ?_
    intro values all
    exact proper_pure (List.forall_mem_cons.mpr ⟨good, all⟩)

theorem callFunction_succ (guarded : Guarded world fuel) (name : Token) (params : List Token)
    (body : List Stmt) (closure : ScopeId) (arguments : List Value)
    (proper : Stmt.allProper body = true) (good : ∀ argument ∈ arguments, argument.Proper) :
    Proper Value.Proper
      (Machine.callFunction world (fuel + 1) name params body closure arguments) := by
  have bound : ∀ name value, (Bindings.ofArguments params arguments).get? name = some value →
      value.Proper := fun _ value found => good value (Bindings.get?_ofArguments found)
  refine ((guarded.executeAll body proper).opened closure bound (proper_noteEntry name params)).andThen ?_
  intro returned all
  apply proper_pure
  cases returned with
  | none => exact trivial
  | some value => exact all value rfl

theorem execute_succ (guarded : Guarded world fuel) (stmt : Stmt) (proper : stmt.proper = true) :
    Proper (fun returned => ∀ value ∈ returned, value.Proper)
      (Machine.execute world (fuel + 1) stmt) := by
  cases stmt with
  | expression expr =>
    refine (guarded.evaluate expr proper).andThen ?_
    intro _ _
    exact proper_nothing
  | print expr =>
    refine (guarded.evaluate expr proper).andThen ?_
    intro value _
    refine (proper_note fun _ same => by cases same).andThen ?_
    intro _ _
    exact proper_nothing
  | declare name expr =>
    refine (guarded.evaluate expr proper).andThen ?_
    intro value good
    refine (proper_define name good).andThen ?_
    intro _ _
    exact proper_nothing
  | block body =>
    refine proper_here.andThen ?_
    intro here _
    have nothing (name : String) (value : Value) (found : Bindings.get? [] name = some value) :
        value.Proper := by
      cases found
    have enters (scope : ScopeId) : Proper (fun _ => True) (step (pure ())) :=
      proper_still (fun _ _ final => (Option.some.inj final).symm) fun _ _ _ _ _ => trivial
    exact (guarded.executeAll body proper).opened here nothing enters
  | branch condition yes no =>
    cases no with
    | none =>
      obtain ⟨properCondition, properYes⟩ := Bool.and_eq_true_iff.mp proper
      refine (guarded.evaluate condition properCondition).andThen ?_
      intro value _
      split
      · exact guarded.execute yes properYes
      · exact proper_nothing
    | some no =>
      obtain ⟨properBoth, properNo⟩ := Bool.and_eq_true_iff.mp proper
      obtain ⟨properCondition, properYes⟩ := Bool.and_eq_true_iff.mp properBoth
      refine (guarded.evaluate condition properCondition).andThen ?_
      intro value _
      split
      · exact guarded.execute yes properYes
      · exact guarded.execute no properNo
  | loop condition body =>
    obtain ⟨properCondition, properBody⟩ := Bool.and_eq_true_iff.mp proper
    refine (guarded.evaluate condition properCondition).andThen ?_
    intro value _
    split
    · refine (guarded.execute body properBody).andThen ?_
      intro returned all
      cases returned with
      | none => exact guarded.execute (.loop condition body) proper
      | some value => exact proper_pure all
    · exact proper_nothing
  | function name params body =>
    refine proper_here.andThen ?_
    intro here _
    have good : (Value.function name params body here).Proper := proper
    refine (proper_define name good).andThen ?_
    intro _ _
    exact proper_nothing
  | ret keyword value =>
    cases value with
    | none =>
      apply proper_pure
      intro value member
      cases member
      exact trivial
    | some expr =>
      refine (guarded.evaluate expr proper).andThen ?_
      intro value good
      apply proper_pure
      intro other member
      cases member
      exact good

theorem executeAll_succ (guarded : Guarded world fuel) (stmts : List Stmt)
    (proper : Stmt.allProper stmts = true) :
    Proper (fun returned => ∀ value ∈ returned, value.Proper)
      (Machine.executeAll world (fuel + 1) stmts) := by
  cases stmts with
  | nil => exact proper_nothing
  | cons stmt rest =>
    obtain ⟨properStmt, properRest⟩ := Bool.and_eq_true_iff.mp proper
    refine (guarded.execute stmt properStmt).andThen ?_
    intro returned all
    cases returned with
    | none => exact guarded.executeAll rest properRest
    | some value => exact proper_pure all

end Guarded

/-- Whatever the fuel, what proper pieces of programs do is proper. -/
theorem guarded {world : World} (orderly : world.host.Orderly) (fuel : Nat) :
    Guarded world fuel := by
  induction fuel with
  | zero =>
    exact ⟨fun _ _ => proper_spent, fun _ _ => proper_spent, fun _ _ _ _ _ _ _ => proper_spent,
      fun _ _ => proper_spent, fun _ _ => proper_spent⟩
  | succ fuel guarded =>
    exact ⟨guarded.evaluate_succ orderly, guarded.evaluateAll_succ, guarded.callFunction_succ,
      guarded.execute_succ, guarded.executeAll_succ⟩

/-- A statement of the top level gives nothing on its way out. -/
theorem finished_none {world : World} {fuel : Nat} {stmt : Stmt} (plain : stmt.straight = true)
    {state after : State} {returned : Option Value}
    (out : (Machine.execute (M := Recorded) world fuel stmt state).outcome = .done returned after) : returned = none := by
  rw [((erases_parallel world).upto fuel).execute stmt state] at out
  exact (Machine.straight world fuel).1 stmt plain state returned after out

theorem runAll_proper {world : World} (orderly : world.host.Orderly) (fuel : Nat)
    (program : Program) (proper : Stmt.allProper program = true)
    (plain : Stmt.allStraight program = true) :
    ∀ result, Proper (fun _ => True) (Machine.runAll world fuel result program) := by
  have guarded := guarded orderly fuel
  induction program with
  | nil => exact fun result => proper_pure trivial
  | cons stmt rest ih =>
    intro result
    obtain ⟨properStmt, properRest⟩ := Bool.and_eq_true_iff.mp proper
    obtain ⟨plainStmt, plainRest⟩ := Bool.and_eq_true_iff.mp plain
    cases stmt with
    | expression expr =>
      refine (guarded.evaluate expr properStmt).andThen ?_
      intro value _
      exact ih properRest plainRest (some value)
    | print | declare | block | branch | loop | function | ret =>
      have silent : Proper (fun returned => returned = none) (Machine.execute world fuel _) :=
        fun state start => ⟨(guarded.execute _ properStmt state start).deeds,
          (guarded.execute _ properStmt state start).state, fun _ _ => finished_none plainStmt⟩
      refine silent.andThen ?_
      rintro _ rfl
      refine (proper_mark (.finished none) rfl).andThen ?_
      intro _ _
      exact ih properRest plainRest result

end Recorded

theorem State.initial_proper (config : Config) (natives : List Native) :
    (State.initial config natives).Proper := by
  refine ⟨?_, fun operator member => by cases member⟩
  intro id name value found
  unfold State.initial at found
  rw [Store.bindings_extend] at found
  split at found
  · rcases Bindings.get?_foldl_set _ _ _ _ found with nothing | ⟨native, _, rfl⟩
    · cases nothing
    · exact trivial
  · cases found

namespace World

/-- All that is done where programs are run one after another, each from where the last one ended, up
to one that does not end. -/
def record (world : World) (fuel : Nat) : List Program → State → List Deed
  | [], state => [.passed state]
  | program :: rest, state =>
    .passed state :: (Machine.runAll (M := Recorded) world fuel none program state).deeds ++
      match world.interpret? fuel program state with
      | some verdict => record world fuel rest verdict.state
      | none => []

variable {world : World}

theorem interpret?_proper (orderly : world.host.Orderly) {fuel : Nat} {program : Program}
    (proper : Stmt.allProper program = true) (plain : Stmt.allStraight program = true)
    {state : State} (start : state.Proper) {verdict : Verdict}
    (ran : world.interpret? fuel program state = some verdict) : verdict.state.Proper := by
  have recorded := Recorded.runAll_proper orderly fuel program proper plain none state start
  have left := recorded.state
  rw [Recorded.runAll_erases world fuel program none state] at left
  unfold interpret? runAll at ran
  split at ran
  · rename_i out
    cases ran
    exact left _ (Outcome.final?_of_done out)
  · rename_i out
    cases ran
    exact (left _ (Outcome.final?_of_fault out)).report _
  · cases ran

theorem record_proper (orderly : world.host.Orderly) (fuel : Nat) (programs : List Program)
    (proper : ∀ program ∈ programs, Stmt.allProper program = true)
    (plain : ∀ program ∈ programs, Stmt.allStraight program = true) :
    ∀ state : State, state.Proper → ∀ deed ∈ world.record fuel programs state, deed.Proper := by
  induction programs with
  | nil =>
    intro state start deed member
    rw [List.mem_singleton.mp member]
    exact start
  | cons program rest ih =>
    intro state start
    obtain ⟨properProgram, properRest⟩ := List.forall_mem_cons.mp proper
    obtain ⟨plainProgram, plainRest⟩ := List.forall_mem_cons.mp plain
    have during := (Recorded.runAll_proper orderly fuel program properProgram plainProgram none state
      start).deeds
    refine List.forall_mem_append.mpr ⟨List.forall_mem_cons.mpr ⟨start, during⟩, ?_⟩
    intro deed member
    split at member
    · rename_i verdict ran
      have there := interpret?_proper orderly properProgram plainProgram start ran
      exact ih properRest plainRest verdict.state there deed member
    · cases member

/-- Texts that are programs, run one after another from a fresh start, under either policy, whatever
the bound on calls and the fuel. The record of it is kept beside the runs and changes nothing. By it
no name is ever bound to a value on its way out of a function, no such value is passed to a call, and
no expression comes to one; statements of the top level give nothing on their way out; no two numbers
meet an operator that is none for numbers; no unary operator falls back to nil, and a binary one gives
nil for nothing but two texts, and where it orders them. -/
theorem defences_unneeded (world : World) (orderly : world.host.Orderly) (natives : List Native)
    (fuel : Nat) (programs : List Program)
    (reads : ∀ program ∈ programs, ∃ text, Program.ofSource text = .ok program) :
    let record := world.record fuel programs (.initial world.config natives)
    (∀ result program state,
      (Machine.runAll (M := Recorded) world fuel result program state).outcome =
        Machine.runAll (M := Run) world fuel result program state) ∧
    (∀ state, .passed state ∈ record →
      (∀ id name value, (state.store.bindings id).get? name ≠ some (.returned value)) ∧
      ∀ operator, .noOperator operator ∉ state.trace.toList) ∧
    (∀ invocation, .called invocation ∈ record →
      ∀ argument ∈ invocation.arguments, ∀ value, argument ≠ .returned value) ∧
    (∀ given, .gave given ∈ record → ∀ value, given ≠ .returned value) ∧
    (∀ returned, .noted (.finished returned) ∈ record → returned = none) ∧
    (∀ operator right, .noted (.unary operator right) ∈ record →
      Answer.ofUnary operator.kind right ≠ .value .nil) ∧
    ∀ operator left right, .noted (.binary operator left right) ∈ record →
      Answer.ofBinary operator.kind left right ≠ .unknown ∧
      (Answer.ofBinary operator.kind left right = .value .nil →
        (∃ s t, left = .text s ∧ right = .text t) ∧
          operator.kind ∈ [Kind.greater, .greaterEqual, .less, .lessEqual]) := by
  intro record
  have derived : ∀ program ∈ programs, ∃ tokens,
      Sentence.Derives false (.declarations program) tokens := by
    intro program member
    obtain ⟨text, read⟩ := reads program member
    exact ⟨_, ((Program.ofSource_eq_ok_iff text program).mp read).2⟩
  have all := record_proper orderly fuel programs
    (fun program member => (derived program member).elim fun _ derives => derives.proper)
    (fun program member => (derived program member).elim fun _ derives => derives.straight rfl)
    _ (State.initial_proper world.config natives)
  refine ⟨fun result program state => Recorded.runAll_erases world fuel program result state, ?_, ?_,
    ?_, ?_, ?_, ?_⟩
  · intro state member
    have proper : state.Proper := all _ member
    refine ⟨?_, proper.known⟩
    intro id name value found
    exact proper.bound id name _ found
  · intro invocation member argument given
    exact ((all _ member).2 argument given).not_returned
  · intro given member
    exact Value.Proper.not_returned (all _ member)
  · intro returned member
    exact all _ member
  · intro operator right member
    exact Answer.ofUnary_ne_nil (all _ member) right
  · intro operator left right member
    exact ⟨Answer.ofBinary_ne_unknown (all _ member) left right,
      Answer.texts_of_ofBinary (all _ member)⟩

theorem bare_orderly : bare.host.Orderly where
  settled count native arguments value answer := by
    rw [bare_answerAfter] at answer
    cases answer
  functions count native arguments _ _ _ _ answer := by
    rw [bare_answerAfter] at answer
    cases answer

def ordersTexts : Deed → Bool
  | .noted (.binary operator (.text _) (.text _)) => operator.kind == .less
  | _ => false

/-- A function that orders its argument and a text, and a call of it from the next program. -/
theorem defences_unneeded_orderedTexts :
    ∃ first second operator s t, Program.ofSource "fun f(x) \x7b return x < \"b\"; \x7d" = .ok first ∧
      Program.ofSource "print f(\"a\");" = .ok second ∧ bare.host.Orderly ∧
      .noted (.binary operator (.text s) (.text t)) ∈
        bare.record 9 [first, second] (.initial bare.config []) ∧
      Answer.ofBinary operator.kind (.text s) (.text t) = .value .nil ∧
      operator.kind ∈ [Kind.greater, .greaterEqual, .less, .lessEqual] := by
  let first := (Program.ofSource "fun f(x) \x7b return x < \"b\"; \x7d").toOption.get
    (by decide +kernel)
  let second := (Program.ofSource "print f(\"a\");").toOption.get (by decide +kernel)
  have readsFirst : Program.ofSource "fun f(x) \x7b return x < \"b\"; \x7d" = .ok first :=
    Program.eq_ok_get _ _
  have readsSecond : Program.ofSource "print f(\"a\");" = .ok second := Program.eq_ok_get _ _
  have reads : ∀ program ∈ [first, second], ∃ text, Program.ofSource text = .ok program := by
    intro program member
    rcases List.mem_cons.mp member with rfl | later
    · exact ⟨_, readsFirst⟩
    · rw [List.mem_singleton.mp later]
      exact ⟨_, readsSecond⟩
  have there : ((bare.record 9 [first, second] (.initial bare.config [])).find?
      ordersTexts).isSome := by
    decide +kernel
  obtain ⟨deed, found⟩ := Option.isSome_iff_exists.mp there
  have member := List.mem_of_find?_eq_some found
  have shape : ordersTexts deed = true := List.find?_some found
  obtain ⟨operator, s, t, less, rfl⟩ : ∃ operator s t, operator.kind = .less ∧
      deed = .noted (.binary operator (.text s) (.text t)) := by
    unfold ordersTexts at shape
    split at shape
    · exact ⟨_, _, _, beq_iff_eq.mp shape, rfl⟩
    · cases shape
  have nil : Answer.ofBinary operator.kind (.text s) (.text t) = .value .nil := by
    rw [less]
    rfl
  have known := defences_unneeded bare bare_orderly [] 9 [first, second] reads
  obtain ⟨_, _, _, _, _, _, binary⟩ := known
  exact ⟨first, second, operator, s, t, readsFirst, readsSecond, bare_orderly, member, nil,
    ((binary operator _ _ member).2 nil).2⟩

end World

end Lox
