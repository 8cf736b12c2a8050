import Mathlib.Order.Filter.AtTopBot.Basic
import Lox.Proofs.Policy
import Lox.Proofs.Plain

set_option autoImplicit false

/- The bound on calls says how much deeper they may still nest, and below a call whatever is run is a
part of the tree that is being run. So the end is found by induction on the calls that there is room
for, and at each depth along the tree. -/

namespace Lox

open Filter

mutual

def Value.loopless : Value → Bool
  | .returned value => value.loopless
  | .function _ _ body _ => Stmt.allLoopless body
  | .text _ | .number _ | .bool _ | .nil | .uninitialized | .native _ => true

def Expr.loopless : Expr → Bool
  | .assign _ value => value.loopless
  | .binary left _ right => left.loopless && right.loopless
  | .call callee _ arguments => callee.loopless && Expr.allLoopless arguments
  | .grouping inner => inner.loopless
  | .literal value => value.loopless
  | .logical left _ right => left.loopless && right.loopless
  | .unary _ right => right.loopless
  | .var _ => true

def Expr.allLoopless : List Expr → Bool
  | [] => true
  | expr :: rest => expr.loopless && Expr.allLoopless rest

/-- Whether a statement holds no loop, in the bodies of functions neither. -/
def Stmt.loopless : Stmt → Bool
  | .block body => Stmt.allLoopless body
  | .expression value => value.loopless
  | .function _ _ body => Stmt.allLoopless body
  | .branch condition yes none => condition.loopless && yes.loopless
  | .branch condition yes (some no) => condition.loopless && yes.loopless && no.loopless
  | .print value => value.loopless
  | .ret _ none => true
  | .ret _ (some value) => value.loopless
  | .declare _ value => value.loopless
  | .loop .. => false

def Stmt.allLoopless : List Stmt → Bool
  | [] => true
  | stmt :: rest => stmt.loopless && Stmt.allLoopless rest

end

/-- Natives bring in no loops: what they answer to arguments without loops is without them too. -/
def Host.Loopless (host : Host) : Prop :=
  ∀ count native arguments, (∀ argument ∈ arguments, argument.loopless = true) →
    (host.answerAfter count native arguments).loopless = true

theorem Value.loopless_of_written {value : Value} (written : value.written = true) :
    value.loopless = true := by
  cases value <;> first | rfl | exact absurd written Bool.false_ne_true

/-- A state in which calls may nest so much deeper at most, and no loop is bound. -/
structure State.Roomy (limit : Int) (room : Nat) (state : State) : Prop where
  calls : limit ≤ state.calls + room
  bound : state.store.Binds fun value => value.loopless = true

/-- A run came to an end, and left such a state. -/
inductive Outcome.Halted {α : Type} (left : State → Prop) (post : α → Prop) : Outcome α → Prop
  | done {value : α} {state : State} (known : post value) (good : left state) :
      Halted left post (.done value state)
  | fault {reason : Fault} {state : State} (good : left state) :
      Halted left post (.fault reason state)

namespace Run

/-- From every roomy state the runs come to one end, if they are given enough fuel. -/
def Halts {α : Type} (limit : Int) (room : Nat) (post : α → Prop) (runs : Nat → Run α) : Prop :=
  ∀ state : State, state.Roomy limit room → ∃ outcome : Outcome α,
    outcome.Halted (State.Roomy limit room) post ∧ ∀ᶠ fuel in atTop, runs fuel state = outcome

variable {α β : Type} {limit : Int} {room : Nat} {post : α → Prop} {runs : Nat → Run α}

/-- What holds with one more unit of fuel for each run holds without. -/
theorem Halts.succ (halts : Halts limit room post fun fuel => runs (fuel + 1)) :
    Halts limit room post runs := by
  intro state roomy
  obtain ⟨outcome, halted, enough⟩ := halts state roomy
  refine ⟨outcome, halted, ?_⟩
  rw [← map_add_atTop_eq_nat 1]
  exact enough

theorem halts_step {run : Run α} (ends : ∀ state : State, state.Roomy limit room →
    (run state).Halted (State.Roomy limit room) post) : Halts limit room post fun _ => run :=
  fun state roomy => ⟨run state, ends state roomy, .of_forall fun _ => rfl⟩

theorem halts_pure {value : α} (known : post value) :
    Halts limit room post fun _ => (pure value : Run α) :=
  halts_step fun _ roomy => .done known roomy

theorem halts_nothing : Halts limit room
    (fun returned : Option Value => ∀ value ∈ returned, value.loopless = true)
    fun _ => (pure none : Run (Option Value)) := by
  apply halts_pure
  intro value member
  cases member

theorem halts_fail (token : Token) (cause : Cause) :
    Halts limit room post fun _ => (fail token cause : Run α) :=
  halts_step fun _ roomy => .fault roomy

theorem halts_record (event : State → Event) {value : α} (known : post value) :
    Halts limit room post fun _ state => .done value (state.add (event state)) :=
  halts_step fun _ roomy => .done known ⟨roomy.calls, roomy.bound⟩

theorem halts_note (event : Event) : Halts limit room (fun _ => True) fun _ => note event :=
  halts_record (fun _ => event) trivial

theorem halts_here : Halts limit room (fun _ => True) fun _ => here :=
  halts_step fun _ roomy => .done trivial roomy

theorem halts_lookUp (name : Token) :
    Halts limit room (fun value => value.loopless = true) fun _ => lookUp name := by
  apply halts_step
  intro state roomy
  unfold lookUp
  split
  · rename_i value found
    exact .done (roomy.bound.get? found) roomy
  · exact .fault roomy

theorem halts_define (name : Token) {value : Value} (known : value.loopless = true) :
    Halts limit room (fun _ => True) fun _ => define name value :=
  halts_step fun _ roomy => .done trivial ⟨roomy.calls, roomy.bound.define _ _ known⟩

theorem halts_assign (name : Token) {value : Value} (known : value.loopless = true) :
    Halts limit room (fun _ => True) fun _ => assign name value := by
  apply halts_step
  intro state roomy
  unfold assign
  split
  · exact .done trivial ⟨roomy.calls, roomy.bound.define _ _ known⟩
  · exact .fault roomy

theorem halts_extend (enclosing : ScopeId) {bindings : Bindings}
    (known : ∀ name value, bindings.get? name = some value → value.loopless = true) :
    Halts limit room (fun _ => True) fun _ => extend enclosing bindings :=
  halts_step fun _ roomy => .done trivial ⟨roomy.calls, roomy.bound.extend _ known⟩

theorem halts_checkArity (paren : Token) (expected : Option Nat) (given : Nat) :
    Halts limit room (fun _ => True) fun _ => checkArity paren expected given := by
  unfold checkArity
  split
  · exact halts_pure trivial
  · split
    · exact halts_pure trivial
    · exact halts_fail paren _

theorem halts_answer {answer : Answer} (operator : Token)
    (known : ∀ value, answer = .value value → value.written = true) :
    Halts limit room (fun value => value.loopless = true) fun _ => answer.run operator := by
  cases answer with
  | value value => exact halts_pure (Value.loopless_of_written (known value rfl))
  | refused cause => exact halts_fail operator cause
  | unknown => exact halts_record (fun _ => .noOperator operator) rfl

theorem Halts.andThen {mid : β → Prop} {firsts : Nat → Run β} {nexts : Nat → β → Run α}
    (first : Halts limit room mid firsts)
    (rest : ∀ value, mid value → Halts limit room post fun fuel => nexts fuel value) :
    Halts limit room post fun fuel => firsts fuel >>= nexts fuel := by
  intro state roomy
  obtain ⟨outcome, halted, enough⟩ := first state roomy
  cases halted with
  | @done value middle known good =>
    obtain ⟨last, ended, later⟩ := rest value known middle good
    refine ⟨last, ended, ?_⟩
    filter_upwards [enough, later] with fuel one other
    simp only [bind_eq, Run.andThen, one, other]
  | @fault reason middle good =>
    refine ⟨.fault reason middle, .fault good, ?_⟩
    filter_upwards [enough] with fuel one
    simp only [bind_eq, Run.andThen, one]

theorem Halts.within (scope : ScopeId) (halts : Halts limit room post runs) :
    Halts limit room post fun fuel => (runs fuel).within scope := by
  intro state roomy
  obtain ⟨outcome, halted, enough⟩ :=
    halts { state with current := scope } ⟨roomy.calls, roomy.bound⟩
  refine ⟨outcome.mapState fun after => { after with current := state.current }, ?_, ?_⟩
  · cases halted with
    | done known good => exact .done known ⟨good.calls, good.bound⟩
    | fault good => exact .fault ⟨good.calls, good.bound⟩
  · filter_upwards [enough] with fuel same
    rw [within_eq, same]

theorem Halts.opened {enclosing : ScopeId} {bindings : Bindings} {entry : ScopeId → Run Unit}
    (known : ∀ name value, bindings.get? name = some value → value.loopless = true)
    (enters : ∀ scope, Halts limit room (fun _ => True) fun _ => entry scope)
    (halts : Halts limit room post runs) :
    Halts limit room post fun fuel => Machine.opened enclosing bindings entry (runs fuel) := by
  apply (halts_extend enclosing known).andThen
  intro scope _
  apply (enters scope).andThen
  intro _ _
  exact halts.within scope

/-- Without room a call does not begin. -/
theorem halts_asCall_refused (config : Config) (paren : Token) :
    Halts config.maxDepth 0 post fun fuel => (runs fuel).asCall config paren := by
  intro state roomy
  have deep : config.maxDepth ≤ state.calls := by
    have calls := roomy.calls
    omega
  refine ⟨.fault ⟨paren, .stackOverflow⟩ state, .fault roomy, .of_forall fun fuel => ?_⟩
  exact asCall_refused paren (runs fuel) deep

/-- A call takes one from the room that there is. -/
theorem Halts.asCall {config : Config} (paren : Token)
    (halts : Halts config.maxDepth room post runs) :
    Halts config.maxDepth (room + 1) post fun fuel => (runs fuel).asCall config paren := by
  intro state roomy
  by_cases deep : config.maxDepth ≤ state.calls
  · refine ⟨.fault ⟨paren, .stackOverflow⟩ state, .fault roomy, .of_forall fun fuel => ?_⟩
    exact asCall_refused paren (runs fuel) deep
  · have calls := roomy.calls
    have inside : State.Roomy config.maxDepth room { state with calls := state.calls + 1 } := by
      refine ⟨?_, roomy.bound⟩
      show config.maxDepth ≤ ((state.calls + 1 : Nat) : Int) + room
      omega
    have outside {after : State} (good : after.Roomy config.maxDepth room) :
        State.Roomy config.maxDepth (room + 1) { after with calls := after.calls - 1 } := by
      refine ⟨?_, good.bound⟩
      have left := good.calls
      show config.maxDepth ≤ ((after.calls - 1 : Nat) : Int) + (room + 1 : Nat)
      omega
    obtain ⟨outcome, halted, enough⟩ := halts _ inside
    refine ⟨outcome.mapState fun after => { after with calls := after.calls - 1 }, ?_, ?_⟩
    · cases halted with
      | done known good => exact .done known (outside good)
      | fault good => exact .fault (outside good)
    · filter_upwards [enough] with fuel same
      rw [asCall_begun paren (runs fuel) deep, same]

theorem Halts.settled {runs : Nat → Run Value} (policy : Policy)
    (halts : Halts limit room (fun value => value.loopless = true) runs) :
    Halts limit room (fun value => value.loopless = true)
      fun fuel => (runs fuel).settled policy := by
  intro state roomy
  obtain ⟨outcome, halted, enough⟩ := halts state roomy
  refine ⟨Run.settled policy (fun _ => outcome) state, ?_, ?_⟩
  · cases halted with
    | done known good => exact .done known good
    | fault good =>
      cases policy with
      | resume => exact .done rfl ⟨good.calls, good.bound⟩
      | abort => exact .fault good
  · filter_upwards [enough] with fuel same
    simp only [Run.settled, Run.recover, same]

theorem halts_ask {host : Host} {native : Native} {arguments : List Value}
    {known : Value → Prop} (answers : ∀ count, known (host.answerAfter count native arguments)) :
    Halts limit room known fun _ => Run.ask host native arguments := by
  intro state roomy
  have asked : State.Roomy limit room { state with asked := state.asked + 1 } :=
    ⟨roomy.calls, roomy.bound⟩
  exact ⟨_, .done (answers state.asked) asked, .of_forall fun _ => rfl⟩

/-- Natives end at once, if there is room to call them. -/
theorem halts_asCall_ask {config : Config} (paren : Token) {host : Host} {native : Native}
    {arguments : List Value} {known : Value → Prop}
    (answers : ∀ count, known (host.answerAfter count native arguments)) :
    Halts config.maxDepth room known
      fun _ => Run.asCall config paren (Run.ask host native arguments) := by
  cases room with
  | zero => exact halts_asCall_refused config paren
  | succ room => exact (halts_ask answers).asCall paren

end Run

/-- With so much room, calls of functions without loops come to an end. -/
def World.Callable (world : World) (room : Nat) : Prop :=
  ∀ (paren name : Token) (params : List Token) (body : List Stmt) (closure : ScopeId)
    (arguments : List Value), Stmt.allLoopless body = true →
    (∀ argument ∈ arguments, argument.loopless = true) →
    Run.Halts world.config.maxDepth room (fun value => value.loopless = true) fun fuel =>
      Run.asCall world.config paren
        (Machine.callFunction (M := Run) world fuel name params body closure arguments)

open Run Machine

section Parts

variable {world : World} {room : Nat}

mutual

theorem Expr.halts (host : world.host.Loopless) (callable : world.Callable room) :
    ∀ expr : Expr, expr.loopless = true →
      Halts world.config.maxDepth room (fun value => value.loopless = true)
        fun fuel => evaluate (M := Run) world fuel expr
  | .literal value, loopless => by
    have known : value.loopless = true := loopless
    apply Halts.succ
    exact Halts.settled world.config.policy (halts_pure known)
  | .grouping inner, loopless => by
    apply Halts.succ
    apply Halts.settled
    exact inner.halts host callable loopless
  | .var name, _ => by
    apply Halts.succ
    apply Halts.settled
    exact halts_lookUp name
  | .assign name expr, loopless => by
    apply Halts.succ
    apply Halts.settled
    apply (expr.halts host callable loopless).andThen
    intro value known
    apply (halts_assign name known).andThen
    intro _ _
    exact halts_pure known
  | .logical left operator right, loopless => by
    obtain ⟨leftLoopless, rightLoopless⟩ := Bool.and_eq_true_iff.mp loopless
    apply Halts.succ
    apply Halts.settled
    apply (left.halts host callable leftLoopless).andThen
    intro value known
    split
    · exact halts_pure known
    · exact right.halts host callable rightLoopless
  | .unary operator right, loopless => by
    apply Halts.succ
    apply Halts.settled
    apply (right.halts host callable loopless).andThen
    intro value _
    exact halts_answer operator fun _ => Answer.written_ofUnary
  | .binary left operator right, loopless => by
    obtain ⟨leftLoopless, rightLoopless⟩ := Bool.and_eq_true_iff.mp loopless
    apply Halts.succ
    apply Halts.settled
    apply (left.halts host callable leftLoopless).andThen
    intro first _
    apply (right.halts host callable rightLoopless).andThen
    intro second _
    exact halts_answer operator fun _ => Answer.written_ofBinary
  | .call callee paren arguments, loopless => by
    obtain ⟨calleeLoopless, argumentsLoopless⟩ := Bool.and_eq_true_iff.mp loopless
    apply Halts.succ
    apply Halts.settled
    apply (callee.halts host callable calleeLoopless).andThen
    intro value known
    apply (Expr.halts_all host callable arguments argumentsLoopless).andThen
    intro values knownAll
    cases value with
    | function name params body closure =>
      apply (halts_checkArity paren _ _).andThen
      intro _ _
      exact callable paren name params body closure values known knownAll
    | native native =>
      apply (halts_checkArity paren _ _).andThen
      intro _ _
      exact halts_asCall_ask paren fun count => host count native values knownAll
    | text | number | bool | nil | uninitialized | returned => exact halts_fail paren _

theorem Expr.halts_all (host : world.host.Loopless) (callable : world.Callable room) :
    ∀ exprs : List Expr, Expr.allLoopless exprs = true →
      Halts world.config.maxDepth room (fun values => ∀ value ∈ values, value.loopless = true)
        fun fuel => evaluateAll (M := Run) world fuel exprs
  | [], _ => (halts_pure (List.forall_mem_nil _)).succ
  | expr :: rest, loopless => by
    obtain ⟨exprLoopless, restLoopless⟩ := Bool.and_eq_true_iff.mp loopless
    apply Halts.succ
    apply (expr.halts host callable exprLoopless).andThen
    intro value known
    apply (Expr.halts_all host callable rest restLoopless).andThen
    intro values knownAll
    exact halts_pure (List.forall_mem_cons.mpr ⟨known, knownAll⟩)

end

mutual

theorem Stmt.halts (host : world.host.Loopless) (callable : world.Callable room) :
    ∀ stmt : Stmt, stmt.loopless = true →
      Halts world.config.maxDepth room (fun returned => ∀ value ∈ returned, value.loopless = true)
        fun fuel => execute (M := Run) world fuel stmt
  | .expression expr, loopless => by
    apply Halts.succ
    apply (expr.halts host callable loopless).andThen
    intro _ _
    exact halts_nothing
  | .print expr, loopless => by
    apply Halts.succ
    apply (expr.halts host callable loopless).andThen
    intro value _
    apply (halts_note (.printed value.print)).andThen
    intro _ _
    exact halts_nothing
  | .declare name expr, loopless => by
    apply Halts.succ
    apply (expr.halts host callable loopless).andThen
    intro value known
    apply (halts_define name known).andThen
    intro _ _
    exact halts_nothing
  | .block body, loopless => by
    apply Halts.succ
    apply halts_here.andThen
    intro here _
    exact (Stmt.halts_all host callable body loopless).opened nofun fun _ => halts_pure trivial
  | .branch condition yes none, loopless => by
    obtain ⟨conditionLoopless, yesLoopless⟩ := Bool.and_eq_true_iff.mp loopless
    apply Halts.succ
    apply (condition.halts host callable conditionLoopless).andThen
    intro value _
    split
    · exact yes.halts host callable yesLoopless
    · exact halts_nothing
  | .branch condition yes (some no), loopless => by
    obtain ⟨parts, noLoopless⟩ := Bool.and_eq_true_iff.mp loopless
    obtain ⟨conditionLoopless, yesLoopless⟩ := Bool.and_eq_true_iff.mp parts
    apply Halts.succ
    apply (condition.halts host callable conditionLoopless).andThen
    intro value _
    split
    · exact yes.halts host callable yesLoopless
    · exact no.halts host callable noLoopless
  | .function name params body, loopless => by
    apply Halts.succ
    apply halts_here.andThen
    intro here _
    have known : (Value.function name params body here).loopless = true := loopless
    apply (halts_define name known).andThen
    intro _ _
    exact halts_nothing
  | .ret _ none, _ => (halts_pure fun _ same => Option.some.inj same ▸ rfl).succ
  | .ret _ (some expr), loopless => by
    apply Halts.succ
    apply (expr.halts host callable loopless).andThen
    intro value known
    exact halts_pure fun _ same => Option.some.inj same ▸ known

theorem Stmt.halts_all (host : world.host.Loopless) (callable : world.Callable room) :
    ∀ stmts : List Stmt, Stmt.allLoopless stmts = true →
      Halts world.config.maxDepth room (fun returned => ∀ value ∈ returned, value.loopless = true)
        fun fuel => executeAll (M := Run) world fuel stmts
  | [], _ => halts_nothing.succ
  | stmt :: rest, loopless => by
    obtain ⟨stmtLoopless, restLoopless⟩ := Bool.and_eq_true_iff.mp loopless
    apply Halts.succ
    apply (stmt.halts host callable stmtLoopless).andThen
    intro returned known
    cases returned with
    | none => exact Stmt.halts_all host callable rest restLoopless
    | some value => exact halts_pure known

end

theorem Stmt.halts_program (host : world.host.Loopless) (callable : world.Callable room) :
    ∀ program : Program, Stmt.allLoopless program = true → ∀ result : Option Value,
      Halts world.config.maxDepth room (fun _ => True)
        fun fuel => runAll (M := Run) world fuel result program := by
  intro program
  induction program with
  | nil =>
    intro _ result
    exact halts_pure trivial
  | cons stmt rest ih =>
    intro loopless result
    obtain ⟨stmtLoopless, restLoopless⟩ := Bool.and_eq_true_iff.mp loopless
    cases stmt with
    | expression expr =>
      apply (expr.halts host callable stmtLoopless).andThen
      intro value _
      exact ih restLoopless (some value)
    | print | declare | block | branch | loop | function | ret =>
      apply (Stmt.halts host callable _ stmtLoopless).andThen
      intro returned _
      cases returned with
      | none => exact ih restLoopless result
      | some _ => exact halts_pure trivial

end Parts

namespace World

variable {world : World}

/-- The body of a called function is no part of the call, and may be what is being run; but it
runs with less room. -/
theorem callable (host : world.host.Loopless) (room : Nat) : world.Callable room := by
  induction room with
  | zero =>
    intro paren name params body closure arguments _ _
    exact halts_asCall_refused world.config paren
  | succ room ih =>
    intro paren name params body closure arguments loopless known
    apply Halts.asCall paren
    apply Halts.succ
    have bound (name : String) (value : Value)
        (found : (Bindings.ofArguments params arguments).get? name = some value) :
        value.loopless = true :=
      known value (Bindings.get?_ofArguments found)
    apply ((Stmt.halts_all host ih body loopless).opened bound fun _ =>
      halts_record _ trivial).andThen
    intro returned knownReturn
    cases returned with
    | none => exact halts_pure rfl
    | some value => exact halts_pure (knownReturn value rfl)

/-- A program without loops ends, run from any state in which no function with a loop is bound. -/
theorem ends_of_loopless (host : world.host.Loopless) (program : Program)
    (loopless : Stmt.allLoopless program = true) (state : State)
    (bound : state.store.Binds fun value => value.loopless = true) :
    ∃ verdict, world.Ends program state verdict ∧
      verdict.state.store.Binds fun value => value.loopless = true := by
  let room := (world.config.maxDepth - state.calls).toNat
  have roomy : state.Roomy world.config.maxDepth room := ⟨by omega, bound⟩
  have halts := Stmt.halts_program host (callable host room) program loopless none
  obtain ⟨outcome, halted, enough⟩ := halts state roomy
  obtain ⟨fuel, ends⟩ := enough.exists
  cases halted with
  | @done result after _ good =>
    refine ⟨⟨result, false, after⟩, ⟨fuel, ?_⟩, good.bound⟩
    simp only [interpret?, World.runAll, ends]
  | @fault reason after good =>
    refine ⟨⟨none, true, after.add (.reported reason)⟩, ⟨fuel, ?_⟩, good.bound⟩
    simp only [interpret?, World.runAll, ends]

/-- Two functions that call themselves and each other without end, one of them twice over, and a
call of a third that was never declared and calls one of them. -/
def forks : Program :=
  let word (lexeme : String) : Token := .plain .identifier lexeme 1
  let call (callee : Expr) : Stmt := .expression (.call callee (.plain .rightParen ")" 1) [])
  [.function (word "g") [] [call (.var (word "f")), call (.var (word "g"))],
    call (.literal (.function (word "h") [] [call (.var (word "g"))] State.globals)),
    .print (.literal (.text "end"))]

def forking : State :=
  let word (lexeme : String) : Token := .plain .identifier lexeme 1
  let call (callee : Expr) : Stmt := .expression (.call callee (.plain .rightParen ")" 1) [])
  let twice := [call (.var (word "f")), call (.var (word "f"))]
  let start := State.initial bare.config []
  { start with
    store := start.store.define State.globals "f" (.function (word "f") [] twice State.globals) }

theorem bare_loopless : bare.host.Loopless := by
  intro count native arguments _
  rw [bare_answerAfter]
  rfl

theorem ends_of_loopless_forks : Stmt.allLoopless forks = true ∧
    (∃ verdict, (bare.withPolicy .resume).Ends forks forking verdict ∧
      verdict.state.store.Binds fun value => value.loopless = true) ∧
    ∃ verdict, (bare.withPolicy .abort).Ends forks forking verdict ∧
      verdict.state.store.Binds fun value => value.loopless = true := by
  have host (policy : Policy) : (bare.withPolicy policy).host.Loopless := bare_loopless
  have loopless : Stmt.allLoopless forks = true := by decide +kernel
  have bound : forking.store.Binds fun value => value.loopless = true := by
    apply Store.binds_of_all
    decide +kernel
  exact ⟨loopless, ends_of_loopless (host .resume) forks loopless forking bound,
    ends_of_loopless (host .abort) forks loopless forking bound⟩

end World

end Lox
