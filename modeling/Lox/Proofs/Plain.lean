import Lox.Proofs.Operators
import Lox.Proofs.Parallel
import Lox.Proofs.Scopes

set_option autoImplicit false

namespace Lox

namespace Value

/-- The value itself, if it is one on its way out. -/
def core : Value → Value
  | .returned value => value.core
  | value => value

def closure? (value : Value) : Option ScopeId :=
  match value.core with
  | .function _ _ _ closure => some closure
  | _ => none

end Value

mutual

def Expr.plain : Expr → Bool
  | .assign _ value => value.plain
  | .binary left _ right => left.plain && right.plain
  | .call callee _ arguments => callee.plain && Expr.allPlain arguments
  | .grouping inner => inner.plain
  | .literal value => value.closure?.isNone
  | .logical left _ right => left.plain && right.plain
  | .unary _ right => right.plain
  | .var _ => true

def Expr.allPlain : List Expr → Bool
  | [] => true
  | expr :: rest => expr.plain && Expr.allPlain rest

/-- Whether no literal of a statement is a function, in the bodies of functions neither. -/
def Stmt.plain : Stmt → Bool
  | .block body => Stmt.allPlain body
  | .expression value => value.plain
  | .function _ _ body => Stmt.allPlain body
  | .branch condition yes none => condition.plain && yes.plain
  | .branch condition yes (some no) => condition.plain && yes.plain && no.plain
  | .print value => value.plain
  | .ret _ none => true
  | .ret _ (some value) => value.plain
  | .declare _ value => value.plain
  | .loop condition body => condition.plain && body.plain

def Stmt.allPlain : List Stmt → Bool
  | [] => true
  | stmt :: rest => stmt.plain && Stmt.allPlain rest

end

/-- A native may give back a function that it was given, and makes none. -/
def Host.HandsOn (host : Host) : Prop :=
  ∀ count native arguments name params body closure,
    (host.answerAfter count native arguments).core = .function name params body closure →
    ∃ argument ∈ arguments, argument.core = .function name params body closure

/-- If the value is a function, its body is plain and it was declared inside. -/
def Value.Tame (inside : ScopeId → Prop) (value : Value) : Prop :=
  ∀ name params body closure, value.core = .function name params body closure →
    Stmt.allPlain body = true ∧ inside closure

namespace Value

variable {inside wider : ScopeId → Prop} {value : Value}

theorem closure?_eq_some {closure : ScopeId} : value.closure? = some closure ↔
    ∃ name params body, value.core = .function name params body closure := by
  unfold closure?
  cases core : value.core <;> simp

theorem tame_of_closure?_none (none_there : value.closure? = none) : value.Tame inside := by
  intro name params body closure core
  have some_there := closure?_eq_some.mpr ⟨name, params, body, core⟩
  rw [none_there] at some_there
  cases some_there

theorem Tame.mono (tame : value.Tame inside) (more : ∀ id, inside id → wider id) :
    value.Tame wider := by
  intro name params body closure core
  obtain ⟨plain, declared⟩ := tame name params body closure core
  exact ⟨plain, more closure declared⟩

theorem Tame.inside_of_closure? {closure : ScopeId} (tame : value.Tame inside)
    (found : value.closure? = some closure) : inside closure := by
  obtain ⟨name, params, body, core⟩ := closure?_eq_some.mp found
  exact (tame name params body closure core).2

theorem tame_function {name : Token} {params : List Token} {body : List Stmt} {closure : ScopeId}
    (plain : Stmt.allPlain body = true) (declared : inside closure) :
    (Value.function name params body closure).Tame inside := by
  intro _ _ _ _ core
  cases core
  exact ⟨plain, declared⟩

end Value

theorem Host.HandsOn.tame {host : Host} (handsOn : host.HandsOn) {inside : ScopeId → Prop}
    {arguments : List Value} (tame : ∀ argument ∈ arguments, argument.Tame inside)
    (count : Nat) (native : Native) : (host.answerAfter count native arguments).Tame inside := by
  intro name params body closure core
  obtain ⟨argument, member, same⟩ := handsOn count native arguments name params body closure core
  exact tame argument member name params body closure same

theorem World.bare_handsOn : World.bare.host.HandsOn := by
  intro count native arguments name params body closure core
  rw [World.bare_answerAfter] at core
  cases core

theorem Bindings.get?_ofArguments {params : List Token} {arguments : List Value} {name : String}
    {value : Value} (found : (Bindings.ofArguments params arguments).get? name = some value) :
    value ∈ arguments := by
  have bound := Bindings.get?_foldl_set (fun pair : Token × Value => pair.1.lexeme) Prod.snd
    (params.zip arguments) [] found
  rcases bound with nothing | ⟨pair, member, rfl⟩
  · cases nothing
  · exact (List.of_mem_zip member).2

theorem Value.closure?_of_written {value : Value} (written : value.written = true) :
    value.closure? = none := by
  cases value <;> first | rfl | exact absurd written Bool.false_ne_true

/-- No operator gives a function. -/
theorem Answer.closure?_ofUnary {kind : Kind} {right value : Value}
    (same : Answer.ofUnary kind right = .value value) : value.closure? = none :=
  Value.closure?_of_written (Answer.written_ofUnary same)

theorem Answer.closure?_ofBinary {kind : Kind} {left right value : Value}
    (same : Answer.ofBinary kind left right = .value value) : value.closure? = none :=
  Value.closure?_of_written (Answer.written_ofBinary same)

def Value.Known (inside : Nat → ScopeId → Prop) (n : Nat) (value : Value) : Prop :=
  value.Tame (inside n)

def Value.KnownAll (inside : Nat → ScopeId → Prop) (n : Nat) (values : List Value) : Prop :=
  ∀ value ∈ values, value.Tame (inside n)

def Value.KnownReturn (inside : Nat → ScopeId → Prop) (n : Nat) (returned : Option Value) : Prop :=
  ∀ value ∈ returned, value.Tame (inside n)

namespace Value

variable {inside : Nat → ScopeId → Prop} {n : Nat}

theorem knownReturn_none : KnownReturn inside n none := by
  intro value member
  cases member

theorem knownReturn_some {value : Value} (known : value.Known inside n) :
    KnownReturn inside n (some value) := by
  intro other member
  cases member
  exact known

theorem knownAll_nil : KnownAll inside n [] := by
  intro value member
  cases member

theorem knownAll_cons {value : Value} {rest : List Value} (known : value.Known inside n)
    (others : KnownAll inside n rest) : KnownAll inside n (value :: rest) := by
  intro other member
  rcases List.mem_cons.mp member with rfl | later
  · exact known
  · exact others other later

end Value

open Machine

variable {M N : Type → Type} [Machine M] [Machine N]

/-- What an evaluator does to a relation between runs in two worlds. The relation is indexed by a
number of scopes that there are at least, and by what is known of the value at that number; a
scope that is inside stays so when there are more. -/
structure Discipline (left right : World) (inside : Nat → ScopeId → Prop)
    (P : (α : Type) → Nat → (Nat → α → Prop) → M α → N α → Prop) : Prop where
  grows {n m : Nat} {id : ScopeId} (more : n ≤ m) (declared : inside n id) : inside m id
  pure {α : Type} {n : Nat} {post : Nat → α → Prop} {value : α} (good : post n value) :
    P α n post (pure value) (pure value)
  give {α : Type} {n : Nat} {post : Nat → α → Prop} {value : α} (good : post n value) :
    P α n post (step fun state => .done value state) (step fun state => .done value state)
  record {α : Type} {n : Nat} {post : Nat → α → Prop} {value : α} (event : Event)
    (good : post n value) : P α n post (step fun state => .done value (state.add event))
      (step fun state => .done value (state.add event))
  spent {α : Type} {n : Nat} {post : Nat → α → Prop} :
    P α n post (step Run.spent) (step Run.spent)
  fail {α : Type} {n : Nat} {post : Nat → α → Prop} (token : Token) (cause : Cause) :
    P α n post (step (Run.fail token cause)) (step (Run.fail token cause))
  here {n : Nat} : P ScopeId n inside (step Run.here) (step Run.here)
  lookUp {n : Nat} (name : Token) :
    P Value n (Value.Known inside) (step (Run.lookUp name)) (step (Run.lookUp name))
  assign {n : Nat} {value : Value} (name : Token) (known : value.Known inside n) :
    P Unit n (fun _ _ => True) (step (Run.assign name value)) (step (Run.assign name value))
  define {n : Nat} {value : Value} (name : Token) (known : value.Known inside n) :
    P Unit n (fun _ _ => True) (step (Run.define name value)) (step (Run.define name value))
  noteEntry {n : Nat} {scope : ScopeId} (name : Token) (params : List Token)
    (declared : inside n scope) : P Unit n (fun _ _ => True)
      (step (Run.noteEntry name params scope)) (step (Run.noteEntry name params scope))
  ask {n : Nat} {arguments : List Value} (native : Native)
    (known : Value.KnownAll inside n arguments) : P Value n (Value.Known inside)
      (step (Run.ask left.host native arguments)) (step (Run.ask right.host native arguments))
  mark {n : Nat} (mark : Mark) :
    P Unit n (fun _ _ => True) (Machine.mark mark) (Machine.mark mark)
  frame {α : Type} {n : Nat} {post : Nat → α → Prop} {frame : Frame} {first : M α} {second : N α}
    (runs : P α n post first second) :
    P α n post (Machine.frame frame first) (Machine.frame frame second)
  andThen {α β : Type} {n : Nat} {mid : Nat → α → Prop} {post : Nat → β → Prop} {first : M α}
    {second : N α} {next : α → M β} {after : α → N β} (firsts : P α n mid first second)
    (nexts : ∀ m value, n ≤ m → mid m value → P β m post (next value) (after value)) :
    P β n post (first >>= next) (second >>= after)
  opened {α : Type} {n : Nat} {post : Nat → α → Prop} {enclosing : ScopeId} {bindings : Bindings}
    {entry : ScopeId → Run Unit} {first : M α} {second : N α} (declared : inside n enclosing)
    (known : ∀ name value, bindings.get? name = some value → value.Known inside n)
    (enters : ∀ m scope, n ≤ m → inside m scope →
      P Unit m (fun _ _ => True) (step (entry scope)) (step (entry scope)))
    (bodies : ∀ m, n ≤ m → P α m post first second) :
    P α n post (opened enclosing bindings entry first) (opened enclosing bindings entry second)
  asCall {α : Type} {n : Nat} {post : Nat → α → Prop} {paren : Token} {invocation : Invocation}
    {first : M α} {second : N α} (runs : P α n post first second) :
    P α n post (asCall left.config paren invocation first)
      (asCall right.config paren invocation second)
  settled {n : Nat} {first : M Value} {second : N Value}
    (runs : P Value n (Value.Known inside) first second) :
    P Value n (Value.Known inside) (settled left.config.policy first)
      (settled right.config.policy second)

structure Discipline.Upto (left right : World) (inside : Nat → ScopeId → Prop)
    (P : (α : Type) → Nat → (Nat → α → Prop) → M α → N α → Prop) (fuel : Nat) : Prop where
  evaluate (n : Nat) (expr : Expr) (plain : expr.plain = true) :
    P Value n (Value.Known inside) (evaluate left fuel expr) (evaluate right fuel expr)
  evaluateAll (n : Nat) (exprs : List Expr) (plain : Expr.allPlain exprs = true) :
    P (List Value) n (Value.KnownAll inside) (evaluateAll left fuel exprs)
      (evaluateAll right fuel exprs)
  callFunction (n : Nat) (name : Token) (params : List Token) (body : List Stmt)
    (closure : ScopeId) (arguments : List Value) (plain : Stmt.allPlain body = true)
    (declared : inside n closure) (known : Value.KnownAll inside n arguments) :
    P Value n (Value.Known inside)
      (callFunction left fuel name params body closure arguments)
      (callFunction right fuel name params body closure arguments)
  execute (n : Nat) (stmt : Stmt) (plain : stmt.plain = true) :
    P (Option Value) n (Value.KnownReturn inside) (execute left fuel stmt)
      (execute right fuel stmt)
  executeAll (n : Nat) (stmts : List Stmt) (plain : Stmt.allPlain stmts = true) :
    P (Option Value) n (Value.KnownReturn inside) (executeAll left fuel stmts)
      (executeAll right fuel stmts)

namespace Discipline

variable {left right : World} {inside : Nat → ScopeId → Prop}
  {P : (α : Type) → Nat → (Nat → α → Prop) → M α → N α → Prop} {fuel : Nat}

theorem known_of_le (discipline : Discipline left right inside P) {n m : Nat} (more : n ≤ m)
    {value : Value} (known : value.Known inside n) : value.Known inside m :=
  known.mono fun _ => discipline.grows more

theorem knownAll_of_le (discipline : Discipline left right inside P) {n m : Nat} (more : n ≤ m)
    {values : List Value} (known : Value.KnownAll inside n values) :
    Value.KnownAll inside m values :=
  fun value member => discipline.known_of_le more (known value member)

theorem answer (discipline : Discipline left right inside P) (answer : Answer) (operator : Token)
    (n : Nat) (tame : ∀ value, answer = .value value → value.closure? = none) :
    P Value n (Value.Known inside) (step (answer.run operator)) (step (answer.run operator)) := by
  cases answer with
  | value value => exact discipline.give (Value.tame_of_closure?_none (tame value rfl))
  | refused cause => exact discipline.fail operator cause
  | unknown => exact discipline.record _ (Value.tame_of_closure?_none rfl)

theorem note (discipline : Discipline left right inside P) (n : Nat) (event : Event) :
    P Unit n (fun _ _ => True) (step (Run.note event)) (step (Run.note event)) :=
  discipline.record event trivial

theorem checkArity (discipline : Discipline left right inside P) (n : Nat) (paren : Token)
    (expected : Option Nat) (given : Nat) :
    P Unit n (fun _ _ => True) (step (Run.checkArity paren expected given))
      (step (Run.checkArity paren expected given)) := by
  unfold Run.checkArity
  split
  · exact discipline.give trivial
  · split
    · exact discipline.give trivial
    · exact discipline.fail paren _

theorem evaluate_succ (discipline : Discipline left right inside P)
    (upto : Upto left right inside P fuel) (n : Nat) (expr : Expr) (plain : expr.plain = true) :
    P Value n (Value.Known inside) (evaluate left (fuel + 1) expr)
      (evaluate right (fuel + 1) expr) := by
  apply discipline.frame
  apply discipline.settled
  cases expr with
  | literal value =>
    exact discipline.pure (Value.tame_of_closure?_none (Option.isNone_iff_eq_none.mp plain))
  | grouping inner => exact upto.evaluate n inner plain
  | var name => exact discipline.lookUp name
  | assign name expr =>
    apply discipline.andThen (upto.evaluate n expr plain)
    intro m value _ known
    apply discipline.andThen (discipline.assign name known)
    intro k _ more _
    exact discipline.pure (discipline.known_of_le more known)
  | logical first operator second =>
    obtain ⟨plainFirst, plainSecond⟩ := Bool.and_eq_true_iff.mp plain
    apply discipline.andThen (upto.evaluate n first plainFirst)
    intro m value _ known
    split
    · exact discipline.pure known
    · exact upto.evaluate m second plainSecond
  | unary operator operand =>
    apply discipline.andThen (upto.evaluate n operand plain)
    intro m value _ _
    apply discipline.andThen (discipline.mark _)
    intro k _ _ _
    exact discipline.answer _ operator k fun _ => Answer.closure?_ofUnary
  | binary first operator second =>
    obtain ⟨plainFirst, plainSecond⟩ := Bool.and_eq_true_iff.mp plain
    apply discipline.andThen (upto.evaluate n first plainFirst)
    intro m value _ _
    apply discipline.andThen (upto.evaluate m second plainSecond)
    intro k other _ _
    apply discipline.andThen (discipline.mark _)
    intro l _ _ _
    exact discipline.answer _ operator l fun _ => Answer.closure?_ofBinary
  | call callee paren arguments =>
    obtain ⟨plainCallee, plainArguments⟩ := Bool.and_eq_true_iff.mp plain
    apply discipline.andThen (upto.evaluate n callee plainCallee)
    intro m callee _ tame
    apply discipline.andThen (discipline.frame (upto.evaluateAll m arguments plainArguments))
    intro k values more known
    cases callee with
    | function name params body closure =>
      apply discipline.andThen (discipline.checkArity k paren _ _)
      intro l _ later _
      obtain ⟨plainBody, declared⟩ := tame name params body closure rfl
      apply discipline.asCall
      exact upto.callFunction l name params body closure values plainBody
        (discipline.grows (Nat.le_trans more later) declared)
        (discipline.knownAll_of_le later known)
    | native native =>
      apply discipline.andThen (discipline.checkArity k paren _ _)
      intro l _ later _
      apply discipline.asCall
      exact discipline.ask native (discipline.knownAll_of_le later known)
    | text | number | bool | nil | uninitialized | returned =>
      exact discipline.fail paren .notCallable

theorem evaluateAll_succ (discipline : Discipline left right inside P)
    (upto : Upto left right inside P fuel) (n : Nat) (exprs : List Expr)
    (plain : Expr.allPlain exprs = true) :
    P (List Value) n (Value.KnownAll inside)
      (evaluateAll left (fuel + 1) exprs) (evaluateAll right (fuel + 1) exprs) := by
  cases exprs with
  | nil => exact discipline.pure Value.knownAll_nil
  | cons expr rest =>
    obtain ⟨plainExpr, plainRest⟩ := Bool.and_eq_true_iff.mp plain
    apply discipline.andThen (upto.evaluate n expr plainExpr)
    intro m value _ known
    apply discipline.andThen (upto.evaluateAll m rest plainRest)
    intro k values more others
    exact discipline.pure (Value.knownAll_cons (discipline.known_of_le more known) others)

theorem callFunction_succ (discipline : Discipline left right inside P)
    (upto : Upto left right inside P fuel) (n : Nat) (name : Token) (params : List Token)
    (body : List Stmt) (closure : ScopeId) (arguments : List Value)
    (plain : Stmt.allPlain body = true) (declared : inside n closure)
    (known : Value.KnownAll inside n arguments) :
    P Value n (Value.Known inside)
      (callFunction left (fuel + 1) name params body closure arguments)
      (callFunction right (fuel + 1) name params body closure arguments) := by
  let bindings := Bindings.ofArguments params arguments
  let enter := Run.noteEntry name params
  have ran : P (Option Value) n (Value.KnownReturn inside)
      (Machine.opened closure bindings enter (executeAll left fuel body))
      (Machine.opened closure bindings enter (executeAll right fuel body)) := by
    apply discipline.opened declared
    · intro _ value found
      exact known value (Bindings.get?_ofArguments found)
    · intro m scope _ fresh
      exact discipline.noteEntry name params fresh
    · intro m _
      exact upto.executeAll m body plain
  apply discipline.andThen ran
  intro m returned _ known
  apply discipline.pure
  cases returned with
  | none => exact Value.tame_of_closure?_none rfl
  | some value => exact known value rfl

theorem execute_succ (discipline : Discipline left right inside P)
    (upto : Upto left right inside P fuel) (n : Nat) (stmt : Stmt) (plain : stmt.plain = true) :
    P (Option Value) n (Value.KnownReturn inside)
      (execute left (fuel + 1) stmt) (execute right (fuel + 1) stmt) := by
  cases stmt with
  | expression expr =>
    apply discipline.andThen (upto.evaluate n expr plain)
    intro m _ _ _
    exact discipline.pure Value.knownReturn_none
  | print expr =>
    apply discipline.andThen (upto.evaluate n expr plain)
    intro m value _ _
    apply discipline.andThen (discipline.note m (.printed value.print))
    intro k _ _ _
    exact discipline.pure Value.knownReturn_none
  | declare name expr =>
    apply discipline.andThen (upto.evaluate n expr plain)
    intro m value _ known
    apply discipline.andThen (discipline.define name known)
    intro k _ _ _
    exact discipline.pure Value.knownReturn_none
  | block body =>
    apply discipline.andThen discipline.here
    intro m here _ current
    apply discipline.opened current
    · intro _ value found
      cases found
    · intro k scope _ _
      exact discipline.give trivial
    · intro k _
      exact upto.executeAll k body plain
  | branch condition yes no =>
    cases no with
    | none =>
      obtain ⟨plainCondition, plainYes⟩ := Bool.and_eq_true_iff.mp plain
      apply discipline.andThen (upto.evaluate n condition plainCondition)
      intro m value _ _
      split
      · exact discipline.frame (upto.execute m yes plainYes)
      · exact discipline.pure Value.knownReturn_none
    | some no =>
      obtain ⟨plainBoth, plainNo⟩ := Bool.and_eq_true_iff.mp plain
      obtain ⟨plainCondition, plainYes⟩ := Bool.and_eq_true_iff.mp plainBoth
      apply discipline.andThen (upto.evaluate n condition plainCondition)
      intro m value _ _
      split
      · exact discipline.frame (upto.execute m yes plainYes)
      · exact discipline.frame (upto.execute m no plainNo)
  | loop condition body =>
    obtain ⟨plainCondition, plainBody⟩ := Bool.and_eq_true_iff.mp plain
    apply discipline.andThen (upto.evaluate n condition plainCondition)
    intro m value _ _
    split
    · apply discipline.andThen (discipline.frame (upto.execute m body plainBody))
      intro k returned _ known
      cases returned with
      | none => exact upto.execute k (.loop condition body) plain
      | some value => exact discipline.pure known
    · exact discipline.pure Value.knownReturn_none
  | function name params body =>
    apply discipline.andThen discipline.here
    intro m here _ current
    apply discipline.andThen (discipline.define name (Value.tame_function plain current))
    intro k _ _ _
    exact discipline.pure Value.knownReturn_none
  | ret keyword value =>
    cases value with
    | none =>
      exact discipline.pure (Value.knownReturn_some (Value.tame_of_closure?_none rfl))
    | some expr =>
      apply discipline.andThen (upto.evaluate n expr plain)
      intro m value _ known
      exact discipline.pure (Value.knownReturn_some known)

theorem executeAll_succ (discipline : Discipline left right inside P)
    (upto : Upto left right inside P fuel) (n : Nat) (stmts : List Stmt)
    (plain : Stmt.allPlain stmts = true) :
    P (Option Value) n (Value.KnownReturn inside)
      (executeAll left (fuel + 1) stmts) (executeAll right (fuel + 1) stmts) := by
  cases stmts with
  | nil => exact discipline.pure Value.knownReturn_none
  | cons stmt rest =>
    obtain ⟨plainStmt, plainRest⟩ := Bool.and_eq_true_iff.mp plain
    apply discipline.andThen (discipline.frame (upto.execute n stmt plainStmt))
    intro m returned _ known
    cases returned with
    | none => exact upto.executeAll m rest plainRest
    | some value => exact discipline.pure known

/-- A relation that is kept wherever functions come from inside holds of all that is plain. -/
theorem upto (discipline : Discipline left right inside P) (fuel : Nat) :
    Upto left right inside P fuel := by
  induction fuel with
  | zero =>
    exact ⟨fun _ _ _ => discipline.spent, fun _ _ _ => discipline.spent,
      fun _ _ _ _ _ _ _ _ _ => discipline.spent, fun _ _ _ => discipline.spent,
      fun _ _ _ => discipline.spent⟩
  | succ fuel ih =>
    exact ⟨discipline.evaluate_succ ih, discipline.evaluateAll_succ ih,
      discipline.callFunction_succ ih, discipline.execute_succ ih, discipline.executeAll_succ ih⟩

/-- The relation holds of plain programs. -/
theorem runAll (discipline : Discipline left right inside P)
    (upto : Upto left right inside P fuel) (program : Program) :
    ∀ n result, Stmt.allPlain program = true →
      P (Option Value) n (fun _ _ => True) (Machine.runAll left fuel result program)
        (Machine.runAll right fuel result program) := by
  induction program with
  | nil =>
    intro n result _
    exact discipline.pure trivial
  | cons stmt rest ih =>
    intro n result plain
    obtain ⟨plainStmt, plainRest⟩ := Bool.and_eq_true_iff.mp plain
    cases stmt with
    | expression expr =>
      rw [Machine.runAll, Machine.runAll]
      apply discipline.andThen (upto.evaluate n expr plainStmt)
      intro m value _ _
      exact ih m (some value) plainRest
    | print | declare | block | branch | loop | function | ret =>
      apply discipline.andThen (discipline.frame (upto.execute n _ plainStmt))
      intro m returned _ _
      apply discipline.andThen (discipline.mark _)
      intro k _ _ _
      cases returned with
      | none => exact ih k result plainRest
      | some _ => exact discipline.pure trivial

end Discipline

end Lox
