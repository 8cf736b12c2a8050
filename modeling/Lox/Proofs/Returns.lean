import Lox.Proofs.Outcome

set_option autoImplicit false

namespace Lox

def State.opened (state : State) (enclosing : ScopeId) (bindings : Bindings) : State :=
  { state with
    store := state.store.extend (some enclosing) bindings
    current := state.store.size }

/-- The state in which the body of a called function is run. -/
def State.entering (state : State) (name : Token) (params : List Token) (closure : ScopeId)
    (arguments : List Value) : State :=
  let inside := state.opened closure (.ofArguments params arguments)
  inside.add (.entered name.lexeme (params.map Token.lexeme) (inside.store.depth inside.current))

mutual

/-- A run of a statement with so much fuel executes a return of such a value. Returns in the bodies
of functions called meanwhile are not its own. -/
inductive Stmt.Performs (world : World) : Nat → Stmt → State → Value → Prop
  | nothing {fuel : Nat} {state : State} (keyword : Token) :
      Performs world (fuel + 1) (.ret keyword none) state .nil
  | value {fuel : Nat} {expr : Expr} {state after : State} {value : Value} (keyword : Token)
      (evaluated : world.evaluate fuel expr state = .done value after) :
      Performs world (fuel + 1) (.ret keyword (some expr)) state value
  | block {fuel : Nat} {body : List Stmt} {state : State} {value : Value}
      (inside : Stmt.PerformsAll world fuel body (state.opened state.current []) value) :
      Performs world (fuel + 1) (.block body) state value
  | yes {fuel : Nat} {condition : Expr} {yes : Stmt} {no : Option Stmt} {state middle : State}
      {test value : Value} (evaluated : world.evaluate fuel condition state = .done test middle)
      (holds : test.truthy = true) (performs : Performs world fuel yes middle value) :
      Performs world (fuel + 1) (.branch condition yes no) state value
  | no {fuel : Nat} {condition : Expr} {yes no : Stmt} {state middle : State}
      {test value : Value} (evaluated : world.evaluate fuel condition state = .done test middle)
      (fails : test.truthy = false) (performs : Performs world fuel no middle value) :
      Performs world (fuel + 1) (.branch condition yes (some no)) state value
  | round {fuel : Nat} {condition : Expr} {body : Stmt} {state middle : State}
      {test value : Value} (evaluated : world.evaluate fuel condition state = .done test middle)
      (holds : test.truthy = true) (performs : Performs world fuel body middle value) :
      Performs world (fuel + 1) (.loop condition body) state value
  | again {fuel : Nat} {condition : Expr} {body : Stmt} {state middle after : State}
      {test value : Value} (evaluated : world.evaluate fuel condition state = .done test middle)
      (holds : test.truthy = true) (passed : world.execute fuel body middle = .done none after)
      (performs : Performs world fuel (.loop condition body) after value) :
      Performs world (fuel + 1) (.loop condition body) state value

inductive Stmt.PerformsAll (world : World) : Nat → List Stmt → State → Value → Prop
  | first {fuel : Nat} {stmt : Stmt} {state : State} {value : Value} (rest : List Stmt)
      (performs : Stmt.Performs world fuel stmt state value) :
      PerformsAll world (fuel + 1) (stmt :: rest) state value
  | later {fuel : Nat} {stmt : Stmt} {rest : List Stmt} {state middle : State} {value : Value}
      (passed : world.execute fuel stmt state = .done none middle)
      (performs : PerformsAll world fuel rest middle value) :
      PerformsAll world (fuel + 1) (stmt :: rest) state value

end

namespace Stmt

variable {world : World} {fuel : Nat} {state middle : State} {value test : Value}

theorem performs_block_iff {body : List Stmt} :
    Performs world (fuel + 1) (.block body) state value ↔
      PerformsAll world fuel body (state.opened state.current []) value := by
  constructor
  · intro performs
    cases performs with
    | block inside => exact inside
  · exact .block

/-- A branch whose condition has its value performs what the part that is taken performs. -/
theorem performs_branch_iff {condition : Expr} {yes : Stmt} {no : Option Stmt}
    (evaluated : world.evaluate fuel condition state = .done test middle) :
    Performs world (fuel + 1) (.branch condition yes no) state value ↔
      ∃ taken, (if test.truthy then some yes else no) = some taken ∧
        Performs world fuel taken middle value := by
  constructor
  · intro performs
    cases performs with
    | yes again holds performs =>
      cases again.symm.trans evaluated
      exact ⟨yes, if_pos holds, performs⟩
    | no again fails performs =>
      cases again.symm.trans evaluated
      exact ⟨_, if_neg (Bool.not_eq_true _ ▸ fails), performs⟩
  · rintro ⟨taken, chosen, performs⟩
    cases holds : test.truthy with
    | true =>
      rw [if_pos holds] at chosen
      cases chosen
      exact .yes evaluated holds performs
    | false =>
      rw [if_neg (Bool.not_eq_true _ ▸ holds)] at chosen
      cases chosen
      exact .no evaluated holds performs

/-- A loop whose condition has its value goes round once, if it goes round at all, and then on. -/
theorem performs_loop_iff {condition : Expr} {body : Stmt}
    (evaluated : world.evaluate fuel condition state = .done test middle) :
    Performs world (fuel + 1) (.loop condition body) state value ↔
      test.truthy = true ∧ (Performs world fuel body middle value ∨
        ∃ after, world.execute fuel body middle = .done none after ∧
          Performs world fuel (.loop condition body) after value) := by
  constructor
  · intro performs
    cases performs with
    | round again holds performs =>
      cases again.symm.trans evaluated
      exact ⟨holds, Or.inl performs⟩
    | again again holds passed performs =>
      cases again.symm.trans evaluated
      exact ⟨holds, Or.inr ⟨_, passed, performs⟩⟩
  · rintro ⟨holds, performs | ⟨after, passed, performs⟩⟩
    · exact .round evaluated holds performs
    · exact .again evaluated holds passed performs

theorem performsAll_cons_iff {stmt : Stmt} {rest : List Stmt} :
    PerformsAll world (fuel + 1) (stmt :: rest) state value ↔
      Performs world fuel stmt state value ∨
        ∃ after, world.execute fuel stmt state = .done none after ∧
          PerformsAll world fuel rest after value := by
  constructor
  · intro performs
    cases performs with
    | first _ performs => exact Or.inl performs
    | later passed performs => exact Or.inr ⟨_, passed, performs⟩
  · rintro (performs | ⟨after, passed, performs⟩)
    · exact .first rest performs
    · exact .later passed performs

end Stmt

namespace Run

variable {α β : Type}

theorem andThen_eq_done {run : Run α} {next : α → Run β} {state after : State} {value : β}
    (done : (run >>= next) state = .done value after) :
    ∃ first middle, run state = .done first middle ∧ next first middle = .done value after := by
  simp only [bind_eq, Run.andThen] at done
  cases out : run state with
  | done first middle =>
    rw [out] at done
    exact ⟨first, middle, rfl, done⟩
  | fault | spent =>
    rw [out] at done
    cases done

end Run

namespace World

variable {world : World} {fuel : Nat}

theorem execute_block (world : World) (fuel : Nat) (body : List Stmt) (state : State) :
    world.execute (fuel + 1) (.block body) state =
      (Machine.executeAll (M := Run) world fuel body (state.opened state.current [])).mapState
        fun after => { after with current := state.current } :=
  Run.within_eq state.store.size (Machine.executeAll (M := Run) world fuel body)
    { state with store := state.store.extend (some state.current) [] }

theorem body_of_callFunction {name : Token} {params : List Token} {body : List Stmt}
    {closure : ScopeId} {arguments : List Value} {state after : State} {value : Value}
    (done : world.callFunction (fuel + 1) name params body closure arguments state =
      .done value after) :
    ∃ returned last, Machine.executeAll (M := Run) world fuel body
        (state.entering name params closure arguments) = .done returned last ∧
      value = returned.getD .nil := by
  obtain ⟨returned, middle, ran, gave⟩ := Run.andThen_eq_done done
  cases gave
  rw [Run.opened_eq] at ran
  obtain ⟨scope, extended, opened, inside⟩ := Run.andThen_eq_done ran
  cases opened
  obtain ⟨_, entered, noted, body_ran⟩ := Run.andThen_eq_done inside
  cases noted
  rw [Run.within_eq] at body_ran
  obtain ⟨last, body_done, _⟩ := Outcome.mapState_eq_done body_ran
  exact ⟨returned, last, body_done, rfl⟩

/-- What is given on the way out of a piece of a program is the value of the return executed. -/
structure Performing (world : World) (fuel : Nat) : Prop where
  execute {stmt : Stmt} {state after : State} {returned : Option Value}
    (done : world.execute fuel stmt state = .done returned after) (value : Value) :
    Stmt.Performs world fuel stmt state value ↔ returned = some value
  executeAll {stmts : List Stmt} {state after : State} {returned : Option Value}
    (done : Machine.executeAll (M := Run) world fuel stmts state = .done returned after)
    (value : Value) : Stmt.PerformsAll world fuel stmts state value ↔ returned = some value

/-- What comes after a statement performs a return only if the statement itself gave nothing. -/
theorem Performing.followed (performing : world.Performing fuel) {stmt : Stmt}
    {state middle : State} {given returned : Option Value} {value : Value} {Later : State → Prop}
    (ran : world.execute fuel stmt state = .done given middle)
    (stops : ∀ result, given = some result → returned = some result)
    (goes : given = none → (Later middle ↔ returned = some value)) :
    (Stmt.Performs world fuel stmt state value ∨
      ∃ last, world.execute fuel stmt state = .done none last ∧ Later last) ↔
      returned = some value := by
  rw [performing.execute ran]
  cases given with
  | none =>
    rw [← goes rfl]
    constructor
    · rintro (none_given | ⟨last, passed, later⟩)
      · cases none_given
      · cases passed.symm.trans ran
        exact later
    · intro later
      exact Or.inr ⟨middle, ran, later⟩
  | some result =>
    rw [stops result rfl]
    refine or_iff_left ?_
    rintro ⟨last, passed, _⟩
    cases passed.symm.trans ran

theorem Performing.execute_succ (performing : world.Performing fuel) {stmt : Stmt}
    {state after : State} {returned : Option Value}
    (done : world.execute (fuel + 1) stmt state = .done returned after) (value : Value) :
    Stmt.Performs world (fuel + 1) stmt state value ↔ returned = some value := by
  cases stmt with
  | expression expr =>
    obtain ⟨_, _, _, gave⟩ := Run.andThen_eq_done done
    cases gave
    exact iff_of_false nofun nofun
  | print expr | declare name expr | function name params body =>
    obtain ⟨_, _, _, rest⟩ := Run.andThen_eq_done done
    obtain ⟨_, _, _, gave⟩ := Run.andThen_eq_done rest
    cases gave
    exact iff_of_false nofun nofun
  | ret keyword expr =>
    cases expr with
    | none =>
      cases done
      constructor
      · intro performs
        cases performs
        rfl
      · intro same
        cases same
        exact .nothing keyword
    | some expr =>
      obtain ⟨result, middle, evaluated, gave⟩ := Run.andThen_eq_done done
      cases gave
      constructor
      · intro performs
        cases performs with
        | value _ again =>
          cases again.symm.trans evaluated
          rfl
      · intro same
        cases same
        exact .value keyword evaluated
  | block body =>
    rw [execute_block] at done
    obtain ⟨last, inner, _⟩ := Outcome.mapState_eq_done done
    rw [Stmt.performs_block_iff]
    exact performing.executeAll inner value
  | branch condition yes no =>
    obtain ⟨test, middle, evaluated, taken⟩ := Run.andThen_eq_done done
    rw [Stmt.performs_branch_iff evaluated]
    cases holds : test.truthy with
    | true =>
      simp only [holds, ↓reduceIte] at taken
      simpa using performing.execute taken value
    | false =>
      simp only [holds, Bool.false_eq_true, ↓reduceIte] at taken
      cases no with
      | none =>
        cases taken
        simp
      | some no => simpa using performing.execute taken value
  | loop condition body =>
    obtain ⟨test, middle, evaluated, taken⟩ := Run.andThen_eq_done done
    rw [Stmt.performs_loop_iff evaluated]
    cases holds : test.truthy with
    | true =>
      simp only [holds, ↓reduceIte] at taken
      obtain ⟨given, ended, ran, rest⟩ := Run.andThen_eq_done taken
      rw [and_iff_right rfl]
      apply performing.followed ran
      · rintro result rfl
        cases rest
        rfl
      · rintro rfl
        exact performing.execute rest value
    | false =>
      simp only [holds, Bool.false_eq_true, ↓reduceIte] at taken
      cases taken
      exact iff_of_false nofun nofun

theorem Performing.executeAll_succ (performing : world.Performing fuel) {stmts : List Stmt}
    {state after : State} {returned : Option Value}
    (done : Machine.executeAll (M := Run) world (fuel + 1) stmts state = .done returned after)
    (value : Value) :
    Stmt.PerformsAll world (fuel + 1) stmts state value ↔ returned = some value := by
  cases stmts with
  | nil =>
    cases done
    exact iff_of_false nofun nofun
  | cons stmt rest =>
    obtain ⟨given, middle, ran, others⟩ := Run.andThen_eq_done done
    rw [Stmt.performsAll_cons_iff]
    apply performing.followed ran
    · rintro result rfl
      cases others
      rfl
    · rintro rfl
      exact performing.executeAll others value

theorem performing (world : World) (fuel : Nat) : world.Performing fuel := by
  induction fuel with
  | zero => exact ⟨nofun, nofun⟩
  | succ fuel ih => exact ⟨ih.execute_succ, ih.executeAll_succ⟩

/-- A call gives the value of the one return that its body executes, and without one gives nil. -/
theorem callFunction_performs {name : Token} {params : List Token} {body : List Stmt}
    {closure : ScopeId} {arguments : List Value} {state after : State} {value : Value}
    (done : world.callFunction (fuel + 1) name params body closure arguments state =
      .done value after) :
    let Performs := Stmt.PerformsAll world fuel body (state.entering name params closure arguments)
    Performs value ∧ (∀ other, Performs other → other = value) ∨
      (∀ other, ¬ Performs other) ∧ value = .nil := by
  obtain ⟨returned, last, ran, rfl⟩ := body_of_callFunction done
  have performs := (world.performing fuel).executeAll ran
  cases returned with
  | none =>
    right
    refine ⟨?_, rfl⟩
    intro other performed
    cases (performs other).mp performed
  | some value =>
    left
    refine ⟨(performs value).mpr rfl, ?_⟩
    intro other performed
    exact (Option.some.inj ((performs other).mp performed)).symm

end World

end Lox
