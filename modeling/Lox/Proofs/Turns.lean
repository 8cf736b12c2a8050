import Lox.Proofs.Blocks
import Lox.Proofs.Fuel

set_option autoImplicit false

namespace Lox

/-- The clauses of a `for`, and its body. -/
structure ForLoop where
  initial : Option Stmt
  condition : Option Expr
  increment : Option Expr
  body : Stmt

namespace ForLoop

/-- The condition, which is true if it is absent. -/
def test (loop : ForLoop) : Expr :=
  loop.condition.getD (.literal (.bool true))

/-- What the statement repeats: the body, in a block with the increment if there is one. -/
def turn (loop : ForLoop) : Stmt :=
  match loop.increment with
  | none => loop.body
  | some step => .block [loop.body, .expression step]

def statement (loop : ForLoop) : Stmt :=
  .ofFor loop.initial loop.test loop.increment loop.body

theorem statement_of_none {loop : ForLoop} (absent : loop.initial = none) :
    loop.statement = .loop loop.test loop.turn := by
  unfold statement Stmt.ofFor
  rw [absent]
  rfl

theorem statement_of_some {loop : ForLoop} {first : Stmt} (there : loop.initial = some first) :
    loop.statement = .block [first, .loop loop.test loop.turn] := by
  unfold statement Stmt.ofFor
  rw [there]
  rfl

end ForLoop

namespace Parse

open Reader

def forTest : Parse (Option Expr) := do
  let condition ← (do if ← sees .semicolon then pure none else some <$> expression)
  let _ ← expect .semicolon .noSemicolonAfterCondition
  pure condition

def forClauses (depth : Nat) : Parse ForLoop := do
  let _ ← expect .leftParen .noParenAfterFor
  let initial ← forInitial
  let condition ← forTest
  let increment ← forIncrement
  let body ← statementWithin depth
  pure ⟨initial, condition, increment, body⟩

theorem andThen_assoc {α β γ : Type} (step : Parse α) (next : α → Parse β) (last : β → Parse γ) :
    step >>= next >>= last = step >>= fun value => next value >>= last := by
  funext cursor
  change Parse.andThen (Parse.andThen step next) last cursor =
    Parse.andThen step (fun value => Parse.andThen (next value) last) cursor
  cases out : step cursor <;> simp only [Parse.andThen, out]

theorem forCondition_eq : forCondition =
    forTest >>= fun condition => pure (condition.getD (.literal (.bool true))) := by
  have tests : (do if ← sees .semicolon then pure (.literal (.bool true)) else expression) =
      (do if ← sees .semicolon then pure none else some <$> expression) >>= fun condition =>
        (pure (condition.getD (.literal (.bool true))) : Parse Expr) := by
    rw [andThen_assoc]
    congr 1
    funext closes
    cases closes with
    | true => rfl
    | false =>
      funext cursor
      change expression (M := Parse) cursor =
        Parse.andThen (Parse.andThen expression fun value => pure (some value)) _ cursor
      cases out : expression (M := Parse) cursor with
      | ok value after =>
        simp only [Parse.andThen, out]
        rfl
      | failed | spent => simp only [Parse.andThen, out]
  unfold forCondition forTest
  rw [step_eq, tests]
  simp only [andThen_assoc]
  rfl

theorem forWithin_succ (depth : Nat) :
    forWithin (depth + 1) = forClauses depth >>= fun loop => pure loop.statement := by
  unfold forWithin forClauses
  simp only [forCondition_eq, andThen_assoc]
  rfl

/-- A `for` is read as its clauses are. -/
theorem forClauses_of_forWithin {depth : Nat} {cursor rest : Cursor} {stmt : Stmt}
    (read : forWithin (M := Parse) (depth + 1) cursor = .ok stmt rest) :
    ∃ loop, forClauses depth cursor = .ok loop rest ∧ stmt = loop.statement := by
  rw [forWithin_succ] at read
  change Parse.andThen (forClauses depth) _ cursor = .ok stmt rest at read
  unfold Parse.andThen at read
  cases out : forClauses depth cursor with
  | ok loop after =>
    rw [out] at read
    cases read
    exact ⟨loop, rfl, rfl⟩
  | failed | spent =>
    rw [out] at read
    cases read

end Parse

/-- One run after another, unless the first gives a value on its way out. -/
def Run.unlessReturned (run next : Run (Option Value)) : Run (Option Value) := do
  match ← run with
  | some value => pure (some value)
  | none => next

namespace World

def holds (world : World) (fuel : Nat) : Option Expr → Run Bool
  | none => pure true
  | some condition => do
    let value ← world.evaluate fuel condition
    pure value.truthy

def steps (world : World) (fuel : Nat) : Option Expr → Run Unit
  | none => pure ()
  | some expr => do
    let _ ← world.evaluate fuel expr
    pure ()

/-- The turns of a `for`, all of them in the scope in which the run is. -/
def turns (world : World) (loop : ForLoop) : Nat → Run (Option Value)
  | 0 => Run.spent
  | fuel + 1 => do
    if ← world.holds fuel loop.condition then
      (world.execute fuel loop.body).unlessReturned do
        world.steps fuel loop.increment
        world.turns loop fuel
    else pure none

/-- A `for`. What comes before the first turn is run in a new scope, and all turns are taken in
that; if nothing does, they are taken in the scope in which the run is. -/
def forLoop (world : World) (fuel : Nat) (loop : ForLoop) : Run (Option Value) :=
  match loop.initial with
  | none => world.turns loop fuel
  | some first => do
    let here ← Run.here
    Machine.opened here [] (fun _ => pure ()) do
      let _ ← world.execute fuel first
      world.turns loop fuel

/-- One turn with the fuel that the statement leaves to its parts, but in no block of its own. -/
def pass (world : World) (loop : ForLoop) (fuel : Nat) : Run (Option Value) :=
  match loop.increment, fuel with
  | none, fuel => world.execute fuel loop.body
  | some _, 0 => Run.spent
  | some step, fuel + 1 => Machine.executeAll world fuel [loop.body, .expression step]

def rounds (world : World) (loop : ForLoop) : Nat → Run (Option Value)
  | 0 => Run.spent
  | fuel + 1 => do
    let value ← world.evaluate fuel loop.test
    if value.truthy then (world.pass loop fuel).unlessReturned (world.rounds loop fuel)
    else pure none

end World

namespace Run

variable {first second third : Run (Option Value)}

theorem unlessReturned_assoc : (first.unlessReturned second).unlessReturned third =
    first.unlessReturned (second.unlessReturned third) := by
  unfold unlessReturned
  rw [Machine.andThen_assoc]
  congr 1
  funext returned
  cases returned <;> rfl

/-- What gives nothing on its way out is followed. -/
theorem unlessReturned_unit {α : Type} (run : Run α) :
    (run >>= fun _ => (pure none : Run (Option Value))).unlessReturned third =
      run >>= fun _ => third := by
  unfold unlessReturned
  rw [Machine.andThen_assoc]
  rfl

theorem unlessReturned_pure : first.unlessReturned (pure none) = first := by
  funext state
  change Run.andThen first _ state = first state
  unfold Run.andThen
  cases first state with
  | done returned after => cases returned <;> rfl
  | fault | spent => rfl

theorem Prolongs.unlessReturned {other last : Run (Option Value)}
    (firsts : Prolongs (Option Value) first other) (nexts : Prolongs (Option Value) second last) :
    Prolongs (Option Value) (first.unlessReturned second) (other.unlessReturned last) := by
  apply firsts.andThen
  intro returned
  cases returned with
  | none => exact nexts
  | some value => exact prolongs_refl _

theorem prolongs_spent {α : Type} (run : Run α) : Prolongs α spent run :=
  fun _ => Or.inl rfl

end Run

namespace World

open Run

variable {world : World} {loop : ForLoop} {fuel more : Nat}

theorem evaluate_prolongs (world : World) (enough : fuel ≤ more) (expr : Expr) :
    Prolongs Value (world.evaluate fuel expr) (world.evaluate more expr) :=
  ((prolongs_parallel world).upto_of_le (fun _ => prolongs_spent) fuel more enough).evaluate expr

theorem execute_prolongs (world : World) (enough : fuel ≤ more) (stmt : Stmt) :
    Prolongs (Option Value) (world.execute fuel stmt) (world.execute more stmt) :=
  ((prolongs_parallel world).upto_of_le (fun _ => prolongs_spent) fuel more enough).execute stmt

theorem execute_loop (world : World) (fuel : Nat) (condition : Expr) (body : Stmt) :
    world.execute (fuel + 1) (.loop condition body) = world.evaluate fuel condition >>= fun value =>
      if value.truthy then
        (world.execute fuel body).unlessReturned (world.execute fuel (.loop condition body))
      else pure none := rfl

theorem executeAll_cons (world : World) (fuel : Nat) (stmt : Stmt) (rest : List Stmt) :
    Machine.executeAll (M := Run) world (fuel + 1) (stmt :: rest) =
      (world.execute fuel stmt).unlessReturned (Machine.executeAll world fuel rest) := rfl

/-- A list of a statement and an expression gives the second to do to what the first lets pass. -/
theorem pass_of_some {step : Expr} (there : loop.increment = some step) (fuel : Nat) :
    world.pass loop (fuel + 4) = (world.execute (fuel + 2) loop.body).unlessReturned
      (world.evaluate fuel step >>= fun _ => pure none) := by
  unfold pass
  rw [there]
  change Machine.executeAll (M := Run) world (fuel + 3) [loop.body, .expression step] = _
  rw [executeAll_cons, Machine.executeAll_single]
  rfl

theorem steps_then {α : Type} (step : Expr) (next : Run α) :
    (world.steps fuel (some step) >>= fun _ => next) = world.evaluate fuel step >>= fun _ => next :=
  Machine.andThen_assoc _ _ _

/-- An expression at the end of a list, with little fuel or much. -/
theorem last_prolongs (enough : fuel ≤ more) (step : Expr) : Prolongs (Option Value)
    (Machine.executeAll world fuel [.expression step])
    (world.evaluate more step >>= fun _ => pure none) := by
  match fuel with
  | 0 | 1 => exact prolongs_spent _
  | fuel + 2 =>
    rw [Machine.executeAll_single]
    exact (world.evaluate_prolongs (by omega) step).andThen fun _ => prolongs_refl _

/-- A turn that comes to an end does so with as much fuel for each of its parts. -/
theorem pass_prolongs (enough : fuel ≤ more) : Prolongs (Option Value) (world.pass loop fuel)
    ((world.execute more loop.body).unlessReturned
      (world.steps more loop.increment >>= fun _ => pure none)) := by
  unfold pass
  cases loop.increment with
  | none =>
    change Prolongs (Option Value) (world.execute fuel loop.body)
      ((world.execute more loop.body).unlessReturned (pure none))
    rw [unlessReturned_pure]
    exact world.execute_prolongs enough loop.body
  | some step =>
    rw [steps_then]
    match fuel with
    | 0 | 1 => exact prolongs_spent _
    | fuel + 2 =>
      have body := world.execute_prolongs (show fuel ≤ more by omega) loop.body
      exact body.unlessReturned (last_prolongs (by omega) step)

/-- The turns that the statement takes end as those of the loop, with as much fuel. -/
theorem rounds_prolongs : ∀ {fuel more : Nat}, fuel ≤ more →
    Prolongs (Option Value) (world.rounds loop fuel) (world.turns loop more)
  | 0, _, _ => prolongs_spent _
  | fuel + 1, more + 1, enough => by
    have fewer : fuel ≤ more := Nat.le_of_succ_le_succ enough
    have turn : Prolongs (Option Value)
        ((world.pass loop fuel).unlessReturned (world.rounds loop fuel))
        ((world.execute more loop.body).unlessReturned
          (world.steps more loop.increment >>= fun _ => world.turns loop more)) := by
      have both := (@pass_prolongs world loop fuel more fewer).unlessReturned
        (rounds_prolongs fewer)
      rw [unlessReturned_assoc, unlessReturned_unit] at both
      exact both
    unfold rounds turns ForLoop.test
    cases loop.condition with
    | none =>
      match fuel with
      | 0 => exact prolongs_spent _
      | fuel + 1 => exact turn
    | some condition =>
      change Prolongs (Option Value) _
        ((world.evaluate more condition >>= fun value => pure value.truthy) >>= _)
      rw [Machine.andThen_assoc]
      apply (world.evaluate_prolongs fewer condition).andThen
      intro value
      change Prolongs (Option Value) _ (if value.truthy then _ else _)
      split
      · exact turn
      · exact prolongs_refl _

/-- The turns of the loop end as those that the statement takes, with four units of fuel more. -/
theorem turns_prolongs : ∀ {fuel more : Nat}, fuel + 4 ≤ more →
    Prolongs (Option Value) (world.turns loop fuel) (world.rounds loop more)
  | 0, _, _ => prolongs_spent _
  | fuel + 1, more + 1, enough => by
    have fewer : fuel + 4 ≤ more := Nat.le_of_succ_le_succ enough
    have turn : Prolongs (Option Value)
        ((world.execute fuel loop.body).unlessReturned
          (world.steps fuel loop.increment >>= fun _ => world.turns loop fuel))
        ((world.pass loop more).unlessReturned (world.rounds loop more)) := by
      cases there : loop.increment with
      | none =>
        have body := world.execute_prolongs (show fuel ≤ more by omega) loop.body
        unfold pass
        rw [there]
        exact body.unlessReturned (turns_prolongs fewer)
      | some step =>
        obtain ⟨less, rfl⟩ : ∃ less, more = less + 4 := ⟨more - 4, by omega⟩
        have body := world.execute_prolongs (show fuel ≤ less + 2 by omega) loop.body
        have last := world.evaluate_prolongs (show fuel ≤ less by omega) step
        rw [pass_of_some there, unlessReturned_assoc, unlessReturned_unit, steps_then]
        exact body.unlessReturned (last.andThen fun _ => turns_prolongs fewer)
    unfold rounds turns ForLoop.test
    cases loop.condition with
    | none =>
      match more with
      | more + 1 => exact turn
    | some condition =>
      change Prolongs (Option Value)
        ((world.evaluate fuel condition >>= fun value => pure value.truthy) >>= _) _
      rw [Machine.andThen_assoc]
      apply (world.evaluate_prolongs (by omega) condition).andThen
      intro value
      change Prolongs (Option Value) (if value.truthy then _ else _) _
      split
      · exact turn
      · exact prolongs_refl _

end World

end Lox
