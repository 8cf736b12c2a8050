import Lox.Proofs.Outcome
import Lox.Proofs.Grammar.Derivation

set_option autoImplicit false

namespace Lox

namespace Stmt

mutual

/-- Whether a statement holds no return, but for those in the functions that it declares. -/
def straight : Stmt → Bool
  | block body => allStraight body
  | branch _ yes none => yes.straight
  | branch _ yes (some no) => yes.straight && no.straight
  | loop _ body => body.straight
  | ret .. => false
  | expression _ | function .. | print _ | declare .. => true

def allStraight : List Stmt → Bool
  | [] => true
  | stmt :: rest => stmt.straight && allStraight rest

end

/-- Whether a statement is an expression, whose value counts at the top level. -/
def isExpression : Stmt → Bool
  | expression _ => true
  | _ => false

end Stmt

def Program.expressive (program : Program) : Bool :=
  program.any Stmt.isExpression

theorem Variable.straight {tree : Stmt} {tokens : List Token}
    (declares : Variable tree tokens) : tree.straight = true := by
  cases declares <;> rfl

theorem Initial.straight {tree : Stmt} {tokens : List Token} (initial : Initial tree tokens) :
    tree.straight = true := by
  cases initial with
  | binding key declares => exact declares.straight
  | expression values => rfl

namespace Sentence

def straight : Sentence → Bool
  | .statement _ tree | .turns _ tree | .declaration tree => tree.straight
  | .declarations trees => Stmt.allStraight trees

theorem Derives.straight {inside : Bool} {sentence : Sentence} {tokens : List Token}
    (derives : sentence.Derives inside tokens) (outside : inside = false) :
    sentence.straight = true := by
  induction derives with
  | retNothing | ret => cases outside
  | expression | print | function | nothing => rfl
  | binding _ declares => exact declares.straight
  | block _ _ _ body => exact body outside
  | branch _ _ _ _ _ yes => exact yes outside
  | branchElse _ _ _ _ _ _ _ yes no => exact Bool.and_eq_true_iff.mpr ⟨yes outside, no outside⟩
  | loop _ _ _ _ _ body => exact body outside
  | forever _ _ _ _ rounds => exact rounds outside
  | forFrom _ _ initials _ rounds =>
    have both := Bool.and_eq_true_iff.mpr ⟨rounds outside, rfl⟩
    exact Bool.and_eq_true_iff.mpr ⟨initials.straight, both⟩
  | turns _ _ _ body => exact body outside
  | turnsStepping _ _ _ _ body => exact Bool.and_eq_true_iff.mpr ⟨body outside, rfl⟩
  | statement _ tree => exact tree outside
  | first _ _ tree rest => exact Bool.and_eq_true_iff.mpr ⟨tree outside, rest outside⟩

end Sentence

namespace Run

variable {α β : Type}

def Gives (post : α → Prop) (run : Run α) : Prop :=
  ∀ state value after, run state = .done value after → post value

theorem gives_pure {post : α → Prop} {value : α} (good : post value) : Gives post (pure value) := by
  intro state _ after same
  cases same
  exact good

theorem gives_spent {post : α → Prop} : Gives post (spent (α := α)) := by
  intro state value after same
  cases same

theorem Gives.andThen {mid : α → Prop} {post : β → Prop} {run : Run α} {next : α → Run β}
    (first : Gives mid run) (last : ∀ value, mid value → Gives post (next value)) :
    Gives post (run >>= next) := by
  intro state value after same
  simp only [bind_eq, Run.andThen] at same
  cases out : run state with
  | done result middle =>
    rw [out] at same
    exact last result (first state result middle out) middle value after same
  | fault | spent =>
    rw [out] at same
    cases same

theorem gives_any (run : Run α) : Gives (fun _ => True) run :=
  fun _ _ _ _ => trivial

theorem Gives.within {post : α → Prop} {run : Run α} (gives : Gives post run) (scope : ScopeId) :
    Gives post (run.within scope) := by
  intro state value after same
  rw [within_eq] at same
  obtain ⟨last, inner, _⟩ := Outcome.mapState_eq_done same
  exact gives _ value last inner

end Run

namespace Machine

open Run

/-- With so much fuel, statements without a return of their own give nothing on their way out. -/
theorem straight (world : World) (fuel : Nat) :
    (∀ stmt : Stmt, stmt.straight = true →
      Gives (· = none) (execute (M := Run) world fuel stmt)) ∧
    ∀ stmts : List Stmt, Stmt.allStraight stmts = true →
      Gives (· = none) (executeAll (M := Run) world fuel stmts) := by
  induction fuel with
  | zero => exact ⟨fun _ _ => gives_spent, fun _ _ => gives_spent⟩
  | succ fuel ih =>
    obtain ⟨one, all⟩ := ih
    constructor
    · intro stmt plain
      cases stmt with
      | ret => cases plain
      | expression => exact (gives_any _).andThen fun _ _ => gives_pure rfl
      | print | declare | function =>
        exact (gives_any _).andThen fun _ _ => (gives_any _).andThen fun _ _ => gives_pure rfl
      | block body =>
        refine (gives_any _).andThen ?_
        intro here _
        rw [opened_eq]
        refine (gives_any _).andThen ?_
        intro scope _
        refine (gives_any _).andThen ?_
        intro _ _
        exact (all body plain).within scope
      | branch condition yes no =>
        refine (gives_any _).andThen ?_
        intro value _
        cases no with
        | none =>
          split
          · exact one yes plain
          · exact gives_pure rfl
        | some no =>
          obtain ⟨plainYes, plainNo⟩ := Bool.and_eq_true_iff.mp plain
          split
          · exact one yes plainYes
          · exact one no plainNo
      | loop condition body =>
        refine (gives_any _).andThen ?_
        intro value _
        split
        · refine (one body plain).andThen ?_
          rintro _ rfl
          exact one (.loop condition body) plain
        · exact gives_pure rfl
    · intro stmts plain
      cases stmts with
      | nil => exact gives_pure rfl
      | cons stmt rest =>
        obtain ⟨plainStmt, plainRest⟩ := Bool.and_eq_true_iff.mp plain
        refine (one stmt plainStmt).andThen ?_
        rintro _ rfl
        exact all rest plainRest

theorem runAll_cons_eq {stmt : Stmt} (silent : stmt.isExpression = false) (world : World)
    (fuel : Nat) (result : Option Value) (rest : Program) :
    runAll (M := Run) world fuel result (stmt :: rest) =
      execute world fuel stmt >>= fun returned =>
        match returned with
        | some _ => pure result
        | none => runAll world fuel result rest := by
  cases stmt with
  | expression => cases silent
  | _ => rfl

/-- A statement without a return of its own is run, and then the others are. -/
theorem runAll_cons {stmt : Stmt} (plain : stmt.straight = true)
    (silent : stmt.isExpression = false) (world : World) (fuel : Nat) (result : Option Value)
    (rest : Program) : runAll (M := Run) world fuel result (stmt :: rest) =
      execute world fuel stmt >>= fun _ => runAll world fuel result rest := by
  rw [runAll_cons_eq silent]
  funext state
  simp only [bind_eq, Run.andThen]
  cases out : execute (M := Run) world fuel stmt state with
  | done returned middle =>
    have nothing := (straight world fuel).1 stmt plain state returned middle out
    rw [nothing]
  | fault | spent => rfl

theorem andThen_assoc {α β γ : Type} (run : Run α) (next : α → Run β) (last : β → Run γ) :
    run >>= next >>= last = run >>= fun value => next value >>= last := by
  funext state
  simp only [bind_eq, Run.andThen]
  cases run state <;> rfl

/-- Two programs one after the other, the first without a return of its own, run as one. -/
theorem runAll_append (world : World) (fuel : Nat) (second : Program) :
    ∀ (first : Program) (result : Option Value), Stmt.allStraight first = true →
      runAll (M := Run) world fuel result (first ++ second) =
        runAll world fuel result first >>= fun result => runAll world fuel result second := by
  intro first
  induction first with
  | nil =>
    intro result _
    rfl
  | cons stmt rest ih =>
    intro result plain
    obtain ⟨plainStmt, plainRest⟩ := Bool.and_eq_true_iff.mp plain
    cases stmt with
    | expression expr =>
      rw [List.cons_append, runAll, runAll, andThen_assoc]
      exact congrArg _ (funext fun value => ih (some value) plainRest)
    | print | declare | block | branch | loop | function | ret =>
      rw [List.cons_append, runAll_cons plainStmt rfl, runAll_cons plainStmt rfl,
        andThen_assoc]
      exact congrArg _ (funext fun _ => ih result plainRest)

end Machine

end Lox
