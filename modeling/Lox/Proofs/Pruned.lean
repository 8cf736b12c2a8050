import Lox.Proofs.Outcome
import Lox.Proofs.Plain

set_option autoImplicit false

namespace Lox

namespace Stmt

mutual

/-- Whether a statement gives a value to return on every way out of it. -/
def mustReturn : Stmt → Bool
  | ret .. => true
  | block body => someMustReturn body
  | branch _ yes (some no) => yes.mustReturn && no.mustReturn
  | branch _ _ none | expression _ | function .. | print _ | declare .. | loop .. => false

def someMustReturn : List Stmt → Bool
  | [] => false
  | stmt :: rest => stmt.mustReturn || someMustReturn rest

end

end Stmt

mutual

def Value.pruned : Value → Value
  | .returned value => .returned value.pruned
  | .function name params body closure => .function name params (Stmt.prunedAll body) closure
  | .text s => .text s
  | .number v => .number v
  | .bool b => .bool b
  | .nil => .nil
  | .uninitialized => .uninitialized
  | .native native => .native native

def Expr.pruned : Expr → Expr
  | .assign name value => .assign name value.pruned
  | .binary left operator right => .binary left.pruned operator right.pruned
  | .call callee paren arguments => .call callee.pruned paren (Expr.prunedAll arguments)
  | .grouping inner => .grouping inner.pruned
  | .literal value => .literal value.pruned
  | .logical left operator right => .logical left.pruned operator right.pruned
  | .unary operator right => .unary operator right.pruned
  | .var name => .var name

def Expr.prunedAll : List Expr → List Expr
  | [] => []
  | expr :: rest => expr.pruned :: Expr.prunedAll rest

def Stmt.pruned : Stmt → Stmt
  | .block body => .block (Stmt.prunedAll body)
  | .expression value => .expression value.pruned
  | .function name params body => .function name params (Stmt.prunedAll body)
  | .branch condition yes none => .branch condition.pruned yes.pruned none
  | .branch condition yes (some no) => .branch condition.pruned yes.pruned (some no.pruned)
  | .print value => .print value.pruned
  | .ret keyword none => .ret keyword none
  | .ret keyword (some value) => .ret keyword (some value.pruned)
  | .declare name value => .declare name value.pruned
  | .loop condition body => .loop condition.pruned body.pruned

/-- The statements up to the first that must return, each of them pruned. -/
def Stmt.prunedAll : List Stmt → List Stmt
  | [] => []
  | stmt :: rest => if stmt.mustReturn then [stmt.pruned] else stmt.pruned :: Stmt.prunedAll rest

end

/-- The state with the functions in it pruned. What was recorded stays as it is. -/
def State.pruned (state : State) : State :=
  { state with store := state.store.mapValues Value.pruned }

def Outcome.pruned {α β : Type} (change : α → β) : Outcome α → Outcome β
  | .done value state => .done (change value) state.pruned
  | .fault reason state => .fault reason state.pruned
  | .spent => .spent

def Verdict.pruned (verdict : Verdict) : Verdict :=
  ⟨verdict.result.map Value.pruned, verdict.aborted, verdict.state.pruned⟩

/-- Natives do not look into the bodies of functions. -/
def Host.Discreet (host : Host) : Prop :=
  ∀ count native arguments, host.answerAfter count native (arguments.map Value.pruned) =
    (host.answerAfter count native arguments).pruned

namespace Value

/-- A value that is no function is left as it is. -/
theorem pruned_of_closure?_none : ∀ {value : Value}, value.closure? = none → value.pruned = value
  | .returned value, none_there => by
    have inner : value.pruned = value := pruned_of_closure?_none none_there
    rw [pruned, inner]
  | .function .., none_there => nomatch none_there
  | .text _, _ | .number _, _ | .bool _, _ | .nil, _ | .uninitialized, _ | .native _, _ => rfl

@[simp] theorem print_pruned (value : Value) : value.pruned.print = value.print := by
  fun_induction Value.print value <;> simp only [pruned, print, *]

@[simp] theorem truthy_pruned (value : Value) : value.pruned.truthy = value.truthy := by
  cases value <;> rfl

end Value

namespace Answer

theorem ofUnary_pruned (kind : Kind) (right : Value) :
    ofUnary kind right.pruned = ofUnary kind right := by
  cases right <;> rfl

theorem ofBinary_pruned (kind : Kind) (left right : Value) :
    ofBinary kind left.pruned right.pruned = ofBinary kind left right := by
  cases left <;> cases right <;> rfl

end Answer

theorem Bindings.ofArguments_mapValues (f : Value → Value) (params : List Token)
    (arguments : List Value) :
    ofArguments params (arguments.map f) = (ofArguments params arguments).mapValues f := by
  have bound (pairs : List (Token × Value)) : ∀ bindings : Bindings,
      (pairs.map (Prod.map id f)).foldl (fun bindings pair =>
        bindings.set pair.1.lexeme pair.2) (bindings.mapValues f) =
      (pairs.foldl (fun bindings pair => bindings.set pair.1.lexeme pair.2)
        bindings).mapValues f := by
    induction pairs with
    | nil => exact fun _ => rfl
    | cons pair rest ih =>
      intro bindings
      have here := set_mapValues f bindings pair.1.lexeme pair.2
      simp only [List.map_cons, List.foldl_cons, Prod.map_fst, Prod.map_snd, id, here, ih]
  unfold ofArguments
  rw [List.zip_map_right]
  exact bound (params.zip arguments) []

end Lox
