import Mathlib.Order.Filter.AtTopBot.Basic
import Mathlib.Order.Filter.Finite
import Lox.Proofs.Scanning
import Lox.Proofs.Grammar.Relabel

set_option autoImplicit false

/- To tell the tokens of a text from all others, its lines are counted on from one that no other token
reaches; from there they can be counted anew. -/

namespace Lox

open Filter

namespace Token

/-- The token with the lines after the first `mark` taken for those after the first `lines`. -/
def shown (mark lines : Nat) (token : Token) : Token :=
  if token.line ≤ mark then token else { token with line := token.line - mark + lines }

theorem shown_of_le {mark : Nat} {token : Token} (early : token.line ≤ mark) (lines : Nat) :
    token.shown mark lines = token :=
  if_pos early

theorem shown_lower {token : Token} (counted : 0 < token.line) (mark lines : Nat) :
    (token.lower mark).shown mark lines = token.lower lines := by
  have later : ¬ (token.lower mark).line ≤ mark := by
    simp only [lower]
    omega
  rw [shown, if_neg later]
  simp only [lower]
  congr 1
  omega

end Token

namespace Likeness

def lowered (lines : Nat) : Likeness := fun token other => other = token.lower lines

/-- A token, and the same with its line counted anew. -/
def shown (mark lines : Nat) : Likeness := fun token other => other = token.shown mark lines

theorem lowered_faithful (lines : Nat) : (lowered lines).Faithful where
  kind stands := by rw [stands]; rfl
  lexeme stands := by rw [stands]; rfl

theorem lowered_literals (lines : Nat) : (lowered lines).SameLiterals := by
  intro token other stands
  rw [stands]
  rfl

theorem shown_faithful (mark lines : Nat) : (shown mark lines).Faithful where
  kind stands := by rw [stands, Token.shown]; split <;> rfl
  lexeme stands := by rw [stands, Token.shown]; split <;> rfl

theorem shown_literals (mark lines : Nat) : (shown mark lines).SameLiterals := by
  intro token other stands
  rw [stands, Token.shown]
  split <;> rfl

end Likeness

/-- With so many lines as the mark or more, something is as it was, wherever the others are shown. -/
def Unmoved {α : Type} (alike : Likeness → α → α → Prop) (thing : α) : Prop :=
  ∀ᶠ mark in atTop, ∀ lines, alike (.shown mark lines) thing thing

theorem Token.unmoved (token : Token) : Unmoved (fun like => like) token := by
  filter_upwards [eventually_ge_atTop token.line.toNat] with mark far lines
  exact (shown_of_le (by omega) lines).symm

theorem unmoved_list {α : Type} {alike : Likeness → α → α → Prop} {things : List α}
    (all : ∀ thing ∈ things, Unmoved alike thing) :
    Unmoved (fun like => List.Forall₂ (alike like)) things := by
  have together := (eventually_all_finite things.finite_toSet).mpr all
  filter_upwards [together] with mark same lines
  exact List.forall₂_same.mpr fun thing member => same thing member lines

mutual

theorem Value.unmoved : ∀ value : Value, Unmoved Value.Like value
  | .text _ => .of_forall fun _ _ => .text _
  | .number _ => .of_forall fun _ _ => .number _
  | .bool _ => .of_forall fun _ _ => .bool _
  | .nil => .of_forall fun _ _ => .nil
  | .uninitialized => .of_forall fun _ _ => .uninitialized
  | .native _ => .of_forall fun _ _ => .native _
  | .returned value => by
    filter_upwards [value.unmoved] with mark inner lines
    exact .returned (inner lines)
  | .function name params body closure => by
    filter_upwards [name.unmoved, unmoved_list fun param _ => Token.unmoved param,
      Stmt.unmoved_all body] with mark named listed bodies lines
    exact .function (named lines) (listed lines) (bodies lines) closure

theorem Expr.unmoved : ∀ expr : Expr, Unmoved Expr.Like expr
  | .literal value => by
    filter_upwards [value.unmoved] with mark values lines
    exact .literal (values lines)
  | .grouping inner => by
    filter_upwards [inner.unmoved] with mark inners lines
    exact .grouping (inners lines)
  | .var name => by
    filter_upwards [name.unmoved] with mark named lines
    exact .var (named lines)
  | .assign name value => by
    filter_upwards [name.unmoved, value.unmoved] with mark named values lines
    exact .assign (named lines) (values lines)
  | .unary operator right => by
    filter_upwards [operator.unmoved, right.unmoved] with mark sign rights lines
    exact .unary (sign lines) (rights lines)
  | .binary left operator right => by
    filter_upwards [left.unmoved, operator.unmoved, right.unmoved] with mark lefts sign rights lines
    exact .binary (lefts lines) (sign lines) (rights lines)
  | .logical left operator right => by
    filter_upwards [left.unmoved, operator.unmoved, right.unmoved] with mark lefts sign rights lines
    exact .logical (lefts lines) (sign lines) (rights lines)
  | .call callee paren arguments => by
    filter_upwards [callee.unmoved, paren.unmoved, Expr.unmoved_all arguments] with
      mark callees sign lists lines
    exact .call (callees lines) (sign lines) (lists lines)

theorem Expr.unmoved_all : ∀ exprs : List Expr, Unmoved Expr.AllLike exprs
  | [] => .of_forall fun _ _ => .nil
  | expr :: rest => by
    filter_upwards [expr.unmoved, Expr.unmoved_all rest] with mark first more lines
    exact .cons (first lines) (more lines)

theorem Stmt.unmoved : ∀ stmt : Stmt, Unmoved Stmt.Like stmt
  | .block body => by
    filter_upwards [Stmt.unmoved_all body] with mark bodies lines
    exact .block (bodies lines)
  | .expression value => by
    filter_upwards [value.unmoved] with mark values lines
    exact .expression (values lines)
  | .function name params body => by
    filter_upwards [name.unmoved, unmoved_list fun param _ => Token.unmoved param,
      Stmt.unmoved_all body] with mark named listed bodies lines
    exact .function (named lines) (listed lines) (bodies lines)
  | .branch condition yes none => by
    filter_upwards [condition.unmoved, yes.unmoved] with mark conditions yeses lines
    exact .branch (conditions lines) (yeses lines)
  | .branch condition yes (some no) => by
    filter_upwards [condition.unmoved, yes.unmoved, no.unmoved] with
      mark conditions yeses noes lines
    exact .branchElse (conditions lines) (yeses lines) (noes lines)
  | .print value => by
    filter_upwards [value.unmoved] with mark values lines
    exact .print (values lines)
  | .ret keyword none => by
    filter_upwards [keyword.unmoved] with mark key lines
    exact .retNothing (key lines)
  | .ret keyword (some value) => by
    filter_upwards [keyword.unmoved, value.unmoved] with mark key values lines
    exact .ret (key lines) (values lines)
  | .declare name value => by
    filter_upwards [name.unmoved, value.unmoved] with mark named values lines
    exact .declare (named lines) (values lines)
  | .loop condition body => by
    filter_upwards [condition.unmoved, body.unmoved] with mark conditions bodies lines
    exact .loop (conditions lines) (bodies lines)

theorem Stmt.unmoved_all : ∀ stmts : List Stmt, Unmoved Stmt.AllLike stmts
  | [] => .of_forall fun _ _ => .nil
  | stmt :: rest => by
    filter_upwards [stmt.unmoved, Stmt.unmoved_all rest] with mark first more lines
    exact .cons (first lines) (more lines)

end

theorem Fault.unmoved (fault : Fault) : Unmoved Fault.Like fault := by
  filter_upwards [fault.token.unmoved] with mark token lines
  exact ⟨token lines, rfl⟩

theorem Diagnostic.unmoved (diagnostic : Diagnostic) : Unmoved Diagnostic.Like diagnostic := by
  obtain ⟨token, message, runtime⟩ := diagnostic
  cases token with
  | none => exact .of_forall fun _ _ => ⟨.none, rfl, rfl⟩
  | some token =>
    filter_upwards [token.unmoved] with mark same lines
    exact ⟨.some (same lines), rfl, rfl⟩

theorem Event.unmoved (event : Event) : Unmoved Event.Like event := by
  cases event with
  | printed text => exact .of_forall fun _ _ => .printed text
  | entered name params depth => exact .of_forall fun _ _ => .entered name params depth
  | reported fault =>
    filter_upwards [fault.unmoved] with mark faults lines
    exact .reported (faults lines)
  | noOperator operator =>
    filter_upwards [operator.unmoved] with mark sign lines
    exact .noOperator (sign lines)

theorem Bindings.unmoved (bindings : Bindings) : Unmoved Bindings.Like bindings := by
  have bound (entry : String × Value) :
      Unmoved (fun like one other => other.1 = one.1 ∧ one.2.Like like other.2) entry := by
    filter_upwards [entry.2.unmoved] with mark same lines
    exact ⟨rfl, same lines⟩
  exact unmoved_list fun entry _ => bound entry

theorem Store.unmoved (store : Store) : Unmoved Store.Like store := by
  have all (id : ScopeId) (_ : id ∈ {id | id < store.size}) := (store.bindings id).unmoved
  filter_upwards [(eventually_all_finite (Set.finite_lt_nat _)).mpr all] with mark same lines
  refine ⟨rfl, fun _ => rfl, fun id => ?_⟩
  by_cases inside : id < store.size
  · exact same id inside lines
  · rw [Store.bindings_of_le (Nat.not_lt.mp inside)]
    exact .nil

theorem State.unmoved (state : State) : Unmoved State.Like state := by
  have events : Unmoved (fun like => List.Forall₂ (Event.Like like)) state.trace.toList :=
    unmoved_list fun event _ => event.unmoved
  filter_upwards [state.store.unmoved, events] with mark stores traces lines
  exact ⟨stores lines, rfl, rfl, traces lines, rfl⟩

end Lox
