import Lox.Proofs.Operators
import Lox.Proofs.Grammar.Derivation

set_option autoImplicit false

namespace Lox

mutual

def Expr.proper : Expr → Bool
  | .assign _ value => value.proper
  | .binary left operator right => isBinary operator.kind && left.proper && right.proper
  | .call callee _ arguments => callee.proper && Expr.allProper arguments
  | .grouping inner => inner.proper
  | .literal value => value.written
  | .logical left _ right => left.proper && right.proper
  | .unary operator right => isUnary operator.kind && right.proper
  | .var _ => true

def Expr.allProper : List Expr → Bool
  | [] => true
  | expr :: rest => expr.proper && Expr.allProper rest

end

mutual

def Stmt.proper : Stmt → Bool
  | .block body => Stmt.allProper body
  | .expression value => value.proper
  | .function _ _ body => Stmt.allProper body
  | .branch condition yes none => condition.proper && yes.proper
  | .branch condition yes (some no) => condition.proper && yes.proper && no.proper
  | .print value => value.proper
  | .ret _ none => true
  | .ret _ (some value) => value.proper
  | .declare _ value => value.proper
  | .loop condition body => condition.proper && body.proper

def Stmt.allProper : List Stmt → Bool
  | [] => true
  | stmt :: rest => stmt.proper && Stmt.allProper rest

end

theorem Level.isBinary_of_mem {level : Level} {kind : Kind} (binary : level.logical = false)
    (member : kind ∈ level.operators) : isBinary kind = true := by
  have all : ∀ kind ∈ level.operators, isBinary kind = true := by
    cases level with
    | disjunction | conjunction => cases binary
    | equality | comparison | term | factor => decide
  exact all kind member

namespace Phrase

def proper : Phrase → Bool
  | .expr _ tree => tree.proper
  | .list trees => Expr.allProper trees

theorem Derives.proper {phrase : Phrase} {tokens : List Token} (derives : phrase.Derives tokens) :
    phrase.proper = true := by
  induction derives with
  | tighter _ _ inner => exact inner
  | assign _ _ _ right => exact right
  | logical _ _ _ _ _ lefts rights => exact Bool.and_eq_true_iff.mpr ⟨lefts, rights⟩
  | binary binary _ sign _ _ lefts rights =>
    have known := Bool.and_eq_true_iff.mpr ⟨Level.isBinary_of_mem binary sign, lefts⟩
    exact Bool.and_eq_true_iff.mpr ⟨known, rights⟩
  | unary sign _ rights =>
    refine Bool.and_eq_true_iff.mpr ⟨?_, rights⟩
    rcases sign with bang | minus
    · rw [bang]
      rfl
    · rw [minus]
      rfl
  | callEmpty _ _ _ callees => exact Bool.and_eq_true_iff.mpr ⟨callees, rfl⟩
  | call _ _ _ _ _ callees lists => exact Bool.and_eq_true_iff.mpr ⟨callees, lists⟩
  | grouping _ _ _ inners => exact inners
  | number | text | yes | no | nil | var => rfl
  | single _ one => exact Bool.and_eq_true_iff.mpr ⟨one, rfl⟩
  | several _ _ _ one others => exact Bool.and_eq_true_iff.mpr ⟨one, others⟩

end Phrase

theorem Ended.proper {value : Expr} {tokens : List Token} (ended : Ended value tokens) :
    value.proper = true := by
  obtain ⟨values, _⟩ := ended
  exact values.proper

theorem Variable.proper {tree : Stmt} {tokens : List Token} (declares : Variable tree tokens) :
    tree.proper = true := by
  cases declares with
  | bare => rfl
  | valued _ _ values => exact values.proper

theorem Initial.proper {tree : Stmt} {tokens : List Token} (initial : Initial tree tokens) :
    tree.proper = true := by
  cases initial with
  | binding _ declares => exact declares.proper
  | expression values => exact values.proper

theorem Condition.proper {test : Expr} {tokens : List Token} (condition : Condition test tokens) :
    test.proper = true := by
  cases condition with
  | absent => rfl
  | given values => exact values.proper

namespace Sentence

def proper : Sentence → Bool
  | .statement _ tree | .turns _ tree | .declaration tree => tree.proper
  | .declarations trees => Stmt.allProper trees

theorem Derives.proper {inside : Bool} {sentence : Sentence} {tokens : List Token}
    (derives : sentence.Derives inside tokens) : sentence.proper = true := by
  induction derives with
  | expression values | print _ values | ret _ values => exact values.proper
  | retNothing | nothing => rfl
  | block _ _ _ body => exact body
  | branch _ _ tests _ _ yes => exact Bool.and_eq_true_iff.mpr ⟨tests.proper, yes⟩
  | branchElse _ _ tests _ _ _ _ yes no =>
    have both := Bool.and_eq_true_iff.mpr ⟨tests.proper, yes⟩
    exact Bool.and_eq_true_iff.mpr ⟨both, no⟩
  | loop _ _ tests _ _ body => exact Bool.and_eq_true_iff.mpr ⟨tests.proper, body⟩
  | forever _ _ _ _ rounds => exact rounds
  | forFrom _ _ initials _ rounds =>
    have rest := Bool.and_eq_true_iff.mpr ⟨rounds, rfl⟩
    exact Bool.and_eq_true_iff.mpr ⟨initials.proper, rest⟩
  | turns tests _ _ body => exact Bool.and_eq_true_iff.mpr ⟨tests.proper, body⟩
  | turnsStepping tests steps _ _ body =>
    have step := Bool.and_eq_true_iff.mpr ⟨steps.proper, rfl⟩
    have turn := Bool.and_eq_true_iff.mpr ⟨body, step⟩
    exact Bool.and_eq_true_iff.mpr ⟨tests.proper, turn⟩
  | statement _ tree => exact tree
  | binding _ declares => exact declares.proper
  | function _ _ _ _ _ _ _ _ body => exact body
  | first _ _ tree rest => exact Bool.and_eq_true_iff.mpr ⟨tree, rest⟩

end Sentence

end Lox
