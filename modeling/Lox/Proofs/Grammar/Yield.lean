import Lox.Grammar.Statement
import Lox.Proofs.Grammar.Step
import Lox.Proofs.Padded

set_option autoImplicit false

namespace Lox

namespace Parse

open Reader

variable {α β : Type}

def Yields (post : α → Prop) (step : Parse α) : Prop :=
  ∀ cursor value after, step cursor = .ok value after → post value

theorem yields_any (step : Parse α) : Yields (fun _ => True) step :=
  fun _ _ _ _ => trivial

theorem yields_pure {post : α → Prop} {value : α} (good : post value) :
    Yields post (pure value) := by
  intro _ _ _ same
  cases same
  exact good

theorem yields_spent {post : α → Prop} : Yields post spent := by
  intro _ _ _ same
  cases same

theorem yields_fail {post : α → Prop} (error : SyntaxError) : Yields post (fail error) := by
  intro _ _ _ same
  cases same

theorem Yields.andThen {mid : α → Prop} {post : β → Prop} {step : Parse α} {next : α → Parse β}
    (first : Yields mid step) (last : ∀ value, mid value → Yields post (next value)) :
    Yields post (step >>= next) := by
  intro cursor value after same
  change Parse.andThen step next cursor = .ok value after at same
  unfold Parse.andThen at same
  cases out : step cursor with
  | ok read middle =>
    rw [out] at same
    exact last read (first cursor read middle out) middle value after same
  | failed | spent =>
    rw [out] at same
    cases same

/-- What comes of the first step does not matter. -/
theorem yields_after {post : β → Prop} {step : Parse α} {next : α → Parse β}
    (last : ∀ value, Yields post (next value)) : Yields post (step >>= next) :=
  (yields_any step).andThen fun value _ => last value

theorem Yields.map {mid : α → Prop} {post : β → Prop} {step : Parse α} {change : α → β}
    (first : Yields mid step) (last : ∀ value, mid value → post (change value)) :
    Yields post (change <$> step) :=
  first.andThen fun value good => yields_pure (last value good)

theorem Yields.inFunction {post : α → Prop} {body : Parse α} (bodies : Yields post body) :
    Yields post (inFunction body) := by
  intro cursor value after same
  unfold Parse.inFunction at same
  cases out : body { cursor with functions := cursor.functions + 1 } with
  | ok read middle =>
    rw [out] at same
    cases same
    exact bodies _ _ _ out
  | failed | spent =>
    rw [out] at same
    cases same

theorem Yields.recovering {post : α → Prop} {statement : Parse α} (reads : Yields post statement) :
    Yields (fun read => ∀ value ∈ read, post value) (recovering statement) := by
  intro cursor read after same
  unfold Parse.recovering at same
  cases out : statement cursor with
  | ok value middle =>
    rw [out] at same
    cases same
    rintro _ ⟨⟩
    exact reads _ _ _ out
  | failed middle =>
    rw [out] at same
    cases same
    rintro _ ⟨⟩
  | spent =>
    rw [out] at same
    cases same

variable {base depth : Nat}

theorem yields_acceptAtom (base : Nat) :
    Yields (fun read => ∀ expr ∈ read, expr.anchored base = true) acceptAtom := by
  intro cursor read after same
  unfold acceptAtom at same
  cases ahead : cursor.ahead with
  | nil =>
    rw [ahead] at same
    cases same
    rintro _ ⟨⟩
  | cons next rest =>
    simp only [ahead] at same
    cases made : Expr.ofToken? next with
    | none =>
      rw [made] at same
      cases same
      rintro _ ⟨⟩
    | some expr =>
      rw [made] at same
      cases same
      rintro _ ⟨⟩
      unfold Expr.ofToken? at made
      split at made <;> cases made <;> rfl

theorem anchored_join (level : Level) {left right : Expr} (operator : Token)
    (lefts : left.anchored base = true) (rights : right.anchored base = true) :
    (level.join left operator right).anchored base = true := by
  have both := Bool.and_eq_true_iff.mpr ⟨lefts, rights⟩
  cases level <;> exact both

structure ExpressionsYield (base depth : Nat) : Prop where
  expression : Yields (fun expr => expr.anchored base = true) (expressionWithin depth)
  operand (level : Option Level) :
    Yields (fun expr => expr.anchored base = true) (operandWithin depth level)
  chain (level : Level) {left : Expr} (lefts : left.anchored base = true) :
    Yields (fun expr => expr.anchored base = true) (chainWithin depth level left)
  unary : Yields (fun expr => expr.anchored base = true) (unaryWithin depth)
  calls {callee : Expr} (callees : callee.anchored base = true) :
    Yields (fun expr => expr.anchored base = true) (callsWithin depth callee)
  arguments (count : Nat) :
    Yields (fun exprs => Expr.allAnchored base exprs = true) (argumentsWithin depth count)
  primary : Yields (fun expr => expr.anchored base = true) (primaryWithin depth)

namespace ExpressionsYield

theorem expression_succ (upto : ExpressionsYield base depth) :
    Yields (fun expr => expr.anchored base = true) (expressionWithin (depth + 1)) := by
  unfold expressionWithin
  refine (upto.operand (some .disjunction)).andThen ?_
  intro left lefts
  refine yields_after ?_
  intro sign
  cases sign with
  | none => exact yields_pure lefts
  | some equals =>
    refine upto.expression.andThen ?_
    intro value values
    cases left with
    | var name => exact yields_pure values
    | _ => exact yields_after fun _ => yields_pure lefts

theorem operand_succ (upto : ExpressionsYield base depth) (level : Option Level) :
    Yields (fun expr => expr.anchored base = true) (operandWithin (depth + 1) level) := by
  unfold operandWithin
  cases level with
  | none => exact upto.unary
  | some level =>
    refine (upto.operand level.tighter).andThen ?_
    intro left lefts
    exact upto.chain level lefts

theorem chain_succ (upto : ExpressionsYield base depth) (level : Level) {left : Expr}
    (lefts : left.anchored base = true) :
    Yields (fun expr => expr.anchored base = true) (chainWithin (depth + 1) level left) := by
  unfold chainWithin
  refine yields_after ?_
  intro sign
  cases sign with
  | none => exact yields_pure lefts
  | some operator =>
    refine (upto.operand level.tighter).andThen ?_
    intro right rights
    exact upto.chain level (anchored_join level operator lefts rights)

theorem unary_succ (upto : ExpressionsYield base depth) :
    Yields (fun expr => expr.anchored base = true) (unaryWithin (depth + 1)) := by
  unfold unaryWithin
  refine yields_after ?_
  intro sign
  cases sign with
  | none =>
    refine upto.primary.andThen ?_
    intro callee callees
    exact upto.calls callees
  | some operator =>
    refine upto.unary.andThen ?_
    intro right rights
    exact yields_pure rights

theorem calls_succ (upto : ExpressionsYield base depth) {callee : Expr}
    (callees : callee.anchored base = true) :
    Yields (fun expr => expr.anchored base = true) (callsWithin (depth + 1) callee) := by
  unfold callsWithin
  refine yields_after ?_
  intro opening
  cases opening with
  | none => exact yields_pure callees
  | some _ =>
    have lists : Yields (fun exprs => Expr.allAnchored base exprs = true)
        (do if ← sees .rightParen then pure [] else argumentsWithin depth 0) := by
      refine yields_after ?_
      intro closes
      cases closes with
      | true => exact yields_pure rfl
      | false => exact upto.arguments 0
    refine lists.andThen ?_
    intro arguments listed
    refine yields_after ?_
    intro paren
    exact upto.calls (Bool.and_eq_true_iff.mpr ⟨callees, listed⟩)

theorem arguments_succ (upto : ExpressionsYield base depth) (count : Nat) :
    Yields (fun exprs => Expr.allAnchored base exprs = true) (argumentsWithin (depth + 1) count) := by
  rw [argumentsWithin]
  refine yields_after ?_
  intro _
  refine upto.expression.andThen ?_
  intro argument first
  refine yields_after ?_
  intro comma
  cases comma with
  | none => exact yields_pure (Bool.and_eq_true_iff.mpr ⟨first, rfl⟩)
  | some _ =>
    refine (upto.arguments (count + 1)).andThen ?_
    intro others more
    exact yields_pure (Bool.and_eq_true_iff.mpr ⟨first, more⟩)

theorem primary_succ (upto : ExpressionsYield base depth) :
    Yields (fun expr => expr.anchored base = true) (primaryWithin (depth + 1)) := by
  unfold primaryWithin
  refine (yields_acceptAtom base).andThen ?_
  intro atom atoms
  cases atom with
  | some expr => exact yields_pure (atoms expr rfl)
  | none =>
    refine yields_after ?_
    intro opening
    cases opening with
    | none => exact yields_fail _
    | some _ =>
      refine upto.expression.andThen ?_
      intro inner inners
      exact yields_after fun _ => yields_pure inners

end ExpressionsYield

theorem expressionsYield (base depth : Nat) : ExpressionsYield base depth := by
  induction depth with
  | zero =>
    exact ⟨yields_spent, fun _ => yields_spent, fun _ _ _ => yields_spent, yields_spent,
      fun _ => yields_spent, fun _ => yields_spent, yields_spent⟩
  | succ depth ih =>
    exact ⟨ih.expression_succ, ih.operand_succ, ih.chain_succ, ih.unary_succ, ih.calls_succ,
      ih.arguments_succ, ih.primary_succ⟩

end Parse

/-- Trees of which reading makes statements: no literal is a function, and nothing is bound where
the statement is run. -/
structure Stmt.Closed (base : Nat) (stmt : Stmt) : Prop where
  bindless : stmt.bindless = true
  anchored : stmt.anchored base = true

namespace Parse

open Reader

variable {base depth : Nat}

theorem yields_expression (base : Nat) : Yields (fun expr => expr.anchored base = true) expression :=
  fun cursor value after same => (expressionsYield base _).expression cursor value after same

theorem yields_maybe (base : Nat) (kind : Kind) :
    Yields (fun read => ∀ expr ∈ read, expr.anchored base = true)
    (do if ← sees kind then pure none else some <$> expression) := by
  refine yields_after ?_
  intro closes
  cases closes with
  | true => exact yields_pure (by rintro _ ⟨⟩)
  | false => exact (yields_expression base).map (by rintro expr good _ ⟨⟩; exact good)

theorem yields_variableStatement (base : Nat) :
    Yields (fun stmt => stmt.anchored base = true) variableStatement := by
  unfold variableStatement
  refine yields_after ?_
  intro name
  refine Yields.andThen (?_ : Yields (fun expr => expr.anchored base = true) _) ?_
  · refine yields_after ?_
    intro sign
    cases sign with
    | none => exact yields_pure rfl
    | some _ => exact yields_expression base
  · intro value good
    exact yields_after fun _ => yields_pure good

theorem yields_ended {base : Nat} (error : SyntaxError) {make : Expr → Stmt}
    (made : ∀ expr, expr.anchored base = true → (make expr).Closed base) :
    Yields (Stmt.Closed base) (ended error make) := by
  unfold ended
  refine (yields_expression base).andThen ?_
  intro value good
  exact yields_after fun _ => yields_pure (made value good)

theorem yields_returnStatement (base : Nat) (keyword : Token) :
    Yields (Stmt.Closed base) (returnStatement keyword) := by
  unfold returnStatement
  refine yields_after ?_
  intro _
  refine (yields_maybe base .semicolon).andThen ?_
  intro value good
  refine yields_after ?_
  intro _
  cases value with
  | none => exact yields_pure ⟨rfl, rfl⟩
  | some expr => exact yields_pure ⟨rfl, good expr rfl⟩

theorem yields_forInitial (base : Nat) :
    Yields (fun read => ∀ stmt ∈ read, stmt.anchored base = true) forInitial := by
  unfold forInitial
  refine yields_after ?_
  intro absent
  cases absent with
  | some _ => exact yields_pure (by rintro _ ⟨⟩)
  | none =>
    refine yields_after ?_
    intro keyword
    cases keyword with
    | some _ => exact (yields_variableStatement base).map (by rintro stmt good _ ⟨⟩; exact good)
    | none =>
      have last : Yields (Stmt.Closed base) (ended .noSemicolonAfterExpression .expression) :=
        yields_ended _ fun _ good => ⟨rfl, good⟩
      exact last.map (by rintro stmt good _ ⟨⟩; exact good.anchored)

theorem yields_forCondition (base : Nat) :
    Yields (fun expr => expr.anchored base = true) forCondition := by
  unfold forCondition
  have tests : Yields (fun expr => expr.anchored base = true) (do
      if ← sees .semicolon then pure (.literal (.bool true)) else expression) := by
    refine yields_after ?_
    intro closes
    cases closes with
    | true => exact yields_pure rfl
    | false => exact yields_expression base
  refine tests.andThen ?_
  intro condition good
  exact yields_after fun _ => yields_pure good

theorem yields_forIncrement (base : Nat) :
    Yields (fun read => ∀ expr ∈ read, expr.anchored base = true) forIncrement := by
  unfold forIncrement
  refine (yields_maybe base .rightParen).andThen ?_
  intro increment good
  exact yields_after fun _ => yields_pure good

/-- What a `for` stands for binds nothing where it is run, if its body does not. -/
theorem closed_ofFor {initial : Option Stmt} {condition : Expr} {increment : Option Expr} {body : Stmt}
    (initials : ∀ stmt ∈ initial, stmt.anchored base = true) (tests : condition.anchored base = true)
    (steps : ∀ expr ∈ increment, expr.anchored base = true) (bodies : body.Closed base) :
    (Stmt.ofFor initial condition increment body).Closed base := by
  have turns : (Stmt.ofFor none condition increment body).Closed base := by
    cases increment with
    | none => exact ⟨bodies.bindless, Bool.and_eq_true_iff.mpr ⟨tests, bodies.anchored⟩⟩
    | some step =>
      have last : Stmt.allAnchored base [.expression step] = true :=
        Bool.and_eq_true_iff.mpr ⟨steps step rfl, rfl⟩
      have turn := Bool.and_eq_true_iff.mpr ⟨bodies.anchored, last⟩
      exact ⟨rfl, Bool.and_eq_true_iff.mpr ⟨tests, turn⟩⟩
  cases initial with
  | none => exact turns
  | some first =>
    have last : Stmt.allAnchored base [.ofFor none condition increment body] = true :=
      Bool.and_eq_true_iff.mpr ⟨turns.anchored, rfl⟩
    exact ⟨rfl, Bool.and_eq_true_iff.mpr ⟨initials first rfl, last⟩⟩

theorem allAnchored_append {first : Option Stmt} (firsts : ∀ stmt ∈ first, stmt.anchored base = true)
    {rest : List Stmt} (more : Stmt.allAnchored base rest = true) :
    Stmt.allAnchored base (first.toList ++ rest) = true := by
  cases first with
  | none => exact more
  | some stmt => exact Bool.and_eq_true_iff.mpr ⟨firsts stmt rfl, more⟩

structure StatementsYield (base depth : Nat) : Prop where
  declaration : Yields (fun read => ∀ stmt ∈ read, stmt.anchored base = true)
    (declarationWithin depth)
  function : Yields (fun stmt => stmt.anchored base = true) (functionWithin depth)
  statement : Yields (Stmt.Closed base) (statementWithin depth)
  forLoop : Yields (Stmt.Closed base) (forWithin depth)
  branch : Yields (Stmt.Closed base) (ifWithin depth)
  loop : Yields (Stmt.Closed base) (whileWithin depth)
  block : Yields (fun stmts => Stmt.allAnchored base stmts = true) (blockWithin depth)
  declarations (inBlock : Bool) :
    Yields (fun stmts => Stmt.allAnchored base stmts = true) (declarationsWithin depth inBlock)

namespace StatementsYield

theorem declaration_succ (upto : StatementsYield base depth) :
    Yields (fun read => ∀ stmt ∈ read, stmt.anchored base = true)
      (declarationWithin (depth + 1)) := by
  unfold declarationWithin
  refine Yields.recovering ?_
  refine yields_after ?_
  intro function
  cases function with
  | some _ => exact upto.function
  | none =>
    refine yields_after ?_
    intro binding
    cases binding with
    | some _ => exact yields_variableStatement base
    | none => exact fun cursor stmt after same => (upto.statement cursor stmt after same).anchored

theorem function_succ (upto : StatementsYield base depth) :
    Yields (fun stmt => stmt.anchored base = true) (functionWithin (depth + 1)) := by
  unfold functionWithin
  refine yields_after ?_
  intro name
  refine yields_after ?_
  intro params
  refine yields_after ?_
  intro _
  refine upto.block.inFunction.andThen ?_
  intro body good
  exact yields_pure good

theorem statement_succ (upto : StatementsYield base depth) :
    Yields (Stmt.Closed base) (statementWithin (depth + 1)) := by
  unfold statementWithin
  refine yields_after ?_
  rintro (_ | _)
  on_goal 2 => exact upto.forLoop
  refine yields_after ?_
  rintro (_ | _)
  on_goal 2 => exact upto.branch
  refine yields_after ?_
  rintro (_ | _)
  on_goal 2 => exact yields_ended _ fun _ good => ⟨rfl, good⟩
  refine yields_after ?_
  rintro (_ | keyword)
  on_goal 2 => exact yields_returnStatement base keyword
  refine yields_after ?_
  rintro (_ | _)
  on_goal 2 => exact upto.loop
  refine yields_after ?_
  rintro (_ | _)
  · exact yields_ended _ fun _ good => ⟨rfl, good⟩
  · refine upto.block.andThen ?_
    intro body good
    exact yields_pure ⟨rfl, good⟩

theorem forLoop_succ (upto : StatementsYield base depth) :
    Yields (Stmt.Closed base) (forWithin (depth + 1)) := by
  unfold forWithin
  refine yields_after ?_
  intro _
  refine (yields_forInitial base).andThen ?_
  intro initial initials
  refine (yields_forCondition base).andThen ?_
  intro condition tests
  refine (yields_forIncrement base).andThen ?_
  intro increment steps
  refine upto.statement.andThen ?_
  intro body bodies
  exact yields_pure (closed_ofFor initials tests steps bodies)

theorem branch_succ (upto : StatementsYield base depth) :
    Yields (Stmt.Closed base) (ifWithin (depth + 1)) := by
  unfold ifWithin
  refine yields_after ?_
  intro _
  refine (yields_expression base).andThen ?_
  intro condition tests
  refine yields_after ?_
  intro _
  refine upto.statement.andThen ?_
  intro yes yeses
  have both := Bool.and_eq_true_iff.mpr ⟨tests, yeses.anchored⟩
  refine yields_after ?_
  intro other
  cases other with
  | none => exact yields_pure ⟨yeses.bindless, both⟩
  | some _ =>
    refine upto.statement.andThen ?_
    intro no noes
    exact yields_pure ⟨Bool.and_eq_true_iff.mpr ⟨yeses.bindless, noes.bindless⟩,
      Bool.and_eq_true_iff.mpr ⟨both, noes.anchored⟩⟩

theorem loop_succ (upto : StatementsYield base depth) :
    Yields (Stmt.Closed base) (whileWithin (depth + 1)) := by
  unfold whileWithin
  refine yields_after ?_
  intro _
  refine (yields_expression base).andThen ?_
  intro condition tests
  refine yields_after ?_
  intro _
  refine upto.statement.andThen ?_
  intro body bodies
  exact yields_pure ⟨bodies.bindless, Bool.and_eq_true_iff.mpr ⟨tests, bodies.anchored⟩⟩

theorem block_succ (upto : StatementsYield base depth) :
    Yields (fun stmts => Stmt.allAnchored base stmts = true) (blockWithin (depth + 1)) := by
  unfold blockWithin
  refine (upto.declarations true).andThen ?_
  intro body good
  exact yields_after fun _ => yields_pure good

theorem declarations_succ (upto : StatementsYield base depth) (inBlock : Bool) :
    Yields (fun stmts => Stmt.allAnchored base stmts = true)
      (declarationsWithin (depth + 1) inBlock) := by
  have both : Yields (fun stmts => Stmt.allAnchored base stmts = true) (do
      let first ← declarationWithin depth
      let others ← declarationsWithin depth inBlock
      pure (first.toList ++ others)) := by
    refine upto.declaration.andThen ?_
    intro first firsts
    refine (upto.declarations inBlock).andThen ?_
    intro rest more
    exact yields_pure (allAnchored_append firsts more)
  intro cursor stmts after same
  rw [declarationsWithin_succ] at same
  split at same
  · cases same
    rfl
  · exact both cursor stmts after same

end StatementsYield

theorem statementsYield (base depth : Nat) : StatementsYield base depth := by
  induction depth with
  | zero =>
    exact ⟨yields_spent, yields_spent, yields_spent, yields_spent, yields_spent, yields_spent,
      yields_spent, fun _ => yields_spent⟩
  | succ depth ih =>
    exact ⟨ih.declaration_succ, ih.function_succ, ih.statement_succ, ih.forLoop_succ,
      ih.branch_succ, ih.loop_succ, ih.block_succ, ih.declarations_succ⟩

end Parse

end Lox
