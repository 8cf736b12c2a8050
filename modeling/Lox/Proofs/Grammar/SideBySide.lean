import Lox.Proofs.Grammar.Step
import Lox.Proofs.Grammar.Relabel

set_option autoImplicit false

namespace Lox

/-- Readings that came to the same, with values so related, and at places related as the ones or the
others, as they succeeded or failed. -/
inductive Parsed.Rel {α β : Type} (ends fails : Cursor → Cursor → Prop) (relates : α → β → Prop) :
    Parsed α → Parsed β → Prop
  | ok {value : α} {other : β} {cursor twin : Cursor} (values : relates value other)
      (there : ends cursor twin) : Rel ends fails relates (.ok value cursor) (.ok other twin)
  | failed {cursor twin : Cursor} (there : fails cursor twin) :
      Rel ends fails relates (.failed cursor) (.failed twin)
  | spent : Rel ends fails relates .spent .spent

theorem Parsed.Rel.imp {α β : Type} {ends fails : Cursor → Cursor → Prop} {R S : α → β → Prop}
    {first : Parsed α} {second : Parsed β} (both : first.Rel ends fails R second)
    (implies : ∀ value other, R value other → S value other) : first.Rel ends fails S second := by
  cases both with
  | ok values there => exact .ok (implies _ _ values) there
  | failed there => exact .failed there
  | spent => exact .spent

theorem Likeness.sameLiterals_eq : Likeness.SameLiterals Eq :=
  fun _ _ same => by rw [same]

/-- Tokens that stand for each other are by themselves expressions that do. -/
theorem Expr.like_ofToken? {like : Likeness} (faithful : like.Faithful)
    (literals : like.SameLiterals)
    {token other : Token} (stands : like token other) :
    Option.Rel (Expr.Like like) (Expr.ofToken? token) (Expr.ofToken? other) := by
  unfold Expr.ofToken?
  rw [faithful.kind stands, literals token other stands]
  split
  · exact .some (.literal (.bool false))
  · exact .some (.literal (.bool true))
  · exact .some (.literal .nil)
  · exact .some (.literal (.number _))
  · exact .some (.literal (.text _))
  · exact .some (.var stands)
  · exact .none

/-- How the readings of two readers are compared, given how the values have to be related that
they come to. -/
structure SideBySide (M N : Type → Type) where
  /-- What holds of any two readings. -/
  keeps {α β : Type} : (α → β → Prop) → M α → N β → Prop
  /-- What holds of readings that take a token if they succeed. -/
  takes {α β : Type} : (α → β → Prop) → M α → N β → Prop

namespace SideBySide

open Reader

variable {M N : Type → Type} [Reader M] [Reader N]

/-- The relation is kept by all of which expressions are made. No semicolon is ever asked for. -/
structure Expressions (side : SideBySide M N) (like : Likeness) : Prop where
  pure {α β : Type} {R : α → β → Prop} {value : α} {other : β} (related : R value other) :
    side.keeps R (pure value) (pure other)
  lax {α β : Type} {R : α → β → Prop} {first : M α} {second : N β}
    (takes : side.takes R first second) : side.keeps R first second
  andThen {α β γ δ : Type} {R : α → β → Prop} {S : γ → δ → Prop} {first : M α} {second : N β}
    {next : α → M γ} {after : β → N δ} (firsts : side.keeps R first second)
    (nexts : ∀ value other, R value other → side.keeps S (next value) (after other)) :
    side.keeps S (first >>= next) (second >>= after)
  takesThen {α β γ δ : Type} {R : α → β → Prop} {S : γ → δ → Prop} {first : M α} {second : N β}
    {next : α → M γ} {after : β → N δ} (firsts : side.takes R first second)
    (nexts : ∀ value other, R value other → side.keeps S (next value) (after other)) :
    side.takes S (first >>= next) (second >>= after)
  thenTakes {α β γ δ : Type} {R : α → β → Prop} {S : γ → δ → Prop} {first : M α} {second : N β}
    {next : α → M γ} {after : β → N δ} (firsts : side.keeps R first second)
    (nexts : ∀ value other, R value other → side.takes S (next value) (after other)) :
    side.takes S (first >>= next) (second >>= after)
  spent {α β : Type} {R : α → β → Prop} : side.takes R (step Parse.spent) (step Parse.spent)
  fail {α β : Type} {R : α → β → Prop} {error : SyntaxError}
    (other : error ≠ .returnOutsideFunction) :
    side.takes R (step (Parse.fail error)) (step (Parse.fail error))
  note {error : SyntaxError} (other : error ≠ .returnOutsideFunction) {token twin : Token}
    (stands : like token twin) :
    side.keeps Eq (step (Parse.note error token)) (step (Parse.note error twin))
  noteHere {error : SyntaxError} (other : error ≠ .returnOutsideFunction) :
    side.keeps Eq (step (Parse.noteHere error)) (step (Parse.noteHere error))
  sees (kind : Kind) : side.keeps Eq (step (Parse.sees kind)) (step (Parse.sees kind))
  accept {α β : Type} {R : α → β → Prop} {among : Kind → Bool} (passing : among .semicolon = false)
    {next : Option Token → M α} {after : Option Token → N β}
    (without : side.keeps R (next none) (after none))
    (taken : ∀ token other, like token other →
      side.keeps R (next (some token)) (after (some other))) :
    side.keeps R (step (Parse.accept among) >>= next) (step (Parse.accept among) >>= after)
  acceptTakes {α β : Type} {R : α → β → Prop} {among : Kind → Bool}
    (passing : among .semicolon = false) {next : Option Token → M α} {after : Option Token → N β}
    (without : side.takes R (next none) (after none))
    (taken : ∀ token other, like token other →
      side.keeps R (next (some token)) (after (some other))) :
    side.takes R (step (Parse.accept among) >>= next) (step (Parse.accept among) >>= after)
  acceptAtom {α β : Type} {R : α → β → Prop} {next : Option Expr → M α} {after : Option Expr → N β}
    (without : side.takes R (next none) (after none))
    (taken : ∀ expr twin, expr.Like like twin →
      side.keeps R (next (some expr)) (after (some twin))) :
    side.takes R (step Parse.acceptAtom >>= next) (step Parse.acceptAtom >>= after)

variable {side : SideBySide M N} {like : Likeness}

namespace Expressions

theorem expect (steps : side.Expressions like) {kind : Kind}
    (passing : (Kind.semicolon == kind) = false) {error : SyntaxError}
    (other : error ≠ .returnOutsideFunction) :
    side.takes like (Reader.expect kind error) (Reader.expect kind error) := by
  apply steps.acceptTakes passing
  · exact steps.fail other
  · intro token other stands
    exact steps.pure stands

theorem seen (steps : side.Expressions like) (kind : Kind) {α β : Type} {R : α → β → Prop}
    {first third : M α} {second fourth : N β} (yes : side.keeps R first second)
    (no : side.keeps R third fourth) :
    side.keeps R (step (Parse.sees kind) >>= fun seen => if seen then first else third)
      (step (Parse.sees kind) >>= fun seen => if seen then second else fourth) := by
  apply steps.andThen (steps.sees kind)
  rintro seen _ rfl
  split
  · exact yes
  · exact no

/-- The check of a count, which is noted where it is exceeded. -/
theorem counted (steps : side.Expressions like) {error : SyntaxError}
    (other : error ≠ .returnOutsideFunction) (count : Nat) :
    side.keeps Eq
      (if maxArguments ≤ count then step (Parse.noteHere error) else Pure.pure () : M Unit)
      (if maxArguments ≤ count then step (Parse.noteHere error) else Pure.pure () : N Unit) := by
  split
  · exact steps.noteHere other
  · exact steps.pure rfl

end Expressions

theorem joins_semicolon (level : Level) : level.joins .semicolon = false := by
  cases level <;> rfl

theorem like_join {like : Likeness} (level : Level) {left right first second : Expr}
    {operator other : Token} (lefts : left.Like like first) (sign : like operator other)
    (rights : right.Like like second) :
    (level.join left operator right).Like like (level.join first other second) := by
  cases level with
  | disjunction | conjunction => exact .logical lefts sign rights
  | equality | comparison | term | factor => exact .binary lefts sign rights

structure ExpressionsUpto (side : SideBySide M N) (like : Likeness) (depth : Nat) : Prop where
  expression : side.takes (Expr.Like like) (expressionWithin depth) (expressionWithin depth)
  operand (level : Option Level) :
    side.takes (Expr.Like like) (operandWithin depth level) (operandWithin depth level)
  chain (level : Level) {left twin : Expr} (lefts : left.Like like twin) :
    side.keeps (Expr.Like like) (chainWithin depth level left) (chainWithin depth level twin)
  unary : side.takes (Expr.Like like) (unaryWithin depth) (unaryWithin depth)
  calls {callee twin : Expr} (callees : callee.Like like twin) :
    side.keeps (Expr.Like like) (callsWithin depth callee) (callsWithin depth twin)
  arguments (count : Nat) :
    side.takes (Expr.AllLike like) (argumentsWithin depth count) (argumentsWithin depth count)
  primary : side.takes (Expr.Like like) (primaryWithin depth) (primaryWithin depth)

namespace Expressions

variable {depth : Nat}

theorem expression_succ (steps : side.Expressions like) (upto : side.ExpressionsUpto like depth) :
    side.takes (Expr.Like like) (expressionWithin (depth + 1)) (expressionWithin (depth + 1)) := by
  rw [expressionWithin, expressionWithin]
  apply steps.takesThen (upto.operand (some .disjunction))
  intro left twin lefts
  apply steps.accept rfl
  · exact steps.pure lefts
  · intro equals sign stands
    apply steps.andThen (steps.lax upto.expression)
    intro value other values
    cases lefts with
    | var named => exact steps.pure (.assign named values)
    | assign | binary | call | grouping | literal | logical | unary =>
      apply steps.andThen (steps.note (by decide) stands)
      intro _ _ _
      exact steps.pure (by constructor <;> assumption)

theorem operand_succ (steps : side.Expressions like) (upto : side.ExpressionsUpto like depth)
    (level : Option Level) :
    side.takes (Expr.Like like) (operandWithin (depth + 1) level) (operandWithin (depth + 1) level) := by
  cases level with
  | none =>
    rw [operandWithin, operandWithin]
    exact upto.unary
  | some level =>
    rw [operandWithin, operandWithin]
    apply steps.takesThen (upto.operand level.tighter)
    intro left twin lefts
    exact upto.chain level lefts

theorem chain_succ (steps : side.Expressions like) (upto : side.ExpressionsUpto like depth)
    (level : Level) {left twin : Expr} (lefts : left.Like like twin) :
    side.keeps (Expr.Like like) (chainWithin (depth + 1) level left)
      (chainWithin (depth + 1) level twin) := by
  rw [chainWithin, chainWithin]
  apply steps.accept (joins_semicolon level)
  · exact steps.pure lefts
  · intro operator other sign
    apply steps.andThen (steps.lax (upto.operand level.tighter))
    intro right second rights
    exact upto.chain level (like_join level lefts sign rights)

theorem unary_succ (steps : side.Expressions like) (upto : side.ExpressionsUpto like depth) :
    side.takes (Expr.Like like) (unaryWithin (depth + 1)) (unaryWithin (depth + 1)) := by
  rw [unaryWithin, unaryWithin]
  apply steps.acceptTakes rfl
  · apply steps.takesThen upto.primary
    intro callee twin callees
    exact upto.calls callees
  · intro operator other sign
    apply steps.andThen (steps.lax upto.unary)
    intro right twin rights
    exact steps.pure (.unary sign rights)

theorem calls_succ (steps : side.Expressions like) (upto : side.ExpressionsUpto like depth)
    {callee twin : Expr} (callees : callee.Like like twin) :
    side.keeps (Expr.Like like) (callsWithin (depth + 1) callee) (callsWithin (depth + 1) twin) := by
  rw [callsWithin, callsWithin]
  apply steps.accept rfl
  · exact steps.pure callees
  · intro _ _ _
    have listed := steps.seen .rightParen (steps.pure (.nil : Expr.AllLike like [] []))
      (steps.lax (upto.arguments 0))
    apply steps.andThen listed
    intro arguments others lists
    apply steps.andThen (steps.lax (steps.expect rfl (by decide)))
    intro paren other sign
    exact upto.calls (.call callees sign lists)

theorem arguments_succ (steps : side.Expressions like) (upto : side.ExpressionsUpto like depth)
    (count : Nat) : side.takes (Expr.AllLike like) (argumentsWithin (depth + 1) count)
      (argumentsWithin (depth + 1) count) := by
  rw [argumentsWithin, argumentsWithin]
  apply steps.thenTakes (steps.counted (by decide) count)
  intro _ _ _
  apply steps.takesThen upto.expression
  intro argument twin first
  apply steps.accept rfl
  · exact steps.pure (.cons first .nil)
  · intro _ _ _
    apply steps.andThen (steps.lax (upto.arguments (count + 1)))
    intro arguments others more
    exact steps.pure (.cons first more)

theorem primary_succ (steps : side.Expressions like) (upto : side.ExpressionsUpto like depth) :
    side.takes (Expr.Like like) (primaryWithin (depth + 1)) (primaryWithin (depth + 1)) := by
  rw [primaryWithin, primaryWithin]
  apply steps.acceptAtom
  · apply steps.acceptTakes rfl
    · exact steps.fail (by decide)
    · intro _ _ _
      apply steps.andThen (steps.lax upto.expression)
      intro inner twin inners
      apply steps.andThen (steps.lax (steps.expect rfl (by decide)))
      intro _ _ _
      exact steps.pure (.grouping inners)
  · intro expr twin alike
    exact steps.pure alike

/-- A relation kept by all of which expressions are made holds of the expressions that are read. -/
theorem upto (steps : side.Expressions like) (depth : Nat) : side.ExpressionsUpto like depth := by
  induction depth with
  | zero =>
    exact ⟨steps.spent, fun _ => steps.spent, fun _ _ _ _ => steps.lax steps.spent, steps.spent,
      fun _ => steps.lax steps.spent, fun _ => steps.spent, steps.spent⟩
  | succ depth ih =>
    exact ⟨steps.expression_succ ih, steps.operand_succ ih, steps.chain_succ ih, steps.unary_succ ih,
      steps.calls_succ ih, steps.arguments_succ ih, steps.primary_succ ih⟩

theorem parameters (steps : side.Expressions like) (depth : Nat) : ∀ count,
    side.takes (List.Forall₂ like) (parametersWithin depth count) (parametersWithin depth count) := by
  induction depth with
  | zero => exact fun _ => steps.spent
  | succ depth ih =>
    intro count
    rw [parametersWithin, parametersWithin]
    apply steps.thenTakes (steps.counted (by decide) count)
    intro _ _ _
    apply steps.takesThen (steps.expect rfl (by decide))
    intro name other named
    apply steps.accept rfl
    · exact steps.pure (.cons named .nil)
    · intro _ _ _
      apply steps.andThen (steps.lax (ih (count + 1)))
      intro names others more
      exact steps.pure (.cons named more)

end Expressions

structure Statements (side : SideBySide M N) (like : Likeness) : Prop
    extends Expressions side like where
  acceptAny {α β : Type} {R : α → β → Prop} (among : Kind → Bool) {next : Option Token → M α}
    {after : Option Token → N β} (without : side.keeps R (next none) (after none))
    (taken : ∀ token other, like token other →
      side.keeps R (next (some token)) (after (some other))) :
    side.keeps R (step (Parse.accept among) >>= next) (step (Parse.accept among) >>= after)
  acceptAnyTakes {α β : Type} {R : α → β → Prop} (among : Kind → Bool) {next : Option Token → M α}
    {after : Option Token → N β} (without : side.takes R (next none) (after none))
    (taken : ∀ token other, like token other →
      side.keeps R (next (some token)) (after (some other))) :
    side.takes R (step (Parse.accept among) >>= next) (step (Parse.accept among) >>= after)
  depth : side.keeps Eq (step Parse.depth) (step Parse.depth)
  finished (inBlock : Bool) :
    side.keeps Eq (step (Parse.finished inBlock)) (step (Parse.finished inBlock))
  returning {keyword other : Token} (key : like keyword other) :
    side.keeps Eq (returning keyword) (returning other)
  inFunction {α β : Type} {R : α → β → Prop} {first : M α} {second : N β}
    (bodies : side.keeps R first second) : side.keeps R (inFunction first) (inFunction second)
  recovering {α β : Type} {R : α → β → Prop} {first : M α} {second : N β}
    (readings : side.takes R first second) :
    side.keeps (Option.Rel R) (recovering first) (recovering second)

theorem like_ofFor {like : Likeness} {initial first : Option Stmt} {condition test : Expr}
    {increment other : Option Expr} {body twin : Stmt}
    (initials : Option.Rel (Stmt.Like like) initial first) (tests : condition.Like like test)
    (increments : Option.Rel (Expr.Like like) increment other) (bodies : body.Like like twin) :
    (Stmt.ofFor initial condition increment body).Like like (Stmt.ofFor first test other twin) := by
  have loops : (Stmt.ofFor none condition increment body).Like like
      (Stmt.ofFor none test other twin) := by
    cases increments with
    | none => exact .loop tests bodies
    | some steps => exact .loop tests (.block (.cons bodies (.cons (.expression steps) .nil)))
  cases initials with
  | none => exact loops
  | some starts => exact .block (.cons starts (.cons loops .nil))

theorem allLike_append {like : Likeness} {first second : Option Stmt}
    (firsts : Option.Rel (Stmt.Like like) first second) {rest others : List Stmt}
    (more : Stmt.AllLike like rest others) :
    Stmt.AllLike like (first.toList ++ rest) (second.toList ++ others) := by
  cases firsts with
  | none => exact more
  | some alike => exact .cons alike more

structure StatementsUpto (side : SideBySide M N) (like : Likeness) (depth : Nat) : Prop where
  declaration : side.keeps (Option.Rel (Stmt.Like like)) (declarationWithin depth)
    (declarationWithin depth)
  function : side.takes (Stmt.Like like) (functionWithin depth) (functionWithin depth)
  statement : side.takes (Stmt.Like like) (statementWithin depth) (statementWithin depth)
  forLoop : side.takes (Stmt.Like like) (forWithin depth) (forWithin depth)
  branch : side.takes (Stmt.Like like) (ifWithin depth) (ifWithin depth)
  loop : side.takes (Stmt.Like like) (whileWithin depth) (whileWithin depth)
  block : side.keeps (Stmt.AllLike like) (blockWithin depth) (blockWithin depth)
  declarations (inBlock : Bool) : side.keeps (Stmt.AllLike like) (declarationsWithin depth inBlock)
    (declarationsWithin depth inBlock)

namespace Statements

variable {depth : Nat}

theorem expectAny (steps : side.Statements like) (kind : Kind) {error : SyntaxError}
    (other : error ≠ .returnOutsideFunction) :
    side.takes like (Reader.expect kind error) (Reader.expect kind error) := by
  apply steps.acceptAnyTakes
  · exact steps.fail other
  · intro token other stands
    exact steps.pure stands

theorem expression (steps : side.Statements like) :
    side.takes (Expr.Like like) Reader.expression Reader.expression := by
  apply steps.thenTakes steps.depth
  rintro depth _ rfl
  exact (steps.upto depth).expression

theorem maybe (steps : side.Statements like) : side.keeps (Option.Rel (Expr.Like like))
    (do let value ← Reader.expression; Pure.pure (some value) : M (Option Expr))
    (do let value ← Reader.expression; Pure.pure (some value) : N (Option Expr)) := by
  apply steps.andThen (steps.lax steps.expression)
  intro value twin values
  exact steps.pure (.some values)

theorem parameterNames (steps : side.Statements like) :
    side.takes (List.Forall₂ like) Reader.parameterNames Reader.parameterNames := by
  apply steps.thenTakes steps.depth
  rintro depth _ rfl
  exact steps.parameters depth 0

theorem parameterList (steps : side.Statements like) :
    side.takes (List.Forall₂ like) Reader.parameters Reader.parameters := by
  apply steps.takesThen (steps.expectAny .leftParen (by decide))
  intro _ _ _
  apply steps.andThen (steps.seen .rightParen (steps.pure .nil) (steps.lax steps.parameterNames))
  intro names others named
  apply steps.andThen (steps.lax (steps.expectAny .rightParen (by decide)))
  intro _ _ _
  exact steps.pure named

theorem variableStatement (steps : side.Statements like) :
    side.takes (Stmt.Like like) Reader.variableStatement Reader.variableStatement := by
  apply steps.takesThen (steps.expectAny .identifier (by decide))
  intro name other named
  refine steps.andThen (R := Expr.Like like) ?_ ?_
  · apply steps.acceptAny
    · exact steps.pure (.literal .uninitialized)
    · exact fun _ _ _ => steps.lax steps.expression
  · intro value twin values
    apply steps.andThen (steps.lax (steps.expectAny .semicolon (by decide)))
    intro _ _ _
    exact steps.pure (.declare named values)

theorem ended (steps : side.Statements like) {error : SyntaxError}
    (other : error ≠ .returnOutsideFunction) {make : Expr → Stmt}
    (makes : ∀ value twin : Expr, value.Like like twin → (make value).Like like (make twin)) :
    side.takes (Stmt.Like like) (Reader.ended error make) (Reader.ended error make) := by
  apply steps.takesThen steps.expression
  intro value twin values
  apply steps.andThen (steps.lax (steps.expectAny .semicolon other))
  intro _ _ _
  exact steps.pure (makes value twin values)

theorem returnStatement (steps : side.Statements like) {keyword other : Token}
    (key : like keyword other) :
    side.takes (Stmt.Like like) (Reader.returnStatement keyword) (Reader.returnStatement other) := by
  apply steps.thenTakes (steps.returning key)
  intro _ _ _
  apply steps.thenTakes (steps.seen .semicolon (steps.pure .none) steps.maybe)
  intro value twin values
  apply steps.takesThen (steps.expectAny .semicolon (by decide))
  intro _ _ _
  cases values with
  | none => exact steps.pure (.retNothing key)
  | some values => exact steps.pure (.ret key values)

theorem forInitial (steps : side.Statements like) :
    side.takes (Option.Rel (Stmt.Like like)) Reader.forInitial Reader.forInitial := by
  apply steps.acceptAnyTakes
  · apply steps.acceptAnyTakes
    · apply steps.takesThen (steps.ended (by decide) fun _ _ => .expression)
      intro value twin values
      exact steps.pure (.some values)
    · intro _ _ _
      apply steps.andThen (steps.lax steps.variableStatement)
      intro declared twin declares
      exact steps.pure (.some declares)
  · intro _ _ _
    exact steps.pure .none

theorem forCondition (steps : side.Statements like) :
    side.takes (Expr.Like like) Reader.forCondition Reader.forCondition := by
  have absent : Expr.Like like (.literal (.bool true)) (.literal (.bool true)) := .literal (.bool true)
  apply steps.thenTakes (steps.seen .semicolon (steps.pure absent) (steps.lax steps.expression))
  intro condition test tests
  apply steps.takesThen (steps.expectAny .semicolon (by decide))
  intro _ _ _
  exact steps.pure tests

theorem forIncrement (steps : side.Statements like) :
    side.takes (Option.Rel (Expr.Like like)) Reader.forIncrement Reader.forIncrement := by
  apply steps.thenTakes (steps.seen .rightParen (steps.pure .none) steps.maybe)
  intro increment other increments
  apply steps.takesThen (steps.expectAny .rightParen (by decide))
  intro _ _ _
  exact steps.pure increments

theorem declaration_succ (steps : side.Statements like) (upto : side.StatementsUpto like depth) :
    side.keeps (Option.Rel (Stmt.Like like)) (declarationWithin (depth + 1))
      (declarationWithin (depth + 1)) := by
  rw [declarationWithin, declarationWithin]
  apply steps.recovering
  apply steps.acceptAnyTakes
  · apply steps.acceptAnyTakes
    · exact upto.statement
    · exact fun _ _ _ => steps.lax steps.variableStatement
  · exact fun _ _ _ => steps.lax upto.function

theorem function_succ (steps : side.Statements like) (upto : side.StatementsUpto like depth) :
    side.takes (Stmt.Like like) (functionWithin (depth + 1)) (functionWithin (depth + 1)) := by
  rw [functionWithin, functionWithin]
  apply steps.takesThen (steps.expectAny .identifier (by decide))
  intro name other named
  apply steps.andThen (steps.lax steps.parameterList)
  intro params others listed
  apply steps.andThen (steps.lax (steps.expectAny .leftBrace (by decide)))
  intro _ _ _
  apply steps.andThen (steps.inFunction upto.block)
  intro body twin bodies
  exact steps.pure (.function named listed bodies)

theorem statement_succ (steps : side.Statements like) (upto : side.StatementsUpto like depth) :
    side.takes (Stmt.Like like) (statementWithin (depth + 1)) (statementWithin (depth + 1)) := by
  rw [statementWithin, statementWithin]
  apply steps.acceptAnyTakes _ _ fun _ _ _ => steps.lax upto.forLoop
  apply steps.acceptAnyTakes _ _ fun _ _ _ => steps.lax upto.branch
  apply steps.acceptAnyTakes _ _ fun _ _ _ => steps.lax (steps.ended (by decide) fun _ _ => .print)
  apply steps.acceptAnyTakes _ _ fun _ _ key => steps.lax (steps.returnStatement key)
  apply steps.acceptAnyTakes _ _ fun _ _ _ => steps.lax upto.loop
  apply steps.acceptAnyTakes
  · exact steps.ended (by decide) fun _ _ => .expression
  · intro _ _ _
    apply steps.andThen upto.block
    intro body twin bodies
    exact steps.pure (.block bodies)

theorem forLoop_succ (steps : side.Statements like) (upto : side.StatementsUpto like depth) :
    side.takes (Stmt.Like like) (forWithin (depth + 1)) (forWithin (depth + 1)) := by
  rw [forWithin, forWithin]
  apply steps.takesThen (steps.expectAny .leftParen (by decide))
  intro _ _ _
  apply steps.andThen (steps.lax steps.forInitial)
  intro initial first initials
  apply steps.andThen (steps.lax steps.forCondition)
  intro condition test tests
  apply steps.andThen (steps.lax steps.forIncrement)
  intro increment other increments
  apply steps.andThen (steps.lax upto.statement)
  intro body twin bodies
  exact steps.pure (like_ofFor initials tests increments bodies)

theorem branch_succ (steps : side.Statements like) (upto : side.StatementsUpto like depth) :
    side.takes (Stmt.Like like) (ifWithin (depth + 1)) (ifWithin (depth + 1)) := by
  rw [ifWithin, ifWithin]
  apply steps.takesThen (steps.expectAny .leftParen (by decide))
  intro _ _ _
  apply steps.andThen (steps.lax steps.expression)
  intro condition test tests
  apply steps.andThen (steps.lax (steps.expectAny .rightParen (by decide)))
  intro _ _ _
  apply steps.andThen (steps.lax upto.statement)
  intro yes first yeses
  apply steps.acceptAny
  · exact steps.pure (.branch tests yeses)
  · intro _ _ _
    apply steps.andThen (steps.lax upto.statement)
    intro no second noes
    exact steps.pure (.branchElse tests yeses noes)

theorem loop_succ (steps : side.Statements like) (upto : side.StatementsUpto like depth) :
    side.takes (Stmt.Like like) (whileWithin (depth + 1)) (whileWithin (depth + 1)) := by
  rw [whileWithin, whileWithin]
  apply steps.takesThen (steps.expectAny .leftParen (by decide))
  intro _ _ _
  apply steps.andThen (steps.lax steps.expression)
  intro condition test tests
  apply steps.andThen (steps.lax (steps.expectAny .rightParen (by decide)))
  intro _ _ _
  apply steps.andThen (steps.lax upto.statement)
  intro body twin bodies
  exact steps.pure (.loop tests bodies)

theorem block_succ (steps : side.Statements like) (upto : side.StatementsUpto like depth) :
    side.keeps (Stmt.AllLike like) (blockWithin (depth + 1)) (blockWithin (depth + 1)) := by
  rw [blockWithin, blockWithin]
  apply steps.andThen (upto.declarations true)
  intro body twin bodies
  apply steps.andThen (steps.lax (steps.expectAny .rightBrace (by decide)))
  intro _ _ _
  exact steps.pure bodies

theorem declarations_succ (steps : side.Statements like) (upto : side.StatementsUpto like depth)
    (inBlock : Bool) : side.keeps (Stmt.AllLike like) (declarationsWithin (depth + 1) inBlock)
      (declarationsWithin (depth + 1) inBlock) := by
  rw [declarationsWithin, declarationsWithin]
  apply steps.andThen (steps.finished inBlock)
  rintro finished _ rfl
  split
  · exact steps.pure .nil
  · apply steps.andThen upto.declaration
    intro first second firsts
    apply steps.andThen (upto.declarations inBlock)
    intro rest others more
    exact steps.pure (allLike_append firsts more)

/-- A relation kept by all of which programs are made holds of the statements that are read. -/
theorem statements (steps : side.Statements like) (depth : Nat) : side.StatementsUpto like depth := by
  induction depth with
  | zero =>
    exact ⟨steps.lax steps.spent, steps.spent, steps.spent, steps.spent, steps.spent, steps.spent,
      steps.lax steps.spent, fun _ => steps.lax steps.spent⟩
  | succ depth ih =>
    exact ⟨steps.declaration_succ ih, steps.function_succ ih, steps.statement_succ ih,
      steps.forLoop_succ ih, steps.branch_succ ih, steps.loop_succ ih, steps.block_succ ih,
      steps.declarations_succ ih⟩

/-- The relation holds of whole programs. -/
theorem declarations (steps : side.Statements like) :
    side.keeps (Stmt.AllLike like) Reader.declarations Reader.declarations := by
  apply steps.andThen steps.depth
  rintro depth _ rfl
  exact (steps.statements depth).declarations false

end Statements

end SideBySide

end Lox
