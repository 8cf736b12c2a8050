import Lox.Grammar.Cursor
import Lox.Tree

set_option autoImplicit false

/- The grammar of expressions, from the loosest to the tightest.

    expression -> IDENTIFIER "=" expression | disjunction
    level      -> tighter ( operator tighter )*
    unary      -> ( "!" | "-" ) unary | call
    call       -> primary ( "(" arguments? ")" )*
    primary    -> NUMBER | STRING | "true" | "false" | "nil" | IDENTIFIER | "(" expression ")"

Between two tokens reading goes through each rule at most once, which bounds the depth. -/

namespace Lox

/-- The levels of the binary operators, the loosest first. -/
inductive Level where
  | disjunction
  | conjunction
  | equality
  | comparison
  | term
  | factor
deriving DecidableEq, Repr

namespace Level

/-- The level of the operands; those of the tightest level are unary expressions. -/
def tighter : Level → Option Level
  | disjunction => some conjunction
  | conjunction => some equality
  | equality => some comparison
  | comparison => some term
  | term => some factor
  | factor => none

def joins : Level → Kind → Bool
  | disjunction, kind => kind == .kwOr
  | conjunction, kind => kind == .kwAnd
  | equality, kind => kind == .bangEqual || kind == .equalEqual
  | comparison, kind =>
    kind == .greater || kind == .greaterEqual || kind == .less || kind == .lessEqual
  | term, kind => kind == .minus || kind == .plus
  | factor, kind => kind == .slash || kind == .star

def join (level : Level) (left : Expr) (operator : Token) (right : Expr) : Expr :=
  match level with
  | disjunction | conjunction => .logical left operator right
  | _ => .binary left operator right

end Level

def isUnary (kind : Kind) : Bool :=
  kind == .bang || kind == .minus

namespace Expr

/-- The expression that a token is by itself. -/
def ofToken? (token : Token) : Option Expr :=
  match token.kind, token.literal with
  | .kwFalse, _ => some (.literal (.bool false))
  | .kwTrue, _ => some (.literal (.bool true))
  | .kwNil, _ => some (.literal .nil)
  | .number, some (.number value) => some (.literal (.number value))
  | .string, some (.text value) => some (.literal (.text value))
  | .identifier, _ => some (.var token)
  | _, _ => none

end Expr

namespace Parse

def acceptAtom : Parse (Option Expr) := fun cursor =>
  match cursor.ahead with
  | [] => .ok none cursor
  | next :: ahead =>
    match Expr.ofToken? next with
    | some expr => .ok (some expr) { cursor with behind := next :: cursor.behind, ahead }
    | none => .ok none cursor

/-- A depth of reading that is enough for the tokens ahead. -/
def ample (cursor : Cursor) : Nat :=
  16 * (cursor.ahead.length + 1)

def depth : Parse Nat := fun cursor => .ok (ample cursor) cursor

end Parse

namespace Reader

variable {M : Type → Type} [Reader M]

mutual

/-- An assignment or a disjunction. That the left side of an equals sign is no variable shows
only after it was read, and is recorded at the sign. -/
@[specialize]
def expressionWithin : Nat → M Expr
  | 0 => step Parse.spent
  | depth + 1 => do
    let left ← operandWithin depth (some .disjunction)
    match ← step (Parse.accept (· == .equal)) with
    | none => pure left
    | some equals => do
      let value ← expressionWithin depth
      match left with
      | .var name => pure (.assign name value)
      | _ => do
        step (Parse.note .invalidTarget equals)
        pure left

/-- A chain of operators of a level, or a unary expression below the tightest level. -/
@[specialize]
def operandWithin : Nat → Option Level → M Expr
  | 0, _ => step Parse.spent
  | depth + 1, none => unaryWithin depth
  | depth + 1, some level => do
    let left ← operandWithin depth level.tighter
    chainWithin depth level left

/-- The rest of a chain, whose operators associate to the left. -/
@[specialize]
def chainWithin : Nat → Level → Expr → M Expr
  | 0, _, _ => step Parse.spent
  | depth + 1, level, left => do
    match ← step (Parse.accept level.joins) with
    | none => pure left
    | some operator => do
      let right ← operandWithin depth level.tighter
      chainWithin depth level (level.join left operator right)

@[specialize]
def unaryWithin : Nat → M Expr
  | 0 => step Parse.spent
  | depth + 1 => do
    match ← step (Parse.accept isUnary) with
    | some operator => do
      let right ← unaryWithin depth
      pure (.unary operator right)
    | none => do
      let callee ← primaryWithin depth
      callsWithin depth callee

@[specialize]
def callsWithin : Nat → Expr → M Expr
  | 0, _ => step Parse.spent
  | depth + 1, callee => do
    match ← step (Parse.accept (· == .leftParen)) with
    | none => pure callee
    | some _ => do
      let arguments ← (do
        if ← step (Parse.sees .rightParen) then pure [] else argumentsWithin depth 0)
      let paren ← expect .rightParen .noParenAfterArguments
      callsWithin depth (.call callee paren arguments)

/-- Arguments between commas, after `count` others. Each one too many is recorded. -/
@[specialize]
def argumentsWithin : Nat → Nat → M (List Expr)
  | 0, _ => step Parse.spent
  | depth + 1, count => do
    let _ ← (if maxArguments ≤ count then step (Parse.noteHere .tooManyArguments)
      else pure () : M Unit)
    let argument ← expressionWithin depth
    match ← step (Parse.accept (· == .comma)) with
    | none => pure [argument]
    | some _ => do
      let others ← argumentsWithin depth (count + 1)
      pure (argument :: others)

@[specialize]
def primaryWithin : Nat → M Expr
  | 0 => step Parse.spent
  | depth + 1 => do
    match ← step Parse.acceptAtom with
    | some expr => pure expr
    | none => do
      match ← step (Parse.accept (· == .leftParen)) with
      | none => step (Parse.fail .noExpression)
      | some _ => do
        let inner ← expressionWithin depth
        let _ ← expect .rightParen .noParenAfterExpression
        pure (.grouping inner)

end

@[specialize]
def expression : M Expr := do
  let depth ← step Parse.depth
  expressionWithin depth

end Reader

end Lox
