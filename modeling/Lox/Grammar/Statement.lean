import Lox.Grammar.Expression

set_option autoImplicit false

/- The grammar of statements.

    declaration -> "fun" function | "var" variable | statement
    statement   -> for | if | print | return | while | block | expression ";" -/

namespace Lox

/-- The statement that `for (initial; condition; increment) body` stands for. -/
def Stmt.ofFor (initial : Option Stmt) (condition : Expr) (increment : Option Expr)
    (body : Stmt) : Stmt :=
  let turn :=
    match increment with
    | none => body
    | some step => .block [body, .expression step]
  match initial with
  | none => .loop condition turn
  | some first => .block [first, .loop condition turn]

namespace Parse

/-- Whether the declarations of a program, or of a block, end here. -/
def finished (inBlock : Bool) : Parse Bool := fun cursor =>
  .ok (cursor.ahead.isEmpty || (inBlock && cursor.sees .rightBrace)) cursor

end Parse

namespace Reader

variable {M : Type → Type} [Reader M]

/-- Parameter names between commas, after `count` others. Each one too many is recorded. -/
@[specialize]
def parametersWithin : Nat → Nat → M (List Token)
  | 0, _ => step Parse.spent
  | depth + 1, count => do
    let _ ← (if maxArguments ≤ count then step (Parse.noteHere .tooManyParameters)
      else pure () : M Unit)
    let name ← expect .identifier .noParameterName
    match ← step (Parse.accept (· == .comma)) with
    | none => pure [name]
    | some _ => do
      let others ← parametersWithin depth (count + 1)
      pure (name :: others)

/-- The names of parameters, of which there is at least one. -/
@[specialize]
def parameterNames : M (List Token) := do
  let depth ← step Parse.depth
  parametersWithin depth 0

@[specialize]
def parameters : M (List Token) := do
  let _ ← expect .leftParen .noParenAfterFunctionName
  let names ← (do if ← step (Parse.sees .rightParen) then pure [] else parameterNames)
  let _ ← expect .rightParen .noParenAfterParameters
  pure names

/-- A variable, after its keyword. Without a value it starts out uninitialized. -/
@[specialize]
def variableStatement : M Stmt := do
  let name ← expect .identifier .noVariableName
  let value ← (do
    match ← step (Parse.accept (· == .equal)) with
    | none => pure (.literal .uninitialized)
    | some _ => expression)
  let _ ← expect .semicolon .noSemicolonAfterDeclaration
  pure (.declare name value)

/-- An expression and the semicolon after it. -/
@[specialize]
def ended (error : SyntaxError) (make : Expr → Stmt) : M Stmt := do
  let value ← expression
  let _ ← expect .semicolon error
  pure (make value)

/-- A return statement, after its keyword. It is read also where none may stand. -/
@[specialize]
def returnStatement (keyword : Token) : M Stmt := do
  returning keyword
  let value ← (do
    if ← step (Parse.sees .semicolon) then pure none else do
      let value ← expression
      pure (some value))
  let _ ← expect .semicolon .noSemicolonAfterReturn
  pure (.ret keyword value)

/-- What runs before a loop: nothing, a declaration, or an expression. -/
@[specialize]
def forInitial : M (Option Stmt) := do
  match ← step (Parse.accept (· == .semicolon)) with
  | some _ => pure none
  | none => do
    match ← step (Parse.accept (· == .kwVar)) with
    | some _ => do
      let declared ← variableStatement
      pure (some declared)
    | none => do
      let value ← ended .noSemicolonAfterExpression .expression
      pure (some value)

/-- The condition of a `for`, which is true if it is absent. -/
@[specialize]
def forCondition : M Expr := do
  let condition ← (do
    if ← step (Parse.sees .semicolon) then pure (.literal (.bool true)) else expression)
  let _ ← expect .semicolon .noSemicolonAfterCondition
  pure condition

@[specialize]
def forIncrement : M (Option Expr) := do
  let increment ← (do
    if ← step (Parse.sees .rightParen) then pure none else do
      let value ← expression
      pure (some value))
  let _ ← expect .rightParen .noParenAfterForClauses
  pure increment

mutual

/-- A declaration or statement, or nothing where none can be read. -/
@[specialize]
def declarationWithin : Nat → M (Option Stmt)
  | 0 => step Parse.spent
  | depth + 1 => recovering do
    match ← step (Parse.accept (· == .kwFun)) with
    | some _ => functionWithin depth
    | none => do
      match ← step (Parse.accept (· == .kwVar)) with
      | some _ => variableStatement
      | none => statementWithin depth

@[specialize]
def functionWithin : Nat → M Stmt
  | 0 => step Parse.spent
  | depth + 1 => do
    let name ← expect .identifier .noFunctionName
    let params ← parameters
    let _ ← expect .leftBrace .noBraceBeforeFunctionBody
    let body ← inFunction (blockWithin depth)
    pure (.function name params body)

@[specialize]
def statementWithin : Nat → M Stmt
  | 0 => step Parse.spent
  | depth + 1 => do
    match ← step (Parse.accept (· == .kwFor)) with
    | some _ => forWithin depth
    | none => do
    match ← step (Parse.accept (· == .kwIf)) with
    | some _ => ifWithin depth
    | none => do
    match ← step (Parse.accept (· == .kwPrint)) with
    | some _ => ended .noSemicolonAfterValue .print
    | none => do
    match ← step (Parse.accept (· == .kwReturn)) with
    | some keyword => returnStatement keyword
    | none => do
    match ← step (Parse.accept (· == .kwWhile)) with
    | some _ => whileWithin depth
    | none => do
    match ← step (Parse.accept (· == .leftBrace)) with
    | some _ => do
      let body ← blockWithin depth
      pure (.block body)
    | none => ended .noSemicolonAfterExpression .expression

@[specialize]
def forWithin : Nat → M Stmt
  | 0 => step Parse.spent
  | depth + 1 => do
    let _ ← expect .leftParen .noParenAfterFor
    let initial ← forInitial
    let condition ← forCondition
    let increment ← forIncrement
    let body ← statementWithin depth
    pure (.ofFor initial condition increment body)

/-- An `if`, after its keyword. An `else` belongs to the nearest one. -/
@[specialize]
def ifWithin : Nat → M Stmt
  | 0 => step Parse.spent
  | depth + 1 => do
    let _ ← expect .leftParen .noParenAfterIf
    let condition ← expression
    let _ ← expect .rightParen .noParenAfterIfCondition
    let yes ← statementWithin depth
    match ← step (Parse.accept (· == .kwElse)) with
    | none => pure (.branch condition yes none)
    | some _ => do
      let no ← statementWithin depth
      pure (.branch condition yes (some no))

@[specialize]
def whileWithin : Nat → M Stmt
  | 0 => step Parse.spent
  | depth + 1 => do
    let _ ← expect .leftParen .noParenAfterWhile
    let condition ← expression
    let _ ← expect .rightParen .noParenAfterCondition
    let body ← statementWithin depth
    pure (.loop condition body)

/-- The inside of a block and its closing brace. -/
@[specialize]
def blockWithin : Nat → M (List Stmt)
  | 0 => step Parse.spent
  | depth + 1 => do
    let body ← declarationsWithin depth true
    let _ ← expect .rightBrace .noBraceAfterBlock
    pure body

/-- Declarations up to the end, or inside a block up to a closing brace. -/
@[specialize]
def declarationsWithin : Nat → Bool → M (List Stmt)
  | 0, _ => step Parse.spent
  | depth + 1, inBlock => do
    if ← step (Parse.finished inBlock) then pure []
    else do
      let first ← declarationWithin depth
      let others ← declarationsWithin depth inBlock
      pure (first.toList ++ others)

end

@[specialize]
def declarations : M (List Stmt) := do
  let depth ← step Parse.depth
  declarationsWithin depth false

end Reader

end Lox
