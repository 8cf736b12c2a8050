import Lox.Diagnostic

set_option autoImplicit false

namespace Lox

/-- The largest number of arguments of a call and of parameters of a function. -/
def maxArguments : Nat := 255

inductive SyntaxError where
  | noExpression
  | noFunctionName
  | noParenAfterFunctionName
  | noParameterName
  | noParenAfterParameters
  | noBraceBeforeFunctionBody
  | noVariableName
  | noSemicolonAfterDeclaration
  | noSemicolonAfterValue
  | noSemicolonAfterExpression
  | noSemicolonAfterReturn
  | noSemicolonAfterCondition
  | noParenAfterFor
  | noParenAfterForClauses
  | noParenAfterIf
  | noParenAfterIfCondition
  | noParenAfterWhile
  | noParenAfterCondition
  | noBraceAfterBlock
  | noParenAfterArguments
  | noParenAfterExpression
  | tooManyParameters
  | tooManyArguments
  | returnOutsideFunction
  | invalidTarget
deriving DecidableEq, Repr

namespace SyntaxError

def message : SyntaxError → String
  | noExpression => "Expect expression."
  | noFunctionName => "Expect function name."
  | noParenAfterFunctionName => "Expect '(' after function name."
  | noParameterName => "Expect parameter name."
  | noParenAfterParameters => "Expect ')' after parameters."
  | noBraceBeforeFunctionBody => "Expect '\x7b' before function body."
  | noVariableName => "Expect variable name."
  | noSemicolonAfterDeclaration => "Expect ';' after variable declaration."
  | noSemicolonAfterValue => "Expect ';' after value."
  | noSemicolonAfterExpression => "Expect ';' after expression."
  | noSemicolonAfterReturn => "Expect ';' after return value."
  | noSemicolonAfterCondition => "Expect ';' after loop condition."
  | noParenAfterFor => "Expect '(' after 'for'."
  | noParenAfterForClauses => "Expect ')' after for clauses."
  | noParenAfterIf => "Expect '(' after 'if'."
  | noParenAfterIfCondition => "Expect ')' after if condition."
  | noParenAfterWhile => "Expect '(' after 'while'."
  | noParenAfterCondition => "Expect ')' after condition."
  | noBraceAfterBlock => "Expect '\x7d' after block."
  | noParenAfterArguments => "Expect ')' after arguments."
  | noParenAfterExpression => "Expect ')' after expression."
  | tooManyParameters => "Can't have more than " ++ toString maxArguments ++ " parameters."
  | tooManyArguments => "Can't have more than " ++ toString maxArguments ++ " arguments."
  | returnOutsideFunction => "Can't return from top-level code."
  | invalidTarget => "Invalid assignment target."

def diagnostic (error : SyntaxError) (token : Token) : Diagnostic :=
  ⟨some token, error.message, false⟩

end SyntaxError

end Lox
