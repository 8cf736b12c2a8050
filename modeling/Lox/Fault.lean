import Lox.Diagnostic

set_option autoImplicit false

namespace Lox

inductive Cause where
  | undefinedVariable (name : String)
  | operandNotNumber
  | operandsNotNumbers
  | operandsNotAddable
  | notCallable
  | arityMismatch (expected given : Nat)
  | stackOverflow
deriving DecidableEq, Repr

namespace Cause

def message : Cause → String
  | undefinedVariable name => "Undefined variable '" ++ name ++ "'."
  | operandNotNumber => "Operand must be a number."
  | operandsNotNumbers => "Operands must be numbers."
  | operandsNotAddable => "Operands must be two numbers or two strings."
  | notCallable => "Can only call functions and classes."
  | arityMismatch expected given =>
    "Expected " ++ toString expected ++ " arguments, but got " ++ toString given ++ "."
  | stackOverflow => "Stack overflow."

def family : Cause → String
  | undefinedVariable _ => "UndefinedVariable"
  | operandNotNumber | operandsNotNumbers | operandsNotAddable => "LoxTypeError"
  | notCallable => "NotCallable"
  | arityMismatch .. => "ArityMismatch"
  | stackOverflow => "StackOverflow"

end Cause

/-- A cause, with the token at which it arose. -/
structure Fault where
  token : Token
  cause : Cause

def Fault.diagnostic (fault : Fault) : Diagnostic :=
  ⟨some fault.token, fault.cause.message, true⟩

end Lox
