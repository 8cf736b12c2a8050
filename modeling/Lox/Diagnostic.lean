import Lox.Token

set_option autoImplicit false

namespace Lox

structure Diagnostic where
  token : Option Token
  message : String
  runtime : Bool

namespace Diagnostic

def line (d : Diagnostic) : Option Int :=
  d.token.map (·.line)

/-- Where in its line a syntax error is: at the end of the input, at a lexeme, or unsaid. -/
def place (token : Token) : String :=
  if token.kind = .endOfInput then " at end"
  else if token.lexeme.isEmpty then ""
  else " at '" ++ token.lexeme ++ "'"

/-- The diagnostic as it is shown. A runtime fault names its line below the message, a syntax
error names line and place before it. -/
def format (d : Diagnostic) : String :=
  match d.token with
  | none => "Error: " ++ d.message
  | some token =>
    if d.runtime then d.message ++ "\n[line " ++ toString token.line ++ "]"
    else "[line " ++ toString token.line ++ "] Error" ++ place token ++ ": " ++ d.message

end Diagnostic

end Lox
