import Lox.Tree
import Lox.Decimal.Shortest

set_option autoImplicit false

namespace Lox.Value

def print : Value → String
  | text s => s
  | number v => Decimal.floatText v
  | bool true => "true"
  | bool false => "false"
  | nil => "nil"
  | uninitialized => "unitialized"
  | returned v => "return " ++ print v
  | function name _ _ _ => "<fn " ++ name.lexeme ++ ">"
  | native n => "<native fn " ++ n.name ++ ">"

/-- Nil and a missing value are false, a boolean is itself, and all else is true. -/
def truthy : Value → Bool
  | nil => false
  | uninitialized => false
  | bool b => b
  | _ => true

def callable : Value → Bool
  | function .. => true
  | native _ => true
  | _ => false

def arity : Value → Option Nat
  | function _ params _ _ => some params.length
  | native n => n.arity
  | _ => none

/-- Equality. Values of two kinds differ; callables and values on their way out differ from
everything, themselves included. -/
def equals : Value → Value → Bool
  | text s, text t => s == t
  | number v, number w => v == w
  | bool b, bool c => b == c
  | nil, nil => true
  | uninitialized, uninitialized => true
  | _, _ => false

end Lox.Value
