import Lox.Token

set_option autoImplicit false

namespace Lox

/-- The place of a scope in the store. -/
abbrev ScopeId := Nat

/-- A callable supplied from outside the language. No arity means that any number of arguments
will do. The key tells apart callables that share a name. -/
structure Native where
  name : String
  arity : Option Nat
  key : Nat
deriving DecidableEq, Repr

mutual

inductive Value where
  | text (value : String)
  | number (value : Float)
  | bool (value : Bool)
  | nil
  /-- The content of a variable that was declared without a value. -/
  | uninitialized
  /-- A value on its way out of a function. -/
  | returned (value : Value)
  /-- A declared function with the scope that it was declared in. -/
  | function (name : Token) (params : List Token) (body : List Stmt) (closure : ScopeId)
  | native (native : Native)

inductive Expr where
  | assign (name : Token) (value : Expr)
  | binary (left : Expr) (operator : Token) (right : Expr)
  /-- A call; the closing parenthesis locates its errors. -/
  | call (callee : Expr) (paren : Token) (arguments : List Expr)
  | grouping (inner : Expr)
  | literal (value : Value)
  | logical (left : Expr) (operator : Token) (right : Expr)
  | unary (operator : Token) (right : Expr)
  | var (name : Token)

inductive Stmt where
  | block (body : List Stmt)
  | expression (value : Expr)
  | function (name : Token) (params : List Token) (body : List Stmt)
  | branch (condition : Expr) (yes : Stmt) (no : Option Stmt)
  | print (value : Expr)
  | ret (keyword : Token) (value : Option Expr)
  | declare (name : Token) (value : Expr)
  | loop (condition : Expr) (body : Stmt)

end

instance : Inhabited Value := ⟨.nil⟩

end Lox
