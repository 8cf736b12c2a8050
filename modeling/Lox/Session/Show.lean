import Lox.Scope
import Lox.Value

set_option autoImplicit false

namespace Lox

def asLines (lines : List String) : String :=
  String.join (lines.map (· ++ "\n"))

namespace Value

/-- The value in one line; only a text differs from its printed form. -/
def inline : Value → String
  | text s => "\"" ++ s ++ "\""
  | value => value.print

/-- The value described: of a callable what it takes, and of a function the scope around it. -/
def describe (store : Store) : Value → String
  | function name params _ closure =>
    "fn " ++ name.lexeme ++ "(" ++ ", ".intercalate (params.map (·.lexeme)) ++ ")\n  arity  : " ++
      toString params.length ++ "\n  closure: " ++ store.describe closure
  | native n =>
    let arity :=
      match n.arity with
      | some count => toString count
      | none => "variadic"
    "native fn " ++ n.name ++ " (arity " ++ arity ++ ")"
  | value => value.inline

end Value

namespace Bindings

/-- The bindings that do not come from outside the language. -/
def own (bindings : Bindings) : Bindings :=
  bindings.filter fun (_, value) =>
    match value with
    | .native _ => false
    | _ => true

def padded (width : Nat) (name : String) : String :=
  name ++ String.ofList (List.replicate (width - name.length) ' ')

/-- A list of the own bindings, with the names in a column. -/
def table (bindings : Bindings) : String :=
  match bindings.own with
  | [] => "  (no variables defined)\n"
  | own =>
    let width := (own.map (·.1.length)).foldl max 0
    asLines (own.map fun (name, value) => "  " ++ padded width name ++ " : " ++ value.inline)

end Bindings

end Lox
