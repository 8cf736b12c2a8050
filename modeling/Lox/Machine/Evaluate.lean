import Lox.Machine.Operator

set_option autoImplicit false

/- Every step into a part of the program takes one unit of fuel, so a run that needs more than it has
is told apart from one that ends. -/

namespace Lox

/-- The bindings of parameters to arguments; of parameters of one name the last counts. -/
def Bindings.ofArguments (params : List Token) (arguments : List Value) : Bindings :=
  (params.zip arguments).foldl (fun bindings (param, value) => bindings.set param.lexeme value) []

def Run.checkArity (paren : Token) (expected : Option Nat) (given : Nat) : Run Unit :=
  match expected with
  | none => pure ()
  | some count =>
    if given = count then pure () else Run.fail paren (.arityMismatch count given)

def Run.noteEntry (name : Token) (params : List Token) (scope : ScopeId) : Run Unit := fun state =>
  .done () (state.add
    (.entered name.lexeme (params.map (·.lexeme)) (state.store.depth scope)))

namespace Machine

variable {M : Type → Type} [Machine M]

/-- A run in a scope opened for it, after a step on entry. -/
@[inline]
def opened {α : Type} (enclosing : ScopeId) (bindings : Bindings) (entry : ScopeId → Run Unit)
    (body : M α) : M α := do
  let scope ← step (Run.extend enclosing bindings)
  step (entry scope)
  frame .block (within scope body)

mutual

@[specialize]
def evaluate (world : World) : Nat → Expr → M Value
  | 0, _ => step Run.spent
  | fuel + 1, expr => frame (.expression expr) <| settled world.config.policy <|
    match expr with
    | .literal value => pure value
    | .grouping inner => evaluate world fuel inner
    | .var name => step (Run.lookUp name)
    | .assign name expr => do
      let value ← evaluate world fuel expr
      step (Run.assign name value)
      pure value
    | .logical left operator right => do
      let value ← evaluate world fuel left
      if (operator.kind == .kwOr) == value.truthy then pure value
      else evaluate world fuel right
    | .unary operator right => do
      let value ← evaluate world fuel right
      mark (.unary operator value)
      step ((Answer.ofUnary operator.kind value).run operator)
    | .binary left operator right => do
      let first ← evaluate world fuel left
      let second ← evaluate world fuel right
      mark (.binary operator first second)
      step ((Answer.ofBinary operator.kind first second).run operator)
    | .call callee paren arguments => do
      let callee ← evaluate world fuel callee
      let values ← frame .arguments (evaluateAll world fuel arguments)
      match callee with
      | .function name params body closure => do
        step (Run.checkArity paren (some params.length) values.length)
        asCall world.config paren ⟨.function name params body closure, values⟩
          (callFunction world fuel name params body closure values)
      | .native native => do
        step (Run.checkArity paren native.arity values.length)
        asCall world.config paren ⟨.native native, values⟩
          (step (Run.ask world.host native values))
      | _ => step (Run.fail paren .notCallable)

@[specialize]
def evaluateAll (world : World) : Nat → List Expr → M (List Value)
  | 0, _ => step Run.spent
  | _ + 1, [] => pure []
  | fuel + 1, expr :: rest => do
    let value ← evaluate world fuel expr
    let values ← evaluateAll world fuel rest
    pure (value :: values)

/-- A call of a function. Its scope lies in the scope of its declaration, not in that of its
caller; without a return it gives nil. -/
@[specialize]
def callFunction (world : World) : Nat → Token → List Token → List Stmt → ScopeId →
    List Value → M Value
  | 0, _, _, _, _, _ => step Run.spent
  | fuel + 1, name, params, body, closure, arguments => do
    let returned ← opened closure (.ofArguments params arguments) (Run.noteEntry name params)
      (executeAll world fuel body)
    pure (returned.getD .nil)

@[specialize]
def execute (world : World) : Nat → Stmt → M (Option Value)
  | 0, _ => step Run.spent
  | fuel + 1, .expression expr => do
    let _ ← evaluate world fuel expr
    pure none
  | fuel + 1, .print expr => do
    let value ← evaluate world fuel expr
    step (Run.note (.printed value.print))
    pure none
  | fuel + 1, .declare name expr => do
    let value ← evaluate world fuel expr
    step (Run.define name value)
    pure none
  | fuel + 1, .block body => do
    let here ← step Run.here
    opened here [] (fun _ => pure ()) (executeAll world fuel body)
  | fuel + 1, .branch condition yes no => do
    let value ← evaluate world fuel condition
    if value.truthy then frame (.statement yes) (execute world fuel yes)
    else
      match no with
      | some no => frame (.statement no) (execute world fuel no)
      | none => pure none
  | fuel + 1, .loop condition body => do
    let value ← evaluate world fuel condition
    if value.truthy then do
      match ← frame (.statement body) (execute world fuel body) with
      | some value => pure (some value)
      | none => execute world fuel (.loop condition body)
    else pure none
  | _ + 1, .function name params body => do
    let here ← step Run.here
    step (Run.define name (.function name params body here))
    pure none
  | _ + 1, .ret _ none => pure (some .nil)
  | fuel + 1, .ret _ (some expr) => do
    let value ← evaluate world fuel expr
    pure (some value)

/-- Runs statements up to the first that returns. -/
@[specialize]
def executeAll (world : World) : Nat → List Stmt → M (Option Value)
  | 0, _ => step Run.spent
  | _ + 1, [] => pure none
  | fuel + 1, stmt :: rest => do
    match ← frame (.statement stmt) (execute world fuel stmt) with
    | some value => pure (some value)
    | none => executeAll world fuel rest

end

end Machine

namespace World

/-- The value of an expression, on the plain machine. -/
def evaluate (world : World) (fuel : Nat) (expr : Expr) : Run Value :=
  Machine.evaluate world fuel expr

def callFunction (world : World) (fuel : Nat) (name : Token) (params : List Token)
    (body : List Stmt) (closure : ScopeId) (arguments : List Value) : Run Value :=
  Machine.callFunction world fuel name params body closure arguments

def execute (world : World) (fuel : Nat) (stmt : Stmt) : Run (Option Value) :=
  Machine.execute world fuel stmt

end World

end Lox
