import Lox.Grammar.Problem

set_option autoImplicit false

namespace Lox

/-- Reading in progress: the tokens behind, latest first, the tokens ahead, the token that marks
the end, the number of function bodies around the place, and the problems so far. -/
structure Cursor where
  behind : List Token
  ahead : List Token
  last : Token
  functions : Nat
  problems : Array Diagnostic

namespace Cursor

def start (tokens : List Token) (last : Token) : Cursor :=
  ⟨[], tokens, last, 0, #[]⟩

/-- The token at the cursor, which at the end is the end marker. -/
def here (cursor : Cursor) : Token :=
  cursor.ahead.head?.getD cursor.last

def sees (cursor : Cursor) (kind : Kind) : Bool :=
  cursor.ahead.head?.any (·.kind == kind)

def record (cursor : Cursor) (error : SyntaxError) (token : Token) : Cursor :=
  { cursor with problems := cursor.problems.push (error.diagnostic token) }

/-- The kinds of token that begin a statement of their own. -/
def startsStatement : Kind → Bool
  | .kwClass | .kwFun | .kwVar | .kwFor | .kwIf | .kwWhile | .kwPrint | .kwReturn => true
  | _ => false

/-- Moves tokens behind until a semicolon is the latest or a statement starts ahead. -/
def skipTo (behind : List Token) : List Token → List Token × List Token
  | [] => (behind, [])
  | next :: ahead =>
    if behind.head?.any (·.kind == .semicolon) || startsStatement next.kind then
      (behind, next :: ahead)
    else skipTo (next :: behind) ahead

/-- Leaves the token at the cursor, and then all up to the likely start of a statement. -/
def synchronize (cursor : Cursor) : Cursor :=
  match cursor.ahead with
  | [] => cursor
  | next :: ahead =>
    let (behind, ahead) := skipTo (next :: cursor.behind) ahead
    { cursor with behind, ahead }

end Cursor

inductive Parsed (α : Type) where
  | ok (value : α) (cursor : Cursor)
  /-- A problem was recorded, and what was begun cannot be finished. -/
  | failed (cursor : Cursor)
  /-- The bound on the depth of reading was too small to tell. -/
  | spent

def Parse (α : Type) : Type := Cursor → Parsed α

namespace Parse

@[always_inline, inline]
def andThen {α β : Type} (step : Parse α) (next : α → Parse β) : Parse β := fun cursor =>
  match step cursor with
  | .ok value cursor => next value cursor
  | .failed cursor => .failed cursor
  | .spent => .spent

instance : Monad Parse where
  pure value := fun cursor => .ok value cursor
  bind := andThen

/-- The step that has no depth left. -/
def spent {α : Type} : Parse α := fun _ => .spent

def sees (kind : Kind) : Parse Bool := fun cursor =>
  .ok (cursor.sees kind) cursor

/-- Takes the token ahead if its kind is among those asked for. -/
def accept (among : Kind → Bool) : Parse (Option Token) := fun cursor =>
  match cursor.ahead with
  | [] => .ok none cursor
  | next :: ahead =>
    if among next.kind then
      .ok (some next) { cursor with behind := next :: cursor.behind, ahead }
    else .ok none cursor

def note (error : SyntaxError) (token : Token) : Parse Unit := fun cursor =>
  .ok () (cursor.record error token)

def noteHere (error : SyntaxError) : Parse Unit := fun cursor =>
  .ok () (cursor.record error cursor.here)

def fail {α : Type} (error : SyntaxError) : Parse α := fun cursor =>
  .failed (cursor.record error cursor.here)

@[inline]
def inFunction {α : Type} (body : Parse α) : Parse α := fun cursor =>
  match body { cursor with functions := cursor.functions + 1 } with
  | .ok value cursor => .ok value { cursor with functions := cursor.functions - 1 }
  | .failed cursor => .failed { cursor with functions := cursor.functions - 1 }
  | .spent => .spent

def insideFunction : Parse Bool := fun cursor =>
  .ok (0 < cursor.functions) cursor

/-- Records the problem of a return statement that begins outside every function. -/
def returning (keyword : Token) : Parse Unit := do
  unless ← insideFunction do
    note .returnOutsideFunction keyword

/-- Reads a statement if it can be read, and else goes to the start of the next. -/
@[inline]
def recovering {α : Type} (statement : Parse α) : Parse (Option α) := fun cursor =>
  match statement cursor with
  | .ok value cursor => .ok (some value) cursor
  | .failed cursor => .ok none cursor.synchronize
  | .spent => .spent

end Parse

/-- What the grammar asks of whatever reads, apart from putting one step after another. -/
class Reader (M : Type → Type) extends Monad M where
  /-- A step that is taken at once. -/
  step {α : Type} : Parse α → M α
  /-- The beginning of a return statement. -/
  returning : Token → M Unit
  /-- The inside of a function body. -/
  inFunction {α : Type} : M α → M α
  /-- A statement that is left out where it cannot be read. -/
  recovering {α : Type} : M α → M (Option α)

/-- The reader that only does what it is asked. -/
instance : Reader Parse where
  step reading := reading
  returning := Parse.returning
  inFunction := Parse.inFunction
  recovering := Parse.recovering

namespace Reader

variable {M : Type → Type} [Reader M]

@[specialize]
def expect (kind : Kind) (error : SyntaxError) : M Token := do
  match ← step (Parse.accept (· == kind)) with
  | some token => pure token
  | none => step (Parse.fail error)

end Reader

end Lox
