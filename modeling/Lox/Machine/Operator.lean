import Lox.Machine.Run

set_option autoImplicit false

namespace Lox

inductive Answer where
  | value (value : Value)
  | refused (cause : Cause)
  /-- The operator is none for numbers. -/
  | unknown

def arithmetic? : Kind → Option (Float → Float → Float)
  | .plus => some (· + ·)
  | .minus => some (· - ·)
  | .star => some (· * ·)
  | .slash => some (· / ·)
  | _ => none

def comparison? : Kind → Option (Float → Float → Bool)
  | .greater => some fun a b => decide (b < a)
  | .greaterEqual => some fun a b => decide (b ≤ a)
  | .less => some fun a b => decide (a < b)
  | .lessEqual => some fun a b => decide (a ≤ b)
  | .equalEqual => some (· == ·)
  | .bangEqual => some (· != ·)
  | _ => none

/-- The operators that only numbers have in arithmetic. -/
def isArithmeticOnly : Kind → Bool
  | .minus | .star | .slash => true
  | _ => false

def isNumericOnly : Kind → Bool
  | .greater | .greaterEqual | .less | .lessEqual => true
  | kind => isArithmeticOnly kind

namespace Answer

def ofUnary (kind : Kind) (right : Value) : Answer :=
  match kind with
  | .bang => value (.bool (!right.truthy))
  | .minus =>
    match right with
    | .number v => value (.number (-v))
    | _ => refused .operandNotNumber
  | _ => value .nil

/-- A binary operator between texts. The order of texts is not defined, and asking for it
gives nil. -/
def ofTexts (kind : Kind) (left right : String) : Answer :=
  match kind with
  | .plus => value (.text (left ++ right))
  | .equalEqual => value (.bool (left == right))
  | .bangEqual => value (.bool (left != right))
  | _ => if isArithmeticOnly kind then refused .operandsNotNumbers else value .nil

def ofNumbers (kind : Kind) (left right : Float) : Answer :=
  match arithmetic? kind with
  | some f => value (.number (f left right))
  | none =>
    match comparison? kind with
    | some r => value (.bool (r left right))
    | none => unknown

/-- A binary operator between values that are neither both texts nor both numbers. -/
def ofOthers (kind : Kind) (left right : Value) : Answer :=
  if isNumericOnly kind then refused .operandsNotNumbers
  else
    match kind with
    | .plus => refused .operandsNotAddable
    | .equalEqual => value (.bool (left.equals right))
    | .bangEqual => value (.bool (!left.equals right))
    | _ => value .nil

def ofBinary (kind : Kind) (left right : Value) : Answer :=
  match left, right with
  | .text s, .text t => ofTexts kind s t
  | .number v, .number w => ofNumbers kind v w
  | _, _ => ofOthers kind left right

/-- The answer as a run. An unknown operator is recorded, and zero stands for its value. -/
def run (answer : Answer) (operator : Token) : Run Value :=
  match answer with
  | value v => pure v
  | refused cause => Run.fail operator cause
  | unknown => do
    Run.note (.noOperator operator)
    pure (.number 0.0)

end Answer

end Lox
