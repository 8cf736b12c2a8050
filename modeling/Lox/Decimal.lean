set_option autoImplicit false

namespace Lox

/-- The number `coefficient * 10 ^ exponent`. -/
structure Decimal where
  coefficient : Nat
  exponent : Int
deriving DecidableEq, Repr

/-- The decimal digits `'0'` to `'9'`. -/
def isDigit (c : Char) : Bool :=
  '0' ≤ c && c ≤ '9'

namespace Decimal

/-- The digits of a natural number, the highest first. -/
def digits (n : Nat) : List Char :=
  Nat.toDigits 10 n

def ofDigits (text : List Char) : Nat :=
  text.foldl (fun n c => 10 * n + (c.toNat - '0'.toNat)) 0

/-- Reads digits, with an optional point and digits after it. -/
def ofText (text : List Char) : Decimal :=
  let whole := text.takeWhile isDigit
  let fraction := (text.dropWhile isDigit).drop 1
  ⟨ofDigits (whole ++ fraction), -fraction.length⟩

/-- Moves the trailing zeros of a coefficient into the exponent, at most `steps` of them. -/
def stripZeros : Nat → Nat → Int → Decimal
  | 0, n, e => ⟨n, e⟩
  | steps + 1, n, e =>
    if n % 10 = 0 then stripZeros steps (n / 10) (e + 1) else ⟨n, e⟩

/-- The one form of a value: no trailing zero in the coefficient, and zero has exponent zero. -/
def normal (d : Decimal) : Decimal :=
  if d.coefficient = 0 then ⟨0, 0⟩
  else stripZeros (digits d.coefficient).length d.coefficient d.exponent

/-- The largest distance of the leading digit from the point that is still worked out: beyond
it every decimal is past the largest double or nearer to zero than to the smallest. -/
def reach : Int := 400

/-- The double nearest to the decimal, ties going to the even one. -/
def toFloat (d : Decimal) : Float :=
  let n := d.normal
  let leading := n.exponent + (digits n.coefficient).length
  if n.coefficient = 0 || leading < -reach then 0.0
  else if reach < leading then 1.0 / 0.0
  else Float.ofScientific n.coefficient (n.exponent < 0) n.exponent.natAbs

/-- Digits with a point where the exponent puts it, and at least one digit before it. -/
def positional (d : Decimal) : List Char :=
  let row := digits d.coefficient
  if 0 ≤ d.exponent then row ++ List.replicate d.exponent.toNat '0'
  else
    let places := d.exponent.natAbs
    let padded := List.replicate (places + 1 - row.length) '0' ++ row
    padded.take (padded.length - places) ++ '.' :: padded.drop (padded.length - places)

end Decimal

end Lox
