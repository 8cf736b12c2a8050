import Lox.Decimal

set_option autoImplicit false

/- A finite double is `m * 2 ^ q`. On the grid of each number of digits its two neighbours are
tried, the nearer one first. -/

namespace Lox

structure Ratio where
  num : Nat
  den : Nat

namespace Ratio

def shift (r : Ratio) (e : Int) : Ratio :=
  if 0 ≤ e then ⟨r.num * Nat.pow 10 e.toNat, r.den⟩
  else ⟨r.num, r.den * Nat.pow 10 e.natAbs⟩

/-- The `e` with `10 ^ (e - 1) ≤ r < 10 ^ e`. -/
def magnitude (r : Ratio) : Int :=
  if r.den ≤ r.num then (Decimal.digits (r.num / r.den)).length
  else if (r.den - 1) / r.num = 0 then 1
  else 1 - ((Decimal.digits ((r.den - 1) / r.num)).length : Int)

/-- The magnitude of a finite double, from the fields of its bits. -/
def ofFloat (v : Float) : Ratio :=
  let bits := v.toBits.toNat
  let field : Nat := bits / Nat.pow 2 52 % Nat.pow 2 11
  let low := bits % Nat.pow 2 52
  let m := if field = 0 then low else low + Nat.pow 2 52
  let q : Int := (max field 1 : Nat) - 1075
  if 0 ≤ q then ⟨m * Nat.pow 2 q.toNat, 1⟩ else ⟨m, Nat.pow 2 q.natAbs⟩

/-- The two neighbours of the ratio on the grid of `10 ^ e`, the nearer first and of two equally
near the even one. -/
def neighbours (r : Ratio) (e : Int) : List Decimal :=
  let scaled := r.shift (-e)
  let below := scaled.num / scaled.den
  let twice := 2 * (scaled.num % scaled.den)
  if twice < scaled.den || (twice = scaled.den && below % 2 = 0) then
    [⟨below, e⟩, ⟨below + 1, e⟩]
  else [⟨below + 1, e⟩, ⟨below, e⟩]

end Ratio

namespace Decimal

def isNegative (v : Float) : Bool :=
  Nat.pow 2 63 ≤ v.toBits.toNat

def readsBack (v : Float) (d : Decimal) : Bool :=
  d.toFloat.toBits.toNat = v.toBits.toNat % Nat.pow 2 63

/-- The nearest of the shortest decimals that read back as the magnitude of `v`, if seventeen
digits are enough for one. -/
def shortest? (v : Float) : Option Decimal :=
  let r := Ratio.ofFloat v
  if r.num = 0 then some ⟨0, 0⟩
  else
    (List.range 17).findSome? fun (k : Nat) =>
      ((r.neighbours (r.magnitude - (k + 1))).find? (readsBack v)).map normal

/-- The text of a double: its shortest decimal written positionally. -/
def floatText (v : Float) : String :=
  if v.isNaN then "NaN"
  else
    let sign := if isNegative v then "-" else ""
    if v.isInf then sign ++ "inf"
    else sign ++ String.ofList ((shortest? v).getD ⟨0, 0⟩).positional

end Decimal

end Lox
