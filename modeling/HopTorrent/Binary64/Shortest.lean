import HopTorrent.Binary64

/-!
# Binary64/Shortest — the fewest decimal digits that read back

A finite number is written with the fewest decimal digits that lie in the interval of reals that
round to it; of two such digit sequences the nearer one is taken, of two equally near ones the even
one.  The ends of the interval belong to it exactly when the significand is even.
-/

namespace HopTorrent.Binary64

/-- A decimal number: `digits · 10 ^ exponent`. -/
structure Decimal where
  digits : Nat
  exponent : Int
deriving DecidableEq, Repr

/-- The reals that round to one number, over a common denominator: the lower end, the number
itself, the upper end, the denominator, and whether the ends belong to it. -/
structure Rounding where
  low : Nat
  value : Nat
  high : Nat
  den : Nat
  closed : Bool
deriving DecidableEq, Repr

/-- The interval of a positive finite number.  Right above a power of two the numbers below lie
twice as close, except at the smallest exponent. -/
def rounding (x : Binary64) : Rounding :=
  let m := x.significand
  let narrow := x.fractionField = 0 ∧ x.exponentField > 1
  let up := Nat.pow 2 (x.scale - 1074)
  ⟨(4 * m - if narrow then 1 else 2) * up, 4 * m * up, (4 * m + 2) * up,
    4 * Nat.pow 2 (1074 - x.scale), m % 2 = 0⟩

/-- The numerator and the denominator of `n · 10 ^ e`. -/
def scaled (n : Nat) (e : Int) : Nat × Nat := (n * Nat.pow 10 e.toNat, Nat.pow 10 (-e).toNat)

/-- Whether a decimal number lies in the interval. -/
def Rounding.contains (r : Rounding) (n : Nat) (e : Int) : Bool :=
  let (num, den) := scaled n e
  let below := r.low * den
  let here := num * r.den
  let above := r.high * den
  if r.closed then below ≤ here ∧ here ≤ above else below < here ∧ here < above

/-- How many decimal digits stand before the point; zero or less counts the zeros after it. -/
def magnitude (num den : Nat) : Int :=
  if den ≤ num then (Nat.toDigits 10 (num / den)).length
  else -(((List.range 400).find? fun zeros => den ≤ num * Nat.pow 10 (zeros + 1)).getD 0 : Nat)

/-- The candidate of the grid `10 ^ e`: the neighbour of the number on the grid that lies in the
interval, if one does. -/
def Rounding.onGrid (r : Rounding) (e : Int) : Option Nat :=
  let num := r.value * Nat.pow 10 (-e).toNat
  let den := r.den * Nat.pow 10 e.toNat
  let below := num / den
  let rest := num % den
  match r.contains below e, r.contains (below + 1) e with
  | true, true =>
    if 2 * rest < den then some below
    else if 2 * rest > den then some (below + 1)
    else if below % 2 = 0 then some below else some (below + 1)
  | true, false => some below
  | false, true => some (below + 1)
  | false, false => none

/-- Without zeros at the end. -/
def Decimal.stripped (fuel : Nat) (d : Decimal) : Decimal :=
  match fuel with
  | 0 => d
  | fuel + 1 =>
    if d.digits ≠ 0 ∧ d.digits % 10 = 0 then stripped fuel ⟨d.digits / 10, d.exponent + 1⟩ else d

/-- **The fewest digits that read back** to a positive finite number. -/
def shortest (x : Binary64) : Decimal :=
  let r := x.rounding
  let top := magnitude r.value r.den
  let found := (List.range 17).findSome? fun (k : Nat) =>
    let e := top - (k + 1 : Nat)
    (r.onGrid e).map fun n => Decimal.stripped 20 ⟨n, e⟩
  found.getD ⟨r.value, 0⟩

end HopTorrent.Binary64
