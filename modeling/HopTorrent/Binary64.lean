/-!
# Binary64 — nonnegative binary floating point, exactly

A number is its sixty-four bits.  Arithmetic on finite nonnegative numbers is the exact rational
result rounded to the nearest representable one, a half going to the even neighbour (`ofRatio`);
results too large to represent are infinite.  On such numbers the order of the values is the order
of the bits.
-/

namespace HopTorrent

/-- A binary floating point number, as its bits. -/
structure Binary64 where
  bits : UInt64
deriving DecidableEq, Repr

namespace Binary64

/-! ## Taking a number apart -/

/-- The exponent field. -/
def exponentField (x : Binary64) : Nat := x.bits.toNat / Nat.pow 2 52 % Nat.pow 2 11

/-- The fraction field. -/
def fractionField (x : Binary64) : Nat := x.bits.toNat % Nat.pow 2 52

/-- Whether the sign bit is set. -/
def negative (x : Binary64) : Bool := x.bits.toNat / Nat.pow 2 63 = 1

/-- Whether the bits stand for a number, as opposed to an infinity or to no number at all. -/
def isFinite (x : Binary64) : Bool := x.exponentField < 2047

/-- Whether the bits stand for no number. -/
def isNaN (x : Binary64) : Bool := x.exponentField = 2047 ∧ x.fractionField ≠ 0

/-- The integer significand of the magnitude. -/
def significand (x : Binary64) : Nat :=
  if x.exponentField = 0 then x.fractionField else Nat.pow 2 52 + x.fractionField

/-- The power of two that scales the significand, plus 1074. -/
def scale (x : Binary64) : Nat := x.exponentField - 1

/-- The magnitude as a fraction of two natural numbers. -/
def ratio (x : Binary64) : Nat × Nat :=
  if x.scale ≥ 1074 then (x.significand * Nat.pow 2 (x.scale - 1074), 1)
  else (x.significand, Nat.pow 2 (1074 - x.scale))

/-! ## Rounding -/

/-- The integer nearest to `num / den`, a half going to the even neighbour. -/
def roundHalfEven (num den : Nat) : Nat :=
  let q := num / den
  let r := num % den
  if 2 * r < den then q
  else if 2 * r > den then q + 1
  else if q % 2 = 0 then q else q + 1

/-- The bits of positive infinity. -/
def infinityBits : Nat := 2047 * Nat.pow 2 52

/-- The scale at which `num / den` has a significand of fifty-three bits, or zero if it is too
small for that. -/
def scaleOf (num den : Nat) : Nat :=
  let guess := num.log2 + 1074 - 52 - den.log2
  if num * Nat.pow 2 (1074 - guess) < den * Nat.pow 2 (guess - 1074) * Nat.pow 2 52 then guess - 1
  else guess

/-- **The representable number nearest to `num / den`.** -/
def ofRatio (num den : Nat) : Binary64 :=
  if num = 0 then ⟨0⟩
  else
    let s := scaleOf num den
    let m := roundHalfEven (num * Nat.pow 2 (1074 - s)) (den * Nat.pow 2 (s - 1074))
    ⟨UInt64.ofNat (min (s * Nat.pow 2 52 + m) infinityBits)⟩

/-! ## Numbers and arithmetic -/

/-- The number nearest to a natural number. -/
def ofNat (n : Nat) : Binary64 := ofRatio n 1

/-- Zero. -/
def zero : Binary64 := ⟨0⟩

/-- One hundred. -/
def hundred : Binary64 := ofNat 100

/-- The largest number below another positive one. -/
def pred (x : Binary64) : Binary64 := ⟨x.bits - 1⟩

/-- The rounded sum. -/
def add (x y : Binary64) : Binary64 :=
  ofRatio (x.ratio.1 * y.ratio.2 + y.ratio.1 * x.ratio.2) (x.ratio.2 * y.ratio.2)

/-- The rounded product. -/
def mul (x y : Binary64) : Binary64 := ofRatio (x.ratio.1 * y.ratio.1) (x.ratio.2 * y.ratio.2)

/-- The rounded quotient. -/
def div (x y : Binary64) : Binary64 := ofRatio (x.ratio.1 * y.ratio.2) (x.ratio.2 * y.ratio.1)

/-- The smaller of two nonnegative numbers. -/
def min (x y : Binary64) : Binary64 := if x.bits ≤ y.bits then x else y

/-- The larger of two nonnegative numbers. -/
def max (x y : Binary64) : Binary64 := if x.bits ≤ y.bits then y else x

/-- A nonnegative number held between two bounds. -/
def clamp (lo hi x : Binary64) : Binary64 := min (max x lo) hi

/-- The whole part, at most `2 ^ 64 - 1`. -/
def toNat (x : Binary64) : Nat :=
  if x.isFinite then Nat.min (x.ratio.1 / x.ratio.2) (Nat.pow 2 64 - 1) else Nat.pow 2 64 - 1

end Binary64

end HopTorrent
