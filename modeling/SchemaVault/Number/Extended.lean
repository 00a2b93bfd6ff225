import SchemaVault.Number.Double

/-!
# Numbers of extended precision

Positive numbers with a significand of 64 bits, in which longer calculations are carried out before
the result is rounded to a double. The exponent is not bounded. As for doubles, every operation
takes the number nearest to the exact result, and of two that are equally near the one with the even
significand.
-/

namespace SchemaVault

/-- The number `significand * 2 ^ exponent`. -/
structure Extended where
  significand : Nat
  exponent : Int
  deriving DecidableEq

namespace Extended

/-- The least significand of full length, `2 ^ 63`. -/
abbrev leadingBit : Nat := 0x8000000000000000

/-- The number nearest to the positive ratio `num / den`. -/
def ofRatio (num den : Nat) : Extended :=
  let exponent := Double.binaryOrder num den - 63
  let (n, d) := Double.scaled num den exponent
  let significand := Double.nearestEven n d
  if significand = 2 * leadingBit then ⟨leadingBit, exponent + 1⟩ else ⟨significand, exponent⟩

/-- The rounded product. -/
def mul (a b : Extended) : Extended :=
  let product := ofRatio (a.significand * b.significand) 1
  { product with exponent := product.exponent + a.exponent + b.exponent }

/-- The number as a ratio. -/
def ratio (a : Extended) : Nat × Nat :=
  if 0 ≤ a.exponent then (a.significand * Nat.pow 2 a.exponent.toNat, 1)
  else (a.significand, Nat.pow 2 (-a.exponent).toNat)

/-- The nearest double; `none` above the greatest double. -/
def toDouble? (a : Extended) : Option Double :=
  let (num, den) := a.ratio
  if Double.greatest.magnitude * den < num * Double.unitsPerOne then none
  else Double.ofRatio? false num den

/-! ## Powers of ten -/

/-- A power of ten, rounded. -/
def tenPow (k : Int) : Extended :=
  if 0 ≤ k then ofRatio (Nat.pow 10 k.toNat) 1 else ofRatio 1 (Nat.pow 10 (-k).toNat)

/-- `10 ^ 100`, `10 ^ 10` and `10`, or their inverses. -/
def tenPowers (inverse : Bool) : Extended × Extended × Extended :=
  if inverse then (tenPow (-100), tenPow (-10), tenPow (-1)) else (tenPow 100, tenPow 10, tenPow 1)

/-- The number times a power of ten, found by multiplying with the 100th, then the 10th, then the
first power as often as each fits in. Every product is rounded. -/
def scaleByTen (a : Extended) (k : Int) : Extended :=
  let (hundred, ten, one) := tenPowers (k < 0)
  let n := k.natAbs
  let a := Nat.repeat (·.mul hundred) (n / 100) a
  let a := Nat.repeat (·.mul ten) (n % 100 / 10) a
  Nat.repeat (·.mul one) (n % 10) a

end Extended

end SchemaVault
