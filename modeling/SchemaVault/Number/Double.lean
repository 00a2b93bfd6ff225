/-!
# Finite doubles

A finite binary64 number as the exact number it stands for: sign, significand and exponent in
canonical form, so that two doubles are the same value of `Double` exactly when they have the
same bits. Two integers say everything else. `Double.units` counts in units of `2 ^ (-1074)`, the
finest grid there is, and so turns comparison into comparison of integers; `Double.ofRatio?`
rounds an exact ratio to the nearest double, a tie going to the even significand, and is the only
place where rounding happens.
-/

namespace SchemaVault

/-- The least significand of full length, `2 ^ 52`. -/
abbrev Double.leadingBit : Nat := 0x10000000000000

/-- The significand and exponent of a binary64 number: 53 bits, all of them used unless the
exponent is the least one. -/
def Double.Canonical (significand : Nat) (exponent : Int) : Prop :=
  significand < 2 * Double.leadingBit ∧ -1074 ≤ exponent ∧ exponent ≤ 971 ∧
    (Double.leadingBit ≤ significand ∨ exponent = -1074)

instance (significand : Nat) (exponent : Int) :
    Decidable (Double.Canonical significand exponent) := by
  unfold Double.Canonical; infer_instance

/-- The finite binary64 number `± significand * 2 ^ exponent`. -/
structure Double where
  negative : Bool
  significand : Nat
  exponent : Int
  canonical : Double.Canonical significand exponent
  deriving DecidableEq

namespace Double

/-- Zero with a sign. -/
def zero (negative : Bool) : Double := ⟨negative, 0, -1074, by decide⟩

instance : Inhabited Double := ⟨zero false⟩

/-- The greatest double. -/
def greatest : Double := ⟨false, 2 * leadingBit - 1, 971, by decide⟩

/-- Whether the number is one of the two zeros. -/
def isZero (d : Double) : Bool := d.significand == 0

/-- The number with the other sign. -/
def negate (d : Double) : Double := { d with negative := !d.negative }

/-! ## The exact value -/

/-- The absolute value in units of `2 ^ (-1074)`. -/
def magnitude (d : Double) : Nat := d.significand * Nat.pow 2 (d.exponent + 1074).toNat

/-- The value in units of `2 ^ (-1074)`. -/
def units (d : Double) : Int := if d.negative then -(d.magnitude : Int) else d.magnitude

/-- How many units make one. -/
def unitsPerOne : Nat := Nat.pow 2 1074

/-- Whether the value is an integer. -/
def isIntegral (d : Double) : Bool := d.magnitude % unitsPerOne == 0

/-! ## Rounding -/

/-- The integer nearest to `num / den`, the even one of two that are equally near. -/
def nearestEven (num den : Nat) : Nat :=
  let quotient := num / den
  let rest := num % den
  if 2 * rest < den then quotient
  else if den < 2 * rest then quotient + 1
  else if quotient % 2 = 0 then quotient
  else quotient + 1

/-- The numerator and denominator of `num / den / 2 ^ exponent`. -/
def scaled (num den : Nat) (exponent : Int) : Nat × Nat :=
  if 0 ≤ exponent then (num, den * Nat.pow 2 exponent.toNat)
  else (num * Nat.pow 2 (-exponent).toNat, den)

/-- The greatest `e` with `2 ^ e ≤ num / den`, for positive `num` and `den`. -/
def binaryOrder (num den : Nat) : Int :=
  let guess : Int := (num.log2 : Int) - (den.log2 : Int)
  let (n, d) := scaled num den guess
  if n < d then guess - 1 else guess

/-- The double nearest to `num / den` with the given sign, a tie going to the even significand;
`none` when it lies beyond the greatest double. -/
def ofRatio? (negative : Bool) (num den : Nat) : Option Double :=
  if num = 0 then some (zero negative)
  else
    let exponent := max (binaryOrder num den - 52) (-1074)
    let (n, d) := scaled num den exponent
    let significand := nearestEven n d
    let (significand, exponent) :=
      if significand = 2 * leadingBit then (leadingBit, exponent + 1) else (significand, exponent)
    if h : Canonical significand exponent then some ⟨negative, significand, exponent, h⟩ else none

/-- The double nearest to an integer. Integers of 64 bits never lie out of range. -/
def ofInt (i : Int) : Double := (ofRatio? (i < 0) i.natAbs 1).getD (zero false)

/-- The double nearest to a power of ten, which is in range up to the 308th. -/
def tenPow (k : Nat) : Double := (ofRatio? false (Nat.pow 10 k) 1).getD (zero false)

/-- The rounded product; `none` when it is out of range. -/
def mul? (a b : Double) : Option Double :=
  ofRatio? (a.negative != b.negative) (a.magnitude * b.magnitude) (unitsPerOne * unitsPerOne)

/-- The rounded quotient by a number that is not zero; `none` when it is out of range. -/
def div? (a b : Double) : Option Double :=
  ofRatio? (a.negative != b.negative) a.magnitude b.magnitude

/-- How far the value is from the nearest integer, in units. -/
def distanceToInteger (d : Double) : Nat :=
  let rest := d.magnitude % unitsPerOne
  min rest (unitsPerOne - rest)

end Double

end SchemaVault
