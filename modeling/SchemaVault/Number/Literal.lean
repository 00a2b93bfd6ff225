import SchemaVault.Number.Basic

/-!
# Reading number literals

How the digits of a literal become a number. A literal without point and exponent that fits 64
bits is an exact integer. Any other is a double, found in two steps: as many leading digits as
fit 64 bits make a significand, and the significand, rounded to a double, is multiplied or
divided by a power of ten. Each step rounds, so the result of a long literal may differ in its
last bit from the double nearest to the literal.
-/

namespace SchemaVault

/-- A number literal cut into its parts; `integral` holds at least one digit. -/
structure Literal where
  negative : Bool
  integral : List Char
  /-- The digits after the point, if there is a point. -/
  fraction : Option (List Char)
  /-- The exponent, if there is one. -/
  exponent : Option Int
  deriving DecidableEq

namespace Literal

/-- The value of a decimal digit. -/
def digitValue (c : Char) : Nat := c.toNat - '0'.toNat

/-- The number that a run of digits denotes. -/
def digitsValue (digits : List Char) : Nat :=
  digits.foldl (fun n c => 10 * n + digitValue c) 0

/-- Appends digits to a significand for as long as it stays below `2 ^ 64`, and says how many
digits are left over. -/
def gather (significand : Nat) : List Char → Nat × Nat
  | [] => (significand, 0)
  | c :: cs =>
    let next := 10 * significand + digitValue c
    if next < UInt64.size then gather next cs else (significand, cs.length + 1)

/-- A significand times a power of ten; `none` beyond the greatest double. -/
def scaleByTen? (significand : Nat) (exponent : Int) : Option Double :=
  let d := Double.ofInt significand
  if d.isZero then some d
  else if 308 < exponent then none
  else if 0 ≤ exponent then d.mul? (Double.tenPow exponent.toNat)
  else if -308 ≤ exponent then d.div? (Double.tenPow (-exponent).toNat)
  else if -616 ≤ exponent then
    (d.div? (Double.tenPow 308)).bind (·.div? (Double.tenPow (-exponent - 308).toNat))
  else some (Double.zero false)

/-- The double that the literal denotes; `none` when it is out of range. -/
def toDouble? (l : Literal) : Option Double :=
  let (whole, dropped) := gather 0 l.integral
  let fraction := l.fraction.getD []
  let (significand, unread) := gather whole fraction
  let exponent := (dropped : Int) - (fraction.length - unread : Nat) + l.exponent.getD 0
  (scaleByTen? significand exponent).map fun d => if l.negative then d.negate else d

/-- The number that the literal denotes; `none` when it is out of range. Minus zero is a double,
since no integer carries its sign. -/
def toNumber? (l : Literal) : Option Number :=
  let asDouble := l.toDouble?.map Number.double
  if l.fraction.isNone && l.exponent.isNone then
    let n := digitsValue l.integral
    if l.negative && n == 0 then asDouble
    else (Number.ofInt? (if l.negative then -n else n)).or asDouble
  else asDouble

end Literal

end SchemaVault
