import SchemaVault.Number.Basic

/-!
# The text of a number

An integer is written in decimal. A double is written with the fewest digits that still single it
out: among the decimals with the least possible number of digits that round to the double, the
nearest one. `Double.shortest` selects those digits in exact arithmetic and `Double.text` lays
them out.

* A double between `0.00001` and `10 ^ 16` is written positionally and always with a point.
* Outside of that it is written as digits, `e`, a sign if the exponent is positive, and the
  exponent.
-/

namespace SchemaVault

/-- The decimal number `digits * 10 ^ exponent`. -/
structure Decimal where
  digits : Nat
  exponent : Int
  deriving DecidableEq

namespace Double

/-! ## Selecting the digits -/

/-- The numbers that round to a positive double, as the ratios `low / den` and `high / den` about
`value / den`, with the ends included or not. -/
structure RoundingInterval where
  low : Nat
  value : Nat
  high : Nat
  den : Nat
  closed : Bool

/-- The interval of a double other than zero. It reaches half a unit of the last place up and
down, only a quarter down from the least significand of a binade, and holds its ends when the
significand is even. -/
def interval (d : Double) : RoundingInterval :=
  let narrow := d.significand == Double.leadingBit && d.exponent != -1074
  let e := d.exponent - 2
  let up := Nat.pow 2 e.toNat
  { low := (4 * d.significand - if narrow then 1 else 2) * up
    value := 4 * d.significand * up
    high := (4 * d.significand + 2) * up
    den := Nat.pow 2 (-e).toNat
    closed := d.significand % 2 == 0 }

/-- The number of decimal digits of `n`. -/
def digitCount (n : Nat) : Nat := (Nat.toDigits 10 n).length

/-- The greatest `p` with `10 ^ p ≤ num / den`, for positive `num` and `den`. -/
def decimalOrder (num den : Nat) : Int :=
  if den ≤ num then (digitCount (num / den) : Int) - 1
  else -(digitCount ((den - 1) / num) : Int)

/-- The multiple of `10 ^ place` nearest to the value of the interval among those inside it, the
even one of two that are equally near. -/
def RoundingInterval.onGrid? (r : RoundingInterval) (place : Int) : Option Decimal :=
  let grid := r.den * Nat.pow 10 place.toNat
  let scale := Nat.pow 10 (-place).toNat
  let below := r.value * scale / grid
  let inside (n : Nat) : Bool :=
    if r.closed then r.low * scale ≤ n * grid && n * grid ≤ r.high * scale
    else r.low * scale < n * grid && n * grid < r.high * scale
  let toBelow := r.value * scale - below * grid
  let toAbove := (below + 1) * grid - r.value * scale
  match inside below, inside (below + 1) with
  | false, false => none
  | true, false => some ⟨below, place⟩
  | false, true => some ⟨below + 1, place⟩
  | true, true =>
    if toBelow < toAbove || (toBelow == toAbove && below % 2 == 0) then some ⟨below, place⟩
    else some ⟨below + 1, place⟩

/-- The first grid with a decimal inside the interval, from `10 ^ place` on towards finer ones. -/
def RoundingInterval.search (r : RoundingInterval) : (fuel : Nat) → (place : Int) → Decimal
  | 0, place => ⟨0, place⟩
  | fuel + 1, place =>
    match r.onGrid? place with
    | some d => d
    | none => r.search fuel (place - 1)

/-- The decimal with the fewest digits that rounds to the double, the nearest of them. Seventeen
digits always suffice. -/
def shortest (d : Double) : Decimal :=
  let r := d.interval
  r.search 17 (decimalOrder r.value r.den)

/-! ## Laying them out -/

/-- The digits of `n` without trailing zeros. -/
def significantDigits (n : Nat) : List Char :=
  ((Nat.toDigits 10 n).reverse.dropWhile (· == '0')).reverse

/-- The least exponent of a leading digit that is written positionally. -/
def leastPositional : Int := -5

/-- The greatest exponent of a leading digit that is written positionally. -/
def greatestPositional : Int := 15

/-- Digits and the exponent of the first of them, written out. -/
def layOut (digits : List Char) (leading : Int) : List Char :=
  if leastPositional ≤ leading && leading ≤ greatestPositional then
    if leading < 0 then
      ['0', '.'] ++ List.replicate (-leading - 1).toNat '0' ++ digits
    else
      let whole := leading.toNat + 1
      let padded := digits ++ List.replicate (whole - digits.length) '0'
      let fraction := padded.drop whole
      padded.take whole ++ ['.'] ++ if fraction.isEmpty then ['0'] else fraction
  else
    let mantissa := match digits with
      | [] => []
      | [d] => [d]
      | d :: ds => d :: '.' :: ds
    let sign := if leading < 0 then ['-'] else ['+']
    mantissa ++ ['e'] ++ sign ++ Nat.toDigits 10 leading.natAbs

/-- The text of a double. -/
def text (d : Double) : String :=
  let sign := if d.negative then ['-'] else []
  let body :=
    if d.isZero then ['0', '.', '0']
    else
      let s := d.shortest
      layOut (significantDigits s.digits) (s.exponent + digitCount s.digits - 1)
  String.ofList (sign ++ body)

end Double

/-- The text of a number. -/
def Number.text : Number → String
  | .integer i _ => toString i
  | .double d => d.text

end SchemaVault
