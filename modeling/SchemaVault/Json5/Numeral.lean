import SchemaVault.Number.Extended
import SchemaVault.Number.Literal
import SchemaVault.Text.Hexadecimal

/-!
# Numerals

The numbers of a relaxed document, kept as they are written. A numeral may begin with a plus sign,
lack the digits on one side of its point, or be hexadecimal, and infinity is written out as a power
of ten beyond all doubles. `Numeral.chars` is its text with the missing digits put in;
`Numeral.units?` is its value.
-/

namespace SchemaVault.Json5

/-- A numeral without its plus sign. -/
inductive Numeral
  /-- The digits before the point, those after it if there is a point, and the exponent with its
  letter and sign, if there is one. -/
  | decimal (negative : Bool) (integral : List Char) (fraction : Option (List Char))
      (exponent : List Char)
  | hexadecimal (negative : Bool) (digits : List Char)
  deriving DecidableEq

namespace Numeral

/-- How infinity is kept. -/
def infinity (negative : Bool) : Numeral := decimal negative ['9'] none ['e', '9', '9', '9']

/-! ## Text -/

/-- Whether the digits without leading zeros write a number of 64 bits. -/
def fitsWord (digits : List Char) : Bool := (digits.dropWhile (· == '0')).length ≤ 16

/-- The digits, or a zero if there are none. -/
def orZero : List Char → List Char
  | [] => ['0']
  | ds => ds

/-- The text of the numeral. A hexadecimal one becomes decimal. -/
def chars : Numeral → List Char
  | decimal negative integral fraction exponent =>
    let sign := if negative then ['-'] else []
    let fraction := match fraction with
      | some ds => '.' :: orZero ds
      | none => []
    sign ++ orZero integral ++ fraction ++ exponent
  | hexadecimal negative digits =>
    let sign := if negative then ['-'] else []
    sign ++ (if fitsWord digits then (toString (Text.hexNumber digits)).toList else "9.0e999".toList)

/-! ## Value -/

/-- The significand from which on no more digits are taken in, since it might not fit 64 bits with
another one. -/
def fullSignificand : Nat := 1844674407370955160

/-- Takes digits into a significand until it is full, and says how many are left over. -/
def gather (significand : Nat) : List Char → Nat × Nat
  | [] => (significand, 0)
  | c :: cs =>
    if significand < fullSignificand then gather (10 * significand + Literal.digitValue c) cs
    else (significand, cs.length + 1)

/-- The number that the digits of an exponent write. From 10000 on it counts as 10000 if digits
follow. -/
def exponentValue (digits : List Char) : Nat :=
  digits.foldl (fun n c => if n < 10000 then 10 * n + Literal.digitValue c else 10000) 0

/-- The value of an exponent with its letter and sign. -/
def exponentOf : List Char → Int
  | _ :: '-' :: ds => -(exponentValue ds : Int)
  | _ :: '+' :: ds => exponentValue ds
  | _ :: ds => exponentValue ds
  | [] => 0

/-- Moves powers of ten into the significand while it fits 64 bits, and says how many are left. -/
def raise (significand : Nat) : (tens : Nat) → Nat × Nat
  | 0 => (significand, 0)
  | tens + 1 =>
    if significand ≤ fullSignificand then raise (10 * significand) tens
    else (significand, tens + 1)

/-- Moves powers of ten out of the significand while it is a multiple of ten, and says how many are
left. -/
def lower (significand : Nat) : (tens : Nat) → Nat × Nat
  | 0 => (significand, 0)
  | tens + 1 =>
    if significand % 10 = 0 then lower (significand / 10) tens else (significand, tens + 1)

/-- A significand times a power of ten as a double, with one rounding if the product is an integer
of 64 bits and in extended precision otherwise; `none` above the greatest double. -/
def scale? (significand : Nat) (exponent : Int) : Option Double :=
  if significand = 0 then some (Double.zero false)
  else
    let (significand, exponent) :=
      if 0 ≤ exponent then
        let (s, tens) := raise significand exponent.toNat
        (s, (tens : Int))
      else
        let (s, tens) := lower significand (-exponent).toNat
        (s, -(tens : Int))
    if exponent = 0 then some (Double.ofInt significand)
    else ((Extended.ofRatio significand 1).scaleByTen exponent).toDouble?

/-- The absolute value of a decimal numeral as a double; `none` above the greatest double. -/
def toDouble? (integral : List Char) (fraction : Option (List Char)) (exponent : List Char) :
    Option Double :=
  let (whole, dropped) := gather 0 integral
  let fraction := fraction.getD []
  let (significand, unread) := gather whole fraction
  scale? significand ((dropped : Int) - (fraction.length - unread : Nat) + exponentOf exponent)

/-- What counts for everything above the greatest double, `2 ^ 1024`, in the units of doubles. -/
def beyond : Nat := Nat.pow 2 2098

/-- The value with its sign. -/
def signed (negative : Bool) (n : Nat) : Int := if negative then -(n : Int) else n

/-- The value in the units of doubles. An integer of 64 bits is exact. A hexadecimal numeral stands
for the 64 bits of a signed integer, and has no value if it has more. -/
def units? : Numeral → Option Int
  | decimal negative integral fraction exponent =>
    let i := signed negative (Literal.digitsValue integral)
    if fraction.isNone && exponent.isEmpty && Int64.minValue.toInt ≤ i && i ≤ Int64.maxValue.toInt then
      some (i * (Double.unitsPerOne : Nat))
    else
      let magnitude := match toDouble? integral fraction exponent with
        | some d => d.magnitude
        | none => beyond
      some (signed negative magnitude)
  | hexadecimal negative digits =>
    if fitsWord digits then
      let word := Int64.ofNat (Text.hexNumber digits)
      some ((if negative then -word else word).toInt * (Double.unitsPerOne : Nat))
    else none

end Numeral

end SchemaVault.Json5
