import SchemaVault.Number.Double

/-!
# Numbers of JSON documents

A number is an exact integer of 64 bits, signed or unsigned, or a finite double. The two kinds
stay apart when a document is stored and written back, and meet in comparison: two integers
compare exactly, while a comparison with a double rounds the integer to a double first.
-/

namespace SchemaVault

/-- A number of a JSON document. -/
inductive Number
  /-- An integer that fits 64 bits, with or without sign. -/
  | integer (value : Int) (inRange : -0x8000000000000000 ≤ value ∧ value < 0x10000000000000000)
  | double (value : Double)
  deriving DecidableEq

namespace Number

/-- The integer `i` as a number, if it fits. -/
def ofInt? (i : Int) : Option Number :=
  if h : -0x8000000000000000 ≤ i ∧ i < 0x10000000000000000 then some (.integer i h) else none

/-- A natural number below `2 ^ 64` as a number. -/
def ofUInt64 (n : UInt64) : Number :=
  .integer n.toNat (by have := n.toNat_lt; omega)

/-- A signed number of 64 bits as a number. -/
def ofInt64 (n : Int64) : Number :=
  .integer n.toInt (by have := n.toInt_lt; have := n.le_toInt; omega)

/-- The number as a double, rounded if it is a large integer. -/
def toDouble : Number → Double
  | .integer i _ => Double.ofInt i
  | .double d => d

/-- The exact integer, if the number is kept as one. -/
def toInt? : Number → Option Int
  | .integer i _ => some i
  | .double _ => none

/-- Whether the value is an integer, however it is kept. -/
def isIntegral : Number → Bool
  | .integer _ _ => true
  | .double d => d.isIntegral

/-- Whether the value is above zero. -/
def isPositive (n : Number) : Bool := 0 < n.toDouble.units

/-! ## Comparison -/

/-- Integers compare exactly; as soon as a double takes part, both sides compare as doubles. -/
def compare : Number → Number → Ordering
  | .integer a _, .integer b _ => Ord.compare a b
  | a, b => Ord.compare a.toDouble.units b.toDouble.units

/-- Equality of value under `compare`. -/
def same (a b : Number) : Bool := (compare a b).isEq

/-- How far from an integer a quotient of doubles may lie and still count as one: the double
nearest to `10 ^ (-9)`. -/
def tolerance : Double := ⟨false, 4835703278458517, -82, by decide⟩

/-- Whether `n` is a multiple of the positive number `step`. Integers divide exactly. Otherwise
the rounded quotient has to lie within `tolerance` of an integer, and a quotient out of range
does not. -/
def isMultiple (n step : Number) : Bool :=
  match n.toInt?, step.toInt? with
  | some v, some s => v % s == 0
  | _, _ =>
    match n.toDouble.div? step.toDouble with
    | some quotient => quotient.distanceToInteger ≤ tolerance.magnitude
    | none => false

end Number

end SchemaVault
