import SchemaVault.Calendar
import SchemaVault.Number.Literal
import SchemaVault.Text.Digits
import SchemaVault.Text.Hexadecimal
import SchemaVault.Toml.Basic
import SchemaVault.Text.Split

/-!
# Numbers, dates and times of TOML documents

Integers are signed ones of 64 bits, in decimal without leading zeros or, after `0x`, `0o` and
`0b`, in other bases. Between two digits an underscore may stand. A float above the greatest
double is refused. Dates and times are those of RFC 3339, with or without an offset, and a date or
a time may stand alone.
-/

namespace SchemaVault.Toml

open Text

/-! ## Numbers -/

/-- Digits between which single underscores may stand; there need not be any. -/
def digitRun (isDigit : Char → Bool) : List Char → List Char × List Char
  | [] => ([], [])
  | '_' :: d :: cs =>
    if isDigit d then
      let (ds, rest) := digitRun isDigit cs
      (d :: ds, rest)
    else ([], '_' :: d :: cs)
  | c :: cs =>
    if isDigit c then
      let (ds, rest) := digitRun isDigit cs
      (c :: ds, rest)
    else ([], c :: cs)

/-- One digit at least, and underscores only between digits. -/
def digits? (isDigit : Char → Bool) : List Char → Option (List Char × List Char)
  | [] => none
  | c :: cs =>
    if isDigit c then
      let (ds, rest) := digitRun isDigit cs
      some (c :: ds, rest)
    else none

/-- Decimal digits without a leading zero, unless zero is the number. -/
def wholeDigits? : List Char → Option (List Char × List Char)
  | '0' :: cs => some (['0'], cs)
  | cs => digits? Char.isDigit cs

/-- Whether there is a minus sign, and what follows the sign. -/
def sign : List Char → Bool × List Char
  | '-' :: cs => (true, cs)
  | '+' :: cs => (false, cs)
  | cs => (false, cs)

/-- An integer of 64 bits. -/
def signed? (i : Int) : Option Value :=
  if Int64.minValue.toInt ≤ i ∧ i ≤ Int64.maxValue.toInt then some (.integer i) else none

/-- The value of digits in a base. -/
def valueIn (base : Nat) (digits : List Char) : Nat :=
  digits.foldl (fun n c => base * n + (Text.hexDigit? c).getD 0) 0

/-- An integer after the mark of its base. -/
def basedInteger? (base : Nat) (isDigit : Char → Bool) (cs : List Char) :
    Option (Value × List Char) := do
  let (ds, rest) ← digits? isDigit cs
  let v ← signed? (valueIn base ds)
  return (v, rest)

/-- An integer. -/
def integer? : List Char → Option (Value × List Char)
  | '0' :: 'x' :: cs => basedInteger? 16 (fun c => (Text.hexDigit? c).isSome) cs
  | '0' :: 'o' :: cs => basedInteger? 8 (fun c => '0' ≤ c && c ≤ '7') cs
  | '0' :: 'b' :: cs => basedInteger? 2 (fun c => c == '0' || c == '1') cs
  | cs => do
    let (negative, cs) := sign cs
    let (ds, rest) ← wholeDigits? cs
    let n : Int := Literal.digitsValue ds
    let v ← signed? (if negative then -n else n)
    return (v, rest)

/-- Whether a number written as a significand and a power of ten stays within the doubles. The
length of the significand settles it unless the number is near the greatest double. -/
def isWithinDoubles (significand : Nat) (digits : Nat) (exponent : Int) : Bool :=
  significand == 0 || digits + exponent < 300 ||
    (digits + exponent < 320 &&
      (if 0 ≤ exponent then Double.ofRatio? false (significand * Nat.pow 10 exponent.toNat) 1
        else Double.ofRatio? false significand (Nat.pow 10 (-exponent).toNat)).isSome)

/-- An exponent, which may be missing. -/
def exponent? : List Char → Option (Option Int × List Char)
  | c :: cs =>
    if c = 'e' ∨ c = 'E' then do
      let (negative, cs) := sign cs
      let (ds, rest) ← digits? Char.isDigit cs
      let n : Int := Literal.digitsValue ds
      return (some (if negative then -n else n), rest)
    else some (none, c :: cs)
  | [] => some (none, [])

/-- The digits after a point, which may be missing. -/
def fraction? : List Char → Option (Option (List Char) × List Char)
  | '.' :: cs => do
    let (ds, rest) ← digits? Char.isDigit cs
    return (some ds, rest)
  | cs => some (none, cs)

/-- A float. -/
def float? (cs : List Char) : Option (Value × List Char) := do
  let (negative, cs) := sign cs
  match cs with
  | 'i' :: 'n' :: 'f' :: rest | 'n' :: 'a' :: 'n' :: rest => return (.float, rest)
  | cs =>
    let (whole, cs) ← wholeDigits? cs
    let (fraction, cs) ← fraction? cs
    let (exponent, rest) ← exponent? cs
    if fraction.isNone && exponent.isNone then none
    else
      let ds := (whole ++ fraction.getD []).dropWhile (· == '0')
      let power := exponent.getD 0 - (fraction.getD []).length
      if negative || isWithinDoubles (Literal.digitsValue ds) ds.length power then
        some (.float, rest)
      else none

/-! ## Dates and times -/

/-- A date. -/
def date? (cs : List Char) : Option (List Char) := do
  let (year, cs) ← fixedNumber? 4 cs
  let cs ← mark? '-' cs
  let (month, cs) ← fixedNumber? 2 cs
  let cs ← mark? '-' cs
  let (day, cs) ← fixedNumber? 2 cs
  if Calendar.isDay year month day then some cs else none

/-- A time of day with its fraction of a second, if there is one. -/
def time? (cs : List Char) : Option (List Char) := do
  let (hour, cs) ← fixedNumber? 2 cs
  let cs ← mark? ':' cs
  let (minute, cs) ← fixedNumber? 2 cs
  let cs ← mark? ':' cs
  let (second, cs) ← fixedNumber? 2 cs
  if !Calendar.isTime hour minute second then none
  else
    match cs with
    | '.' :: d :: rest => if d.isDigit then some (rest.dropWhile Char.isDigit) else some cs
    | cs => some cs

/-- Drops an offset from universal time, if there is one. -/
def dropOffset (cs : List Char) : List Char :=
  match cs with
  | 'Z' :: rest | 'z' :: rest => rest
  | c :: rest =>
    if c = '+' ∨ c = '-' then
      (do
        let (hour, rest) ← fixedNumber? 2 rest
        let rest ← mark? ':' rest
        let (minute, rest) ← fixedNumber? 2 rest
        if Calendar.isTime hour minute 0 then some rest else none).getD cs
    else cs
  | [] => []

/-- A date with or without a time of day, or a time of day alone. -/
def dateTime? (cs : List Char) : Option (Value × List Char) :=
  match date? cs with
  | some rest =>
    let longer : Option (List Char) :=
      match rest with
      | c :: rest => if c = 'T' ∨ c = 't' ∨ c = ' ' then (time? rest).map dropOffset else none
      | [] => none
    some (.dateTime, longer.getD rest)
  | none => (time? cs).map fun rest => (.dateTime, rest)

/-! ## Scalars -/

/-- A number, a date, a time or a truth value. -/
def scalar? (cs : List Char) : Option (Value × List Char) :=
  match afterLead? "true".toList cs with
  | some rest => some (.bool true, rest)
  | none =>
    match afterLead? "false".toList cs with
    | some rest => some (.bool false, rest)
    | none => (dateTime? cs).or ((float? cs).or (integer? cs))

end SchemaVault.Toml
