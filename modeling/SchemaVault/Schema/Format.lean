import SchemaVault.Calendar
import SchemaVault.Identifier
import SchemaVault.Number.Literal
import SchemaVault.Text.Blank
import SchemaVault.Text.Digits
import SchemaVault.Text.Split

/-!
# Formats of texts

The formats that a schema can ask of a text: points in time as RFC 3339 writes them, days, times
of day, mail addresses, identifiers and resource identifiers. A format that is not known asks for
nothing.
-/

namespace SchemaVault

/-- A format that a schema can ask for. -/
inductive Format
  | dateTime
  | date
  | time
  | email
  | uuid
  | uri
  /-- Any other name; every text has this format. -/
  | unknown
  deriving DecidableEq

namespace Format

open Text

/-- The format of a given name. -/
def ofName (name : String) : Format :=
  match name with
  | "date-time" => dateTime
  | "date" => date
  | "time" => time
  | "email" => email
  | "uuid" => uuid
  | "uri" => uri
  | _ => unknown

/-! ## Points in time -/

/-- A fraction of a second, which may be missing but has a digit at least. -/
def fractionOfSecond? : List Char → Option (List Char)
  | '.' :: cs =>
    match cs.span Char.isDigit with
    | ([], _) => none
    | (_, rest) => some rest
  | cs => some cs

/-- An offset from universal time: the letter Z in either case, or a sign, hours below 24 and
minutes below 60. The sign may be the minus sign U+2212. -/
def offset? : List Char → Option (List Char)
  | 'Z' :: cs | 'z' :: cs => some cs
  | c :: cs =>
    if c = '+' ∨ c = '-' ∨ c = '\u2212' then do
      let (hours, cs) ← fixedNumber? 2 cs
      let cs ← mark? ':' cs
      let (minutes, cs) ← fixedNumber? 2 cs
      if hours < 24 ∧ minutes < 60 then some cs else none
    else none
  | [] => none

/-- A day with all its digits. -/
def day? (cs : List Char) : Option (List Char) := do
  let (year, cs) ← fixedNumber? 4 cs
  let cs ← mark? '-' cs
  let (month, cs) ← fixedNumber? 2 cs
  let cs ← mark? '-' cs
  let (day, cs) ← fixedNumber? 2 cs
  if Calendar.isDay year month day then some cs else none

/-- A time of day with its offset. -/
def timeOfDay? (cs : List Char) : Option (List Char) := do
  let (hour, cs) ← fixedNumber? 2 cs
  let cs ← mark? ':' cs
  let (minute, cs) ← fixedNumber? 2 cs
  let cs ← mark? ':' cs
  let (second, cs) ← fixedNumber? 2 cs
  if Calendar.isTime hour minute second then (fractionOfSecond? cs).bind offset? else none

/-- Whether the text is a time of day with its offset and nothing else. -/
def isTime (cs : List Char) : Bool := timeOfDay? cs == some []

/-- Whether the text is a day, the letter T in either case or a space, and a time of day. -/
def isDateTime (cs : List Char) : Bool :=
  match day? cs with
  | some (c :: rest) => (c == 'T' || c == 't' || c == ' ') && isTime rest
  | _ => false

/-! ## Days -/

/-- A number of one up to `most` digits. -/
def looseNumber? (most : Nat) (cs : List Char) : Option (Nat × List Char) :=
  let ds := (cs.take most).takeWhile Char.isDigit
  if ds.isEmpty then none else some (Literal.digitsValue ds, cs.drop ds.length)

/-- A year after any blanks: up to four digits, or a sign and any number of them. -/
def looseYear? (cs : List Char) : Option (Int × List Char) :=
  match cs.dropWhile Text.isBlank with
  | '+' :: rest => (looseNumber? rest.length rest).map fun (n, cs) => ((n : Int), cs)
  | '-' :: rest => (looseNumber? rest.length rest).map fun (n, cs) => (-(n : Int), cs)
  | rest => (looseNumber? 4 rest).map fun (n, cs) => ((n : Int), cs)

/-- Whether the text takes ten bytes and is a year, a month and a day with dashes between them,
where each number may have blanks before it and need not have all its digits. -/
def isDate (s : String) : Bool :=
  s.utf8ByteSize == 10 &&
    (do
      let (year, cs) ← looseYear? s.toList
      let cs ← mark? '-' cs
      let (month, cs) ← looseNumber? 2 (cs.dropWhile Text.isBlank)
      let cs ← mark? '-' cs
      let (day, cs) ← looseNumber? 2 (cs.dropWhile Text.isBlank)
      if cs.isEmpty && Calendar.isDay year month day then some () else none).isSome

/-! ## Addresses and identifiers -/

/-- Whether the text is a name, an at sign and two or more labels with points between them, all
without blanks. -/
def isEmail (cs : List Char) : Bool :=
  match Text.cutLast '@' cs with
  | none => false
  | some (name, domain) =>
    let labels := Text.pieces '.' domain
    !name.isEmpty && !name.contains '@' && !cs.any Text.isBlank && 2 ≤ labels.length &&
      labels.all (!·.isEmpty)

/-- Whether the text is an identifier in its five groups. -/
def isUuid (s : String) : Bool := s.utf8ByteSize == 36 && (Identifier.read? s).isSome

/-- Whether the text is a scheme, a colon and something more, all without blanks. -/
def isUri (cs : List Char) : Bool :=
  match Text.cutFirst ':' cs with
  | none => false
  | some (scheme, rest) =>
    match scheme with
    | [] => false
    | c :: more =>
      c.isAlpha && more.all (fun d => d.isAlphanum || d == '+' || d == '-' || d == '.') &&
        !rest.isEmpty && !cs.any Text.isBlank

/-- Whether a text has the format. -/
def accepts (f : Format) (s : String) : Bool :=
  match f with
  | dateTime => isDateTime s.toList
  | date => isDate s
  | time => isTime s.toList
  | email => isEmail s.toList
  | uuid => isUuid s
  | uri => isUri s.toList
  | unknown => true

end Format

end SchemaVault
