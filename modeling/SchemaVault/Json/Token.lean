import SchemaVault.Json.Basic
import SchemaVault.Number.Literal
import SchemaVault.Text.Hexadecimal

/-!
# The tokens of a written document

A document is read in two passes. The first, here, cuts its text into tokens: the six marks and
the scalars. Blanks between tokens are the space, the tab and the two line ends.
-/

namespace SchemaVault.Json

/-- A token of a written document. -/
inductive Token
  | openArray
  | closeArray
  | openObject
  | closeObject
  | colon
  | comma
  /-- A literal name, a number or a text. -/
  | scalar (value : Json)
  deriving DecidableEq

namespace Token

/-! ## Texts -/

/-- What a one-letter escape stands for. -/
def shortEscape? : Char → Option Char
  | '"' => some '"'
  | '\\' => some '\\'
  | '/' => some '/'
  | 'b' => some '\x08'
  | 'f' => some '\x0c'
  | 'n' => some '\n'
  | 'r' => some '\r'
  | 't' => some '\t'
  | _ => none

/-- Reads a text up to its closing quote and returns what follows. A character beyond U+FFFF is
escaped as a pair of surrogates, and a surrogate alone is refused. -/
def text? : List Char → Option (List Char × List Char)
  | [] => none
  | '"' :: cs => some ([], cs)
  | '\\' :: 'u' :: a :: b :: c :: d :: cs => do
    let n ← Text.hexNumber? [a, b, c, d]
    if 0xD800 ≤ n && n < 0xDC00 then
      match cs with
      | '\\' :: 'u' :: e :: f :: g :: h :: cs => do
        let m ← Text.hexNumber? [e, f, g, h]
        if 0xDC00 ≤ m && m < 0xE000 then
          let (text, rest) ← text? cs
          return (Char.ofNat (0x10000 + (n - 0xD800) * 0x400 + (m - 0xDC00)) :: text, rest)
        else none
      | _ => none
    else if 0xDC00 ≤ n && n < 0xE000 then none
    else
      let (text, rest) ← text? cs
      return (Char.ofNat n :: text, rest)
  | '\\' :: c :: cs => do
    let c ← shortEscape? c
    let (text, rest) ← text? cs
    return (c :: text, rest)
  | c :: cs => do
    if c.toNat < 0x20 then none
    else
      let (text, rest) ← text? cs
      return (c :: text, rest)

/-! ## Numbers -/

/-- Reads the digits at the front, of which there must be one at least. -/
def digits? (cs : List Char) : Option (List Char × List Char) :=
  match cs.span Char.isDigit with
  | ([], _) => none
  | (ds, rest) => some (ds, rest)

/-- Reads the digits before the point. A leading zero stands alone. -/
def integral? : List Char → Option (List Char × List Char)
  | '0' :: cs => some (['0'], cs)
  | cs => digits? cs

/-- Reads a point and the digits after it, if a point comes next. -/
def fraction? : List Char → Option (Option (List Char) × List Char)
  | '.' :: cs => (digits? cs).map fun (ds, rest) => (some ds, rest)
  | cs => some (none, cs)

/-- Reads an exponent, if one comes next. -/
def exponent? : List Char → Option (Option Int × List Char)
  | c :: cs =>
    if c = 'e' ∨ c = 'E' then
      let (negative, cs) := match cs with
        | '-' :: cs => (true, cs)
        | '+' :: cs => (false, cs)
        | cs => (false, cs)
      (digits? cs).map fun (ds, rest) =>
        let n : Int := Literal.digitsValue ds
        (some (if negative then -n else n), rest)
    else some (none, c :: cs)
  | [] => some (none, [])

/-- Reads a number literal. -/
def number? (cs : List Char) : Option (Number × List Char) := do
  let (negative, cs) := match cs with
    | '-' :: cs => (true, cs)
    | cs => (false, cs)
  let (integral, cs) ← integral? cs
  let (fraction, cs) ← fraction? cs
  let (exponent, cs) ← exponent? cs
  let n ← Literal.toNumber? ⟨negative, integral, fraction, exponent⟩
  return (n, cs)

/-! ## Tokens -/

/-- Reads the token at the front. -/
def next? : List Char → Option (Token × List Char)
  | '[' :: cs => some (openArray, cs)
  | ']' :: cs => some (closeArray, cs)
  | '\x7b' :: cs => some (openObject, cs)
  | '\x7d' :: cs => some (closeObject, cs)
  | ':' :: cs => some (colon, cs)
  | ',' :: cs => some (comma, cs)
  | '"' :: cs => (text? cs).map fun (s, rest) => (scalar (.string (String.ofList s)), rest)
  | 'n' :: 'u' :: 'l' :: 'l' :: cs => some (scalar .null, cs)
  | 't' :: 'r' :: 'u' :: 'e' :: cs => some (scalar (.bool true), cs)
  | 'f' :: 'a' :: 'l' :: 's' :: 'e' :: cs => some (scalar (.bool false), cs)
  | cs => (number? cs).map fun (n, rest) => (scalar (.number n), rest)

/-- Whether the character may stand between tokens. -/
def isSpacing (c : Char) : Bool := c == ' ' || c == '\t' || c == '\n' || c == '\r'

/-- The tokens of a text, at most `fuel` of them. -/
def all? : (fuel : Nat) → List Char → Option (List Token)
  | 0, cs => if (cs.dropWhile isSpacing).isEmpty then some [] else none
  | fuel + 1, cs =>
    match cs.dropWhile isSpacing with
    | [] => some []
    | cs => do
      let (token, rest) ← next? cs
      let tokens ← all? fuel rest
      return token :: tokens

/-- The tokens of a text; every token takes a character at least. -/
def ofText? (cs : List Char) : Option (List Token) := all? cs.length cs

end Token

end SchemaVault.Json
