import SchemaVault.Json5.Basic

/-!
# The tokens of a relaxed document

The first of two passes cuts the text into tokens: the six marks, numerals, texts in quotes, and
words, which are names without quotes or literal names. Between tokens may stand blanks, which here
include most of Unicode's, and comments, to the end of a line or between `/*` and `*/`.
-/

namespace SchemaVault.Json5

/-- A token of a relaxed document. -/
inductive Token
  | openArray
  | closeArray
  | openObject
  | closeObject
  | colon
  | comma
  | numeral (n : Numeral)
  | text (w : Written)
  | word (w : Written)
  deriving DecidableEq

namespace Token

/-! ## Between tokens -/

/-- Whether the character may stand between tokens. -/
def isSpacing (c : Char) : Bool :=
  let n := c.toNat
  (0x09 ≤ n && n ≤ 0x0D) || n == 0x20 || n == 0xA0 || n == 0x1680 ||
    (0x2000 ≤ n && n ≤ 0x200A) || n == 0x2028 || n == 0x2029 || n == 0x202F || n == 0x205F ||
    n == 0x3000 || n == 0xFEFF

/-- Where a character between two tokens stands. -/
inductive Between
  | outside
  /-- In a comment that ends with its line. -/
  | lineComment
  /-- In a comment that has an end of its own. -/
  | blockComment

/-- What follows the blanks and comments at the front; nothing if a comment is not closed. -/
def skip? : Between → List Char → Option (List Char)
  | .outside, '/' :: '*' :: cs => skip? .blockComment cs
  | .outside, '/' :: '/' :: cs => skip? .lineComment cs
  | .outside, c :: cs => if isSpacing c then skip? .outside cs else some (c :: cs)
  | .outside, [] => some []
  | .lineComment, c :: cs => skip? (if Written.isLineEnd c then .outside else .lineComment) cs
  | .lineComment, [] => some []
  | .blockComment, '*' :: '/' :: cs => skip? .outside cs
  | .blockComment, _ :: cs => skip? .blockComment cs
  | .blockComment, [] => none

/-! ## Words -/

/-- Whether the character may stand in a word. -/
def isWordChar (c : Char) : Bool :=
  c.isAlphanum || c == '_' || c == '$' || (0x80 ≤ c.toNat && !isSpacing c)

/-- Reads the word at the front, which may be empty, and returns what follows. -/
def takeWord : List Char → Written × List Char
  | '\\' :: 'u' :: a :: b :: c :: d :: cs =>
    if [a, b, c, d].all Text.isHexDigit then
      let (w, rest) := takeWord cs
      (.numbered [a, b, c, d] :: w, rest)
    else ([], '\\' :: 'u' :: a :: b :: c :: d :: cs)
  | c :: cs =>
    if isWordChar c then
      let (w, rest) := takeWord cs
      (.plain c :: w, rest)
    else ([], c :: cs)
  | [] => ([], [])

/-! ## Numerals -/

/-- Reads a hexadecimal numeral without its sign. -/
def hexadecimal? (negative : Bool) : List Char → Option (Numeral × List Char)
  | '0' :: x :: cs =>
    if x = 'x' ∨ x = 'X' then
      match cs.span Text.isHexDigit with
      | ([], _) => none
      | (ds, rest) => some (.hexadecimal negative ds, rest)
    else none
  | _ => none

/-- Reads `inf` or `infinity`, in any case. -/
def infinity? (negative : Bool) (cs : List Char) : Option (Numeral × List Char) :=
  let lowered (n : Nat) : String := String.ofList ((cs.take n).map Char.toLower)
  if lowered 8 = "infinity" then some (.infinity negative, cs.drop 8)
  else if lowered 3 = "inf" then some (.infinity negative, cs.drop 3)
  else none

/-- Reads the digits before the point, if there are any. A leading zero stands alone. -/
def integral : List Char → List Char × List Char
  | '0' :: cs => (['0'], cs)
  | cs => cs.span Char.isDigit

/-- Reads a point and the digits after it, if a point comes next; they may be missing. -/
def fraction : List Char → Option (List Char) × List Char
  | '.' :: cs => (some (cs.span Char.isDigit).1, (cs.span Char.isDigit).2)
  | cs => (none, cs)

/-- Reads an exponent with its letter and sign, if one comes next; it has to have a digit. -/
def exponent? : List Char → Option (List Char × List Char)
  | e :: cs =>
    if e = 'e' ∨ e = 'E' then
      let (sign, cs) := match cs with
        | '-' :: cs => (['-'], cs)
        | '+' :: cs => (['+'], cs)
        | cs => ([], cs)
      match cs.span Char.isDigit with
      | ([], _) => none
      | (ds, rest) => some (e :: sign ++ ds, rest)
    else some ([], e :: cs)
  | [] => some ([], [])

/-- Reads a decimal numeral without its sign. One side of its point has a digit. -/
def decimal? (negative : Bool) (cs : List Char) : Option (Numeral × List Char) :=
  let (whole, cs) := integral cs
  let (part, cs) := fraction cs
  if whole.isEmpty && (part.getD []).isEmpty then none
  else (exponent? cs).map fun (exponent, rest) => (.decimal negative whole part exponent, rest)

/-- Reads a numeral. Only with a sign does infinity count as one. -/
def numeral? : List Char → Option (Numeral × List Char)
  | '-' :: cs => (hexadecimal? true cs).or ((infinity? true cs).or (decimal? true cs))
  | '+' :: cs => (hexadecimal? false cs).or ((infinity? false cs).or (decimal? false cs))
  | cs => (hexadecimal? false cs).or (decimal? false cs)

/-! ## Tokens -/

/-- Reads the token at the front. -/
def next? : List Char → Option (Token × List Char)
  | '[' :: cs => some (openArray, cs)
  | ']' :: cs => some (closeArray, cs)
  | '\x7b' :: cs => some (openObject, cs)
  | '\x7d' :: cs => some (closeObject, cs)
  | ':' :: cs => some (colon, cs)
  | ',' :: cs => some (comma, cs)
  | '"' :: cs => (Written.read? '"' cs).map fun (w, rest) => (text w, rest)
  | '\'' :: cs => (Written.read? '\'' cs).map fun (w, rest) => (text w, rest)
  | c :: cs =>
    if c == '+' || c == '-' || c == '.' || c.isDigit then
      (numeral? (c :: cs)).map fun (n, rest) => (numeral n, rest)
    else
      match takeWord (c :: cs) with
      | ([], _) => none
      | (w, rest) => some (.word w, rest)
  | [] => none

/-- The tokens of a text, at most `fuel` of them. -/
def all? : (fuel : Nat) → List Char → Option (List Token)
  | 0, cs => do if (← skip? .outside cs).isEmpty then some [] else none
  | fuel + 1, cs => do
    match ← skip? .outside cs with
    | [] => return []
    | cs =>
      let (token, rest) ← next? cs
      let tokens ← all? fuel rest
      return token :: tokens

/-- The tokens of a text; every token takes a character at least. -/
def ofText? (cs : List Char) : Option (List Token) := all? cs.length cs

end Token

end SchemaVault.Json5
