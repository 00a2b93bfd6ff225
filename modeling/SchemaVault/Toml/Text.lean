import SchemaVault.Text.Hexadecimal

/-!
# Texts of TOML documents

The four ways to write a text: basic or literal, on one line or on several. Basic texts have
escapes, literal ones have none. In a text on several lines a line break right after the opening
quotes is dropped, every line break is read as a line feed, and one or two quotes may stand before
the closing ones; in a basic one a backslash before a line break drops all white space up to the
next character. Each reader starts after the opening quotes and returns what follows the closing
ones.
-/

namespace SchemaVault.Toml

/-- Whether a character is a blank within a line. -/
def isLineBlank (c : Char) : Bool := c == ' ' || c == '\t'

/-- Whether a character may stand in a text or comment as it is: a tab or any character but the
control characters of ASCII. -/
def isPlain (c : Char) : Bool := c == '\t' || (0x20 ≤ c.toNat && c.toNat != 0x7F)

/-- The character with a given number in hexadecimal; surrogates are no characters. -/
def codePoint? (digits : List Char) : Option Char := do
  let n ← Text.hexNumber? digits
  if n.isValidChar then some (Char.ofNat n) else none

/-- What a one-letter escape stands for. -/
def shortEscape? : Char → Option Char
  | 'b' => some '\x08'
  | 't' => some '\t'
  | 'n' => some '\n'
  | 'f' => some '\x0c'
  | 'r' => some '\r'
  | '"' => some '"'
  | '\\' => some '\\'
  | _ => none

/-- A character before the rest of a text. -/
def before (c : Char) (rest : Option (List Char × List Char)) : Option (List Char × List Char) :=
  rest.map fun (text, after) => (c :: text, after)

/-- A basic text on one line. -/
def basicText? : List Char → Option (List Char × List Char)
  | [] => none
  | '"' :: cs => some ([], cs)
  | '\\' :: 'u' :: a :: b :: c :: d :: cs => do
    let x ← codePoint? [a, b, c, d]
    before x (basicText? cs)
  | '\\' :: 'U' :: a :: b :: c :: d :: e :: f :: g :: h :: cs => do
    let x ← codePoint? [a, b, c, d, e, f, g, h]
    before x (basicText? cs)
  | '\\' :: e :: cs => do
    let x ← shortEscape? e
    before x (basicText? cs)
  | c :: cs => if isPlain c && c != '\\' then before c (basicText? cs) else none

/-- A literal text on one line. -/
def literalText? : List Char → Option (List Char × List Char)
  | [] => none
  | '\'' :: cs => some ([], cs)
  | c :: cs => if isPlain c then before c (literalText? cs) else none

/-- Where a reader stands with respect to a backslash before a line break. -/
inductive Fold
  /-- In the text. -/
  | off
  /-- After the backslash, before the line break. -/
  | awaiting
  /-- After the line break, before the next character. -/
  | dropping
  deriving DecidableEq

/-- A basic text on several lines. -/
def basicLines? : Fold → List Char → Option (List Char × List Char)
  | _, [] => none
  | .awaiting, '\r' :: '\n' :: cs => basicLines? .dropping cs
  | .awaiting, c :: cs =>
    if c = '\n' then basicLines? .dropping cs
    else if isLineBlank c then basicLines? .awaiting cs
    else none
  | _, '"' :: '"' :: '"' :: '"' :: '"' :: cs => some (['"', '"'], cs)
  | _, '"' :: '"' :: '"' :: '"' :: cs => some (['"'], cs)
  | _, '"' :: '"' :: '"' :: cs => some ([], cs)
  | .dropping, '\r' :: '\n' :: cs => basicLines? .dropping cs
  | .off, '\r' :: '\n' :: cs => before '\n' (basicLines? .off cs)
  | _, '\\' :: 'u' :: a :: b :: c :: d :: cs => do
    let x ← codePoint? [a, b, c, d]
    before x (basicLines? .off cs)
  | _, '\\' :: 'U' :: a :: b :: c :: d :: e :: f :: g :: h :: cs => do
    let x ← codePoint? [a, b, c, d, e, f, g, h]
    before x (basicLines? .off cs)
  | _, '\\' :: '\r' :: '\n' :: cs => basicLines? .dropping cs
  | _, '\\' :: e :: cs =>
    if e = '\n' then basicLines? .dropping cs
    else if isLineBlank e then basicLines? .awaiting cs
    else do
      let x ← shortEscape? e
      before x (basicLines? .off cs)
  | fold, c :: cs =>
    if fold = .dropping ∧ (c = '\n' ∨ isLineBlank c) then basicLines? .dropping cs
    else if (isPlain c || c == '\n') && c != '\\' then before c (basicLines? .off cs)
    else none

/-- A literal text on several lines. -/
def literalLines? : List Char → Option (List Char × List Char)
  | [] => none
  | '\'' :: '\'' :: '\'' :: '\'' :: '\'' :: cs => some (['\'', '\''], cs)
  | '\'' :: '\'' :: '\'' :: '\'' :: cs => some (['\''], cs)
  | '\'' :: '\'' :: '\'' :: cs => some ([], cs)
  | '\r' :: '\n' :: cs => before '\n' (literalLines? cs)
  | c :: cs => if isPlain c || c == '\n' then before c (literalLines? cs) else none

/-- Drops a line break. -/
def dropBreak : List Char → List Char
  | '\n' :: cs => cs
  | '\r' :: '\n' :: cs => cs
  | cs => cs

/-- A text in any of the four ways, with its opening quotes. -/
def text? : List Char → Option (String × List Char)
  | '"' :: '"' :: '"' :: cs => finish (basicLines? .off (dropBreak cs))
  | '"' :: cs => finish (basicText? cs)
  | '\'' :: '\'' :: '\'' :: cs => finish (literalLines? (dropBreak cs))
  | '\'' :: cs => finish (literalText? cs)
  | _ => none
where
  /-- The text of its characters. -/
  finish (read : Option (List Char × List Char)) : Option (String × List Char) :=
    read.map fun (text, after) => (String.ofList text, after)

end SchemaVault.Toml
