import SchemaVault.Json5.Numeral

/-!
# Written texts

The texts of a relaxed document, kept as they are written: in double or single quotes, with more
escapes than elsewhere, and on several lines if a backslash stands before each line end. Names
without quotes are written texts too. `Written.codes` is what a text says, and `Written.chars` how
it stands in a document with double quotes and ordinary escapes only.
-/

namespace SchemaVault.Json5

/-- A piece of a written text. -/
inductive Piece
  /-- A character that stands for itself. -/
  | plain (c : Char)
  /-- A backslash and one of the letters that `Piece.isEscape` lists. -/
  | escape (c : Char)
  /-- A character by its number, in two or four hexadecimal digits. -/
  | numbered (digits : List Char)
  /-- A backslash before a line end. -/
  | lineBreak
  deriving DecidableEq

namespace Piece

/-- The characters that may follow a backslash to name a single character. -/
def isEscape (c : Char) : Bool :=
  c == '"' || c == '\\' || c == '/' || c == 'b' || c == 'f' || c == 'n' || c == 'r' || c == 't' ||
    c == '\'' || c == '0' || c == 'v'

/-- The character number that an escape stands for. -/
def escapeCode : Char → Nat
  | 'b' => 0x08
  | 't' => 0x09
  | 'n' => 0x0A
  | 'v' => 0x0B
  | 'f' => 0x0C
  | 'r' => 0x0D
  | '0' => 0
  | c => c.toNat

/-- How a piece stands between double quotes with ordinary escapes. The vertical tab shares the
number of the tab. -/
def chars : Piece → List Char
  | plain '"' => ['\\', '"']
  | plain c => [c]
  | escape '\'' => ['\'']
  | escape 'v' => ['\\', 'u', '0', '0', '0', '9']
  | escape '0' => ['\\', 'u', '0', '0', '0', '0']
  | escape c => ['\\', c]
  | numbered digits => '\\' :: 'u' :: (List.replicate (4 - digits.length) '0' ++ digits)
  | lineBreak => []

end Piece

/-- A written text without its quotes. -/
abbrev Written := List Piece

namespace Written

/-- Whether the number is that of the first surrogate of a pair. -/
def isHighSurrogate (n : Nat) : Bool := 0xD800 ≤ n && n < 0xDC00

/-- Whether the number is that of the second surrogate of a pair. -/
def isLowSurrogate (n : Nat) : Bool := 0xDC00 ≤ n && n < 0xE000

/-- The numbers of the characters that a text says. Two surrogates next to each other are one
character, and a single one counts by its own number. Line breaks say nothing, except at the end,
where they say the character 0. -/
def codes : Written → List Nat
  | [] => []
  | .plain c :: rest => c.toNat :: codes rest
  | .escape c :: rest => Piece.escapeCode c :: codes rest
  | .numbered high :: .numbered low :: rest =>
    let h := Text.hexNumber high
    let l := Text.hexNumber low
    if isHighSurrogate h && isLowSurrogate l then
      (0x10000 + (h - 0xD800) * 0x400 + (l - 0xDC00)) :: codes rest
    else h :: codes (.numbered low :: rest)
  | .numbered digits :: rest => Text.hexNumber digits :: codes rest
  | .lineBreak :: rest => if rest.all (· == .lineBreak) then [0] else codes rest

/-- The text in double quotes. -/
def chars (w : Written) : List Char := '"' :: (w.flatMap Piece.chars ++ ['"'])

/-- Whether the text is the given name. A character 0 in the text ends it. -/
def isName (w : Written) (name : String) : Bool :=
  w.codes.takeWhile (· != 0) == name.toList.map Char.toNat

/-! ## Reading -/

/-- Whether the character ends a line. -/
def isLineEnd (c : Char) : Bool := c == '\n' || c == '\r' || c == '\u2028' || c == '\u2029'

/-- Reads a text up to the quote that closes it and returns what follows. Control characters below
U+0020 may not stand in it. -/
def read? (quote : Char) : List Char → Option (Written × List Char)
  | [] => none
  | c :: cs =>
    if c = '\\' then
      match cs with
      | '\r' :: '\n' :: cs => (read? quote cs).map fun (w, rest) => (.lineBreak :: w, rest)
      | 'u' :: a :: b :: c :: d :: cs =>
        if [a, b, c, d].all Text.isHexDigit then
          (read? quote cs).map fun (w, rest) => (.numbered [a, b, c, d] :: w, rest)
        else none
      | 'x' :: a :: b :: cs =>
        if [a, b].all Text.isHexDigit then
          (read? quote cs).map fun (w, rest) => (.numbered [a, b] :: w, rest)
        else none
      | c :: cs =>
        if Piece.isEscape c then (read? quote cs).map fun (w, rest) => (.escape c :: w, rest)
        else if isLineEnd c then (read? quote cs).map fun (w, rest) => (.lineBreak :: w, rest)
        else none
      | [] => none
    else if c = quote then some ([], cs)
    else if c.toNat < 0x20 then none
    else (read? quote cs).map fun (w, rest) => (.plain c :: w, rest)

end Written

end SchemaVault.Json5
