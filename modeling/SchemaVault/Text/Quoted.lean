import SchemaVault.Text.Unprintable

/-!
# Quoted texts

A text as it is quoted inside a message: between double quotes, with a backslash before `"` and
`\`, the short forms `\n`, `\r`, `\t` and `\0`, and any other unprintable character by its number,
as in `\u{200b}`.
-/

namespace SchemaVault.Text

/-- The lower-case hexadecimal digits of `n`, without leading zeros. -/
def hexDigits (n : Nat) : List Char := Nat.toDigits 16 n

/-- How one character stands in a quoted text. -/
def quotedChar (c : Char) : List Char :=
  match c with
  | '"' => ['\\', '"']
  | '\\' => ['\\', '\\']
  | '\n' => ['\\', 'n']
  | '\r' => ['\\', 'r']
  | '\t' => ['\\', 't']
  | c =>
    if c.toNat = 0 then ['\\', '0']
    else if c.toNat < 0x7F && 0x20 ≤ c.toNat then [c]
    else if isUnprintable c then ['\\', 'u', '\x7b'] ++ hexDigits c.toNat ++ ['\x7d']
    else [c]

/-- The text in double quotes, safe to show inside a message. -/
def quoted (s : String) : String :=
  String.ofList ('"' :: s.toList.flatMap quotedChar ++ ['"'])

end SchemaVault.Text
