import SchemaVault.Json.Basic
import SchemaVault.Number.Shortest

/-!
# Writing documents

The compact text of a document: no white space, members in their order, and in texts only the
quote, the backslash and the characters below U+0020 written as escapes. Everything else, the
slash and all characters beyond ASCII included, stands as it is.
-/

namespace SchemaVault.Json

/-- A hexadecimal digit, in lower case. -/
def hexDigit (n : Nat) : Char := Nat.digitChar n

/-- How one character stands inside a written text. -/
def escaped (c : Char) : List Char :=
  match c with
  | '"' => ['\\', '"']
  | '\\' => ['\\', '\\']
  | '\x08' => ['\\', 'b']
  | '\x0c' => ['\\', 'f']
  | '\n' => ['\\', 'n']
  | '\r' => ['\\', 'r']
  | '\t' => ['\\', 't']
  | c =>
    if c.toNat < 0x20 then ['\\', 'u', '0', '0', hexDigit (c.toNat / 16), hexDigit (c.toNat % 16)]
    else [c]

/-- A text with its quotes and escapes. -/
def textChars (s : String) : List Char := '"' :: (s.toList.flatMap escaped ++ ['"'])

mutual

/-- The characters of a written document. -/
def chars : Json → List Char
  | .null => "null".toList
  | .bool b => (if b then "true" else "false").toList
  | .number n => n.text.toList
  | .string s => textChars s
  | .array items => '[' :: (itemsChars items ++ [']'])
  | .object members => '\x7b' :: (membersChars members ++ ['\x7d'])

/-- The items of an array with commas between them. -/
def itemsChars : List Json → List Char
  | [] => []
  | [v] => chars v
  | v :: vs => chars v ++ ',' :: itemsChars vs

/-- The members of an object with commas between them. -/
def membersChars : List (String × Json) → List Char
  | [] => []
  | [(name, v)] => textChars name ++ ':' :: chars v
  | (name, v) :: ms => textChars name ++ ':' :: (chars v ++ ',' :: membersChars ms)

end

/-- The compact text of a document. -/
def print (v : Json) : String := String.ofList (chars v)

end SchemaVault.Json
