/-!
# Blank text

White space and control characters as Unicode defines them, and the trimming of texts that
comes with them. The 25 blank characters are those of the property `White_Space`; the zero-width
characters U+200B and U+FEFF and the separators U+001C to U+001F are not among them.
-/

namespace SchemaVault.Text

/-- Whether `c` has the Unicode property `White_Space`. -/
def isBlank (c : Char) : Bool :=
  let n := c.toNat
  (0x09 ≤ n && n ≤ 0x0D) || n == 0x20 || n == 0x85 || n == 0xA0 || n == 0x1680 ||
    (0x2000 ≤ n && n ≤ 0x200A) || n == 0x2028 || n == 0x2029 || n == 0x202F || n == 0x205F ||
    n == 0x3000

/-- Whether `c` is a control character, U+0000 to U+001F or U+007F to U+009F. -/
def isControl (c : Char) : Bool :=
  let n := c.toNat
  n < 0x20 || (0x7F ≤ n && n ≤ 0x9F)

/-- The characters without the blanks at either end. -/
def trimChars (cs : List Char) : List Char :=
  ((cs.dropWhile isBlank).reverse.dropWhile isBlank).reverse

/-- The text without the blanks at either end. -/
def trim (s : String) : String := String.ofList (trimChars s.toList)

/-- Whether the text is empty or holds blanks only. -/
def isAllBlank (s : String) : Bool := s.toList.all isBlank

end SchemaVault.Text
