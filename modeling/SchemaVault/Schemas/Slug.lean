import SchemaVault.Text.Lowercase

/-!
# Slugs

The slug of a schema is a readable name that is the same for many spellings. A text is lowered in
case, and its runs of small letters `a` to `z` and digits are joined by single hyphens.
-/

namespace SchemaVault.Slug

/-- Whether a character stands in a slug as it is. -/
def isSlugChar (c : Char) : Bool := c.isLower || c.isDigit

/-- The runs of slug characters with a hyphen between them. `begun` tells whether a run stands
before these characters, and `gap` whether other characters have come after it. -/
def join (begun gap : Bool) : List Char → List Char
  | [] => []
  | c :: cs =>
    if isSlugChar c then
      if begun && gap then '-' :: c :: join true false cs else c :: join true false cs
    else join begun true cs

/-- The characters of a slug. -/
def chars (cs : List Char) : List Char := join false false (cs.flatMap Text.lowercase)

/-- The slug of a text, empty if nothing usable remains of it. -/
def normalize (s : String) : String := String.ofList (chars s.toList)

end SchemaVault.Slug
