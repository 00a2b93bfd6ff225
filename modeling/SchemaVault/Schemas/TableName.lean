/-!
# Table names

Entities are kept in tables. The name of a table is a small letter followed by small letters,
digits and underscores, all from ASCII, and has at most 63 characters.
-/

namespace SchemaVault.TableName

/-- The length of the longest table name. -/
def maxLength : Nat := 63

/-- Whether a character may stand in a table name. -/
def isNameChar (c : Char) : Bool := c.isLower || c.isDigit || c == '_'

/-- Whether characters make up a table name. -/
def isValidChars : List Char → Bool
  | [] => false
  | c :: cs => c.isLower && cs.all isNameChar && cs.length < maxLength

/-- Whether a text is a table name. -/
def isValid (s : String) : Bool := isValidChars s.toList

end SchemaVault.TableName
