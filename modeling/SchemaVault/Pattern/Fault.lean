/-!
# What can be wrong with a pattern

One constructor for each way in which a text fails to be a pattern, and its wording.
-/

namespace SchemaVault.Pattern

/-- Why a text is no pattern. -/
inductive Fault
  | tooDeep
  | tooManyGroups
  | duplicateGroupName
  | groupUnclosed
  | groupEndsAfterQuestionMark
  | groupUnopened
  | lookAround
  | noFlags
  | groupNameMissing
  | groupNameInvalid
  | groupNameUnclosed
  | groupNameEmpty
  | flagUnknown
  | flagsNegatedTwice
  | flagRepeated
  | flagsUnclosed
  | flagsEndNegated
  | decimalMissing
  | decimalTooLarge
  | bracedHexBadDigit
  | bracedHexUnclosed
  | bracedHexEmpty
  | bracedHexInvalid
  | fixedHexTooShort
  | fixedHexBadDigit
  | fixedHexInvalid
  | hexMissing
  | escapeUnfinished
  | backreference
  | unicodeClass
  | escapeUnknown
  | nothingToRepeat
  | nothingToCount
  | countUnclosed
  | countEndsAfterLeast
  | countEndsAfterComma
  | countEndsAfterMost
  | countMalformed
  | countReversed
  | classEndsAfterItem
  | rangeEndNoCharacter
  | classItemInvalid
  | classEndsAfterDash
  | classEndsAfterNegation
  | classEndsAfterBracket
  | rangeReversed
  | classUnclosed
  | classNested
  | classIntersection
  | classDifference
  | classSymmetricDifference
  | boundaryUnclosed
  | boundaryUnknown
  | boundaryOrCountUnfinished
  | tooLarge
  deriving DecidableEq

/-- The wording of a fault. -/
def Fault.message : Fault → String
  | tooDeep => "pattern has too much nesting"
  | tooManyGroups => "too many capture groups"
  | duplicateGroupName => "duplicate capture group name"
  | groupUnclosed => "found open group without closing ')'"
  | groupEndsAfterQuestionMark => "expected closing ')', but got end of pattern"
  | groupUnopened => "found closing ')' without matching '('"
  | lookAround => "look-around is not supported"
  | noFlags => "empty flag directive '(?)' is not allowed"
  | groupNameMissing => "expected capture group name, but got end of pattern"
  | groupNameInvalid => "invalid group name"
  | groupNameUnclosed => "expected end of capture group name, but got end of pattern"
  | groupNameEmpty => "empty capture group names are not allowed"
  | flagUnknown => "unrecognized inline flag"
  | flagsNegatedTwice => "inline flag negation cannot be repeated"
  | flagRepeated => "duplicate inline flag is not allowed"
  | flagsUnclosed => "expected ':' or ')' to end inline flags, but got end of pattern"
  | flagsEndNegated => "inline flags cannot end with negation directive"
  | decimalMissing => "expected decimal number, but found no digits"
  | decimalTooLarge => "got invalid decimal number"
  | bracedHexBadDigit => "expected hexadecimal number in braces, but got non-hex digit"
  | bracedHexUnclosed =>
    "expected hexadecimal number, but saw end of pattern before closing brace"
  | bracedHexEmpty => "expected hexadecimal number in braces, but got no digits"
  | bracedHexInvalid => "got invalid hexadecimal number in braces"
  | fixedHexTooShort => "expected fixed length hexadecimal number, but saw end of pattern first"
  | fixedHexBadDigit => "expected fixed length hexadecimal number, but got non-hex digit"
  | fixedHexInvalid => "got invalid fixed length hexadecimal number"
  | hexMissing => "expected hexadecimal number, but saw end of pattern first"
  | escapeUnfinished =>
    "saw start of escape sequence, but saw end of pattern before it finished"
  | backreference => "backreferences are not supported"
  | unicodeClass => "Unicode character classes are not supported"
  | escapeUnknown => "unrecognized escape sequence"
  | nothingToRepeat => "uncounted repetition operator must be applied to a sub-expression"
  | nothingToCount => "counted repetition operator must be applied to a sub-expression"
  | countUnclosed => "found unclosed counted repetition operator"
  | countEndsAfterLeast => "found incomplete and unclosed counted repetition operator"
  | countEndsAfterComma => "found counted repetition operator with a comma that is unclosed"
  | countEndsAfterMost => "found counted repetition with min and max that is unclosed"
  | countMalformed => "expected closing brace for counted repetition, but got something else"
  | countReversed => "found counted repetition with a min bigger than its max"
  | classEndsAfterItem => "non-empty character class has no closing bracket"
  | rangeEndNoCharacter => "character class ranges must start and end with a single character"
  | classItemInvalid => "invalid escape sequence in character class"
  | classEndsAfterDash => "non-empty character class has no closing bracket after dash"
  | classEndsAfterNegation => "negated character class has no closing bracket"
  | classEndsAfterBracket =>
    "character class begins with literal ']' but has no closing bracket"
  | rangeReversed => "invalid range in character class"
  | classUnclosed => "found unclosed character class"
  | classNested => "nested character classes are not supported"
  | classIntersection => "character class intersection is not supported"
  | classDifference => "character class difference is not supported"
  | classSymmetricDifference => "character class symmetric difference is not supported"
  | boundaryUnclosed =>
    "special word boundary assertion is unclosed or has an invalid character"
  | boundaryUnknown => "special word boundary assertion is unrecognized"
  | boundaryOrCountUnfinished =>
    "found start of special word boundary or repetition without an end"
  | tooLarge => "compiled regex exceeded size limit"

end SchemaVault.Pattern
