import SchemaVault.Number.Literal

/-!
# Fixed layouts

Reading texts whose layout is fixed: a given character, or a number of so many digits. Each
reader returns what follows.
-/

namespace SchemaVault.Text

/-- A number of exactly `count` digits. -/
def fixedNumber? : (count : Nat) → List Char → Option (Nat × List Char)
  | count, cs =>
    let ds := cs.take count
    if ds.length = count ∧ ds.all Char.isDigit then
      some (Literal.digitsValue ds, cs.drop count)
    else none

/-- The given character. -/
def mark? (c : Char) : List Char → Option (List Char)
  | d :: cs => if c = d then some cs else none
  | [] => none

end SchemaVault.Text
