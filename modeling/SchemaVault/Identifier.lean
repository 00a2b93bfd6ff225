import SchemaVault.Text.Hexadecimal
import SchemaVault.Text.Split

/-!
# Identifiers

Identifiers of 128 bits. They are written as 32 hexadecimal digits in lower case, in groups of 8,
4, 4, 4 and 12 with hyphens between them, and read in either case in that form, bare, within
braces or after `urn:uuid:`, and without any hyphens.

Schemas and entities have identifiers of their own, and categories are named by a text that is
kept as it is.
-/

namespace SchemaVault

/-- A number of 128 bits. -/
structure Identifier where
  value : Nat
  lt : value < 0x100000000000000000000000000000000
  deriving DecidableEq

namespace Identifier

instance : Inhabited Identifier := ⟨0, by decide⟩

/-! ## Writing -/

/-- The last `count` hexadecimal digits of `n`. -/
def hexDigits : (count : Nat) → (n : Nat) → List Char
  | 0, _ => []
  | count + 1, n => hexDigits count (n / 16) ++ [Nat.digitChar (n % 16)]

/-- The digits in their groups. -/
def chars (id : Identifier) : List Char :=
  let ds := hexDigits 32 id.value
  ds.take 8 ++ '-' :: (ds.drop 8).take 4 ++ '-' :: (ds.drop 12).take 4 ++
    '-' :: (ds.drop 16).take 4 ++ '-' :: ds.drop 20

/-- The text of an identifier. -/
def text (id : Identifier) : String := String.ofList id.chars

/-! ## Reading -/

/-- The identifier of 32 digits. -/
def ofDigits? (digits : List Char) : Option Identifier :=
  if digits.length = 32 then
    (Text.hexNumber? digits).bind fun n =>
      if h : n < 0x100000000000000000000000000000000 then some ⟨n, h⟩ else none
  else none

/-- The identifier of a text of five groups of digits. -/
def ofGroups? (cs : List Char) : Option Identifier :=
  match Text.pieces '-' cs with
  | [a, b, c, d, e] =>
    if a.length = 8 ∧ b.length = 4 ∧ c.length = 4 ∧ d.length = 4 ∧ e.length = 12 then
      ofDigits? (a ++ b ++ c ++ d ++ e)
    else none
  | _ => none

/-- The text that may stand before the groups. -/
def urnLead : List Char := "urn:uuid:".toList

/-- The identifier that a text writes. -/
def read? (s : String) : Option Identifier :=
  let cs := s.toList
  match cs with
  | '\x7b' :: inner =>
    if inner.getLast? = some '\x7d' then ofGroups? inner.dropLast else none
  | _ =>
    if (cs.take urnLead.length).map Char.toLower = urnLead then
      ofGroups? (cs.drop urnLead.length)
    else (ofDigits? cs).or (ofGroups? cs)

end Identifier

/-- Identifies a schema through all its versions. -/
structure SchemaId where
  id : Identifier
  deriving DecidableEq, Inhabited

/-- Identifies an entity, whatever its table. -/
structure EntityId where
  id : Identifier
  deriving DecidableEq, Inhabited

/-- The text of a schema's identifier. -/
def SchemaId.text (s : SchemaId) : String := s.id.text

/-- The schema that a text identifies. -/
def SchemaId.read? (s : String) : Option SchemaId := (Identifier.read? s).map SchemaId.mk

/-- The text of an entity's identifier. -/
def EntityId.text (e : EntityId) : String := e.id.text

/-- The entity that a text identifies. -/
def EntityId.read? (s : String) : Option EntityId := (Identifier.read? s).map EntityId.mk

end SchemaVault
