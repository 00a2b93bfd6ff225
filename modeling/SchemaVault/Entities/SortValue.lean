import SchemaVault.Entities.Paging
import SchemaVault.Json5.Reader
import SchemaVault.Space.Basic
import SchemaVault.Space.StorageError

/-!
# Order of entities

A listing is ordered by the value of one key. Missing values come first, then numbers by their
exact value, then texts by the numbers of their characters. Truth values count as the numbers 1 and
0, and arrays and objects as their texts. Entities with equal values are ordered by their
identifiers.

The value of a property is taken from the stored text of the payload, which is read as a relaxed
document: what is ordered is the text as it stands, and not what its numbers are rounded to when an
entity is read.
-/

namespace SchemaVault

/-- A value to sort by. -/
inductive SortValue
  /-- There is no value, or it is null. -/
  | missing
  /-- A number, counted in the smallest units of a double. -/
  | number (units : Int)
  /-- A text by the numbers of its characters. -/
  | text (codes : List Nat)
  deriving DecidableEq

namespace SortValue

/-- The value of an integer. -/
def ofInt (i : Int) : SortValue := number (i * (Double.unitsPerOne : Nat))

/-- The value of a text. -/
def ofChars (cs : List Char) : SortValue := text (cs.map Char.toNat)

/-- The value of a document; nothing for a numeral without a value. -/
def ofDocument? : Json5.Document → Option SortValue
  | .null => some missing
  | .bool b => some (ofInt (if b then 1 else 0))
  | .number n => n.units?.map number
  | .text w => some (text w.codes)
  | v => some (ofChars v.chars)

/-- The value of a property of a document, which is missing if the document has no such member. -/
def ofProperty? (name : String) (payload : Json5.Document) : Option SortValue :=
  match payload.member? name with
  | some v => ofDocument? v
  | none => some missing

/-- Missing values before numbers before texts. -/
def compare : SortValue → SortValue → Ordering
  | missing, missing => .eq
  | missing, _ => .lt
  | _, missing => .gt
  | number a, number b => Ord.compare a b
  | number _, text _ => .lt
  | text _, number _ => .gt
  | text a, text b => Ord.compare a b

end SortValue

/-- The value of an entity for a key. A property has one if the stored text is a relaxed document. -/
def SortKey.valueOf (key : SortKey) (e : EntityRow) : Except StorageError SortValue :=
  match key with
  | createdAt => .ok (.ofInt e.createdAt.toInt)
  | updatedAt => .ok (.ofInt e.updatedAt.toInt)
  | entityId => .ok (.ofChars e.id.text.toList)
  | property name =>
    match (Json5.read? e.payload).bind (SortValue.ofProperty? name) with
    | some value => .ok value
    | none => .error .malformedDocument

/-- The order of two entities with their values: by value, then by identifier. -/
def SortOrder.compare (o : SortOrder) (a b : SortValue × EntityRow) : Ordering :=
  let ascending := (a.1.compare b.1).then (Ord.compare a.2.id.id.value b.2.id.id.value)
  match o with
  | .ascending => ascending
  | .descending => ascending.swap

/-- The entities in the order of a key. -/
def SortKey.sorted (key : SortKey) (o : SortOrder) (rows : List EntityRow) :
    Except StorageError (List EntityRow) := do
  let keyed ← rows.mapM fun e => do return (← key.valueOf e, e)
  return (keyed.mergeSort fun a b => (o.compare a b).isLE).map (·.2)

end SchemaVault
