import SchemaVault.Entities.SortValue
import SchemaVault.Schemas.Operations

/-!
# Looking up entities

The queries on the stored entities, for use inside a unit of work. Only the entities that a query
returns have their payloads read, and a stored text that is not a document fails the query; an
order by a property reads the payloads of all entities to be ordered.
-/

namespace SchemaVault

/-- An entity as it is read from a space. -/
abbrev EntityRecord := Entity Json

/-- A page of a listing. -/
structure EntityPage where
  records : List EntityRecord
  /-- The number of matching entities on all pages. -/
  total : UInt64
  page : UInt32
  pageSize : UInt32
  deriving DecidableEq

/-- Reads the payload of a row. -/
def EntityRow.read (row : EntityRow) : Except StorageError EntityRecord :=
  match Json.read? row.payload with
  | some payload => .ok (row.withPayload payload)
  | none => .error .unconvertible

namespace Space

/-- There is no live version for the table. -/
def noActiveSchema (table : String) : Failure := .notFound ("active schema for table " ++ table)

/-- There is no such entity in the table. -/
def noEntity (table : String) (id : EntityId) : Failure :=
  .notFound ("entity " ++ id.text ++ " in table " ++ table)

/-- The live version that governs a table, which has to exist. -/
def governingSchema (s : Space) (table : String) : Except StorageError SchemaRecord := do
  match ← s.activeForTable? table with
  | some r => return r
  | none => throw (.failed (noActiveSchema table))

/-- An entity of a table, deleted or not. -/
def entity? (s : Space) (table : String) (id : EntityId) :
    Except StorageError (Option EntityRecord) :=
  (s.entities.find? fun e => e.id == id && e.tableName == table).mapM EntityRow.read

/-- The entities of a table that a listing is about. -/
def matchingEntities (s : Space) (table : String) (includeDeleted : Bool) : List EntityRow :=
  s.entities.filter fun e => e.tableName == table && (includeDeleted || !e.deleted)

/-- The page of a listing. -/
def pageOf (s : Space) (table : String) (l : Listing) : Except StorageError EntityPage := do
  let rows := s.matchingEntities table l.includeDeleted
  let offset ← l.offset.mapError .failed
  let sorted ← l.key.sorted l.order rows
  let records ← ((sorted.drop offset.toInt.toNat).take l.pageSize.toNat).mapM EntityRow.read
  return ⟨records, UInt64.ofNat rows.length, l.page, l.pageSize⟩

end Space

end SchemaVault
