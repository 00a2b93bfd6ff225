import SchemaVault.Json.Reader
import SchemaVault.Space.Basic
import SchemaVault.Space.StorageError

/-!
# Looking up schema versions

The queries on the stored schema versions, for use inside a unit of work. Each reads the
definitions of the versions that it returns, and fails if one of the stored texts is not a
document. Versions of one schema are listed in the order of their numbers, and versions of several
by table, then number, then schema.
-/

namespace SchemaVault

/-- A schema version as it is read from a space. -/
abbrev SchemaRecord := SchemaVersion Json

/-- Reads the definition of a row. -/
def VersionRow.read (row : VersionRow) : Except StorageError SchemaRecord :=
  match Json.read? row.definition with
  | some definition => .ok (row.withDefinition definition)
  | none => .error .unconvertible

namespace SchemaVersion

variable {Document : Type}

/-- Whether `a` comes before `b`, or beside it, among the versions of one schema. -/
def byVersion (a b : SchemaVersion Document) : Bool := (a.version.compare b.version).isLE

/-- Whether `a` comes before `b`, or beside it, among the versions of all schemas. -/
def byTable (a b : SchemaVersion Document) : Bool :=
  ((Ord.compare a.tableName b.tableName).then
    ((a.version.compare b.version).then
      (Ord.compare a.schemaId.id.value b.schemaId.id.value))).isLE

/-- Whether `a` was created before `b`, or at the same time with a version that is not greater. -/
def byAge (a b : SchemaVersion Document) : Bool :=
  a.createdAt < b.createdAt || (a.createdAt == b.createdAt && a.byVersion b)

/-- The version to whose table and slug a schema is pinned: the earliest, and of several the one
with the least number. -/
def first? : List (SchemaVersion Document) → Option (SchemaVersion Document)
  | [] => none
  | v :: vs => some (vs.foldl (fun a b => if a.byAge b then a else b) v)

/-- The version that was created last, and of several the one that was stored last. -/
def latest? : List (SchemaVersion Document) → Option (SchemaVersion Document)
  | [] => none
  | v :: vs => some (vs.foldl (fun a b => if a.createdAt ≤ b.createdAt then b else a) v)

end SchemaVersion

namespace Space

/-- The first version that satisfies a condition. -/
def findVersion? (s : Space) (p : VersionRow → Bool) :
    Except StorageError (Option SchemaRecord) :=
  (s.versions.find? p).mapM VersionRow.read

/-- The live version that governs a table. -/
def activeForTable? (s : Space) (table : String) : Except StorageError (Option SchemaRecord) :=
  s.findVersion? fun v => v.tableName == table && v.isLive

/-- The live version of a schema. -/
def activeForSchema? (s : Space) (id : SchemaId) : Except StorageError (Option SchemaRecord) :=
  s.findVersion? fun v => v.schemaId == id && v.isLive

/-- A version, deleted or not. -/
def version? (s : Space) (id : SchemaId) (version : Version) :
    Except StorageError (Option SchemaRecord) :=
  s.findVersion? fun v => v.isVersion id version

/-- All versions of a schema, deleted ones too. -/
def versionsOf (s : Space) (id : SchemaId) : Except StorageError (List SchemaRecord) := do
  let records ← (s.versions.filter (·.schemaId == id)).mapM VersionRow.read
  return records.mergeSort SchemaVersion.byVersion

/-- The live versions of all schemas, or all versions. -/
def allVersions (s : Space) (includeInactive : Bool) : Except StorageError (List SchemaRecord) := do
  let records ← (s.versions.filter fun v => includeInactive || v.isLive).mapM VersionRow.read
  return records.mergeSort SchemaVersion.byTable

/-- The schema of the version that was created last among those with a slug, deleted ones too. -/
def latestSchemaWithSlug? (s : Space) (slug : String) : Option SchemaId :=
  (SchemaVersion.latest? (s.versions.filter (·.slug == slug))).map (·.schemaId)

end Space

end SchemaVault
