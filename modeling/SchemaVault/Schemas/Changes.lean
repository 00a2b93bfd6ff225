import SchemaVault.Schemas.Draft
import SchemaVault.Schemas.Queries
import SchemaVault.Json.Printer
import SchemaVault.Space.Categories

/-!
# Changing schema versions

The units of work that create, activate and delete schema versions. At most one live version of a
schema, of a table and of a slug can be stored: a statement that would store a second one is
refused with the violated index. The first version of a schema fixes the table and the slug of all
later ones.
-/

namespace SchemaVault

namespace Space

/-! ## Unique indices -/

/-- The refusal of a row that violates a unique index on the given columns. -/
def uniqueViolation (columns : List String) : StorageError :=
  let names := columns.map ("entity_schemas." ++ ·)
  .refused StorageError.uniqueCode
    (some ("UNIQUE constraint failed: " ++ ", ".intercalate names))

/-- The refusal of a row whose schema and version are stored already. -/
def versionStored : StorageError :=
  .refused StorageError.primaryKeyCode
    (some "UNIQUE constraint failed: entity_schemas.schema_id, entity_schemas.version")

/-- Fails if a live row shares its slug, table or schema with another live row. -/
def checkLive (others : List VersionRow) (row : VersionRow) : Except StorageError Unit :=
  let live := others.filter SchemaVersion.isLive
  if !row.isLive then .ok ()
  else if live.any (·.slug == row.slug) then .error (uniqueViolation ["slug"])
  else if live.any (·.tableName == row.tableName) then .error (uniqueViolation ["table_name"])
  else if live.any (·.schemaId == row.schemaId) then .error (uniqueViolation ["schema_id"])
  else .ok ()

/-! ## Statements -/

/-- Whether the numbers of a version can be stored, as signed integers of 64 bits. -/
def canStore (v : Version) : Bool :=
  let fits (n : UInt64) : Bool := n ≤ Int64.maxValue.toUInt64
  fits v.major && fits v.minor && fits v.patch

/-- Stores a new row. -/
def insertVersion (s : Space) (row : VersionRow) : Except StorageError Space := do
  if !canStore row.version then throw .unconvertible
  checkLive s.versions row
  if s.versions.any (·.isVersion row.schemaId row.version) then throw versionStored
  return { s with versions := s.versions ++ [row] }

/-- Makes inactive the versions of a schema that satisfy a condition. -/
def deactivate (s : Space) (id : SchemaId) (p : VersionRow → Bool) : Space :=
  { s with
    versions := s.versions.map fun v =>
      if v.schemaId = id ∧ p v then { v with active := false } else v }

/-- Makes one version active. -/
def markActive (s : Space) (id : SchemaId) (version : Version) : Except StorageError Space := do
  let chosen (v : VersionRow) : Bool := v.isVersion id version
  let others := s.versions.filter (!chosen ·)
  (s.versions.filter chosen).forM fun v => checkLive others { v with active := true }
  return { s with
    versions := s.versions.map fun v => if chosen v then { v with active := true } else v }

/-! ## Creation -/

/-- The schema that a draft adds a version to, with its history: the given one, which has to
exist, else the one that carries the slug, else a new one. -/
def ownerOf (s : Space) (fresh : Identifier) (d : SchemaDraft) (slug : String) :
    Except StorageError (SchemaId × List SchemaRecord) :=
  match d.schemaId with
  | some id => do
    let history ← s.versionsOf id
    if history.isEmpty then throw (.failed (.notFound ("schema " ++ id.text)))
    return (id, history)
  | none =>
    match s.latestSchemaWithSlug? slug with
    | some id => do
      let history ← s.versionsOf id
      return (id, history)
    | none => .ok (⟨fresh⟩, [])

/-- The version of a draft: the one it asks for, else the next one. -/
def versionFor (asked : Option Version) (history : List SchemaRecord) :
    Except StorageError Version :=
  match asked with
  | some v => .ok v
  | none =>
    match Version.next (history.map (·.version)) with
    | .ok v => .ok v
    | .error e => .error (.failed (.invalid "version" e.message))

/-- What a field of a schema is told that differs from the first version. -/
def mustStay (value : String) : String :=
  "must stay " ++ Text.quoted value ++ " across versions of this schema"

/-- What in a draft differs from the first version of the schema. -/
def identityErrors (d : SchemaDraft) (slug : String) (history : List SchemaRecord) : FieldErrors :=
  match SchemaVersion.first? history with
  | none => .empty
  | some first => .ofPairs (
    (if first.tableName = d.tableName then [] else [("tableName", mustStay first.tableName)]) ++
    (if first.slug = slug then [] else [("slug", mustStay first.slug)]))

/-- The record of a new version. -/
def newRecord (c : Circumstances) (d : SchemaDraft) (slug : String) (id : SchemaId)
    (version : Version) : SchemaRecord where
  schemaId := id
  version := version
  definition := d.definition
  tableName := d.tableName
  slug := slug
  category := d.category
  createdAt := c.now
  active := true
  deleted := false

/-- Creates a version and makes it the active one of its schema. -/
def createVersion (c : Circumstances) (d : SchemaDraft) (checked : SchemaDraft.Checked) :
    Work SchemaRecord := fun s => do
  let (id, history) ← s.ownerOf c.fresh d checked.slug
  let version ← versionFor checked.version history
  if history.any (·.version == version) then
    throw (.failed (.conflict ("schema " ++ id.text ++ " already has version " ++ version.text)))
  (identityErrors d checked.slug history).check.mapError .failed
  if !s.categoryIsLive d.category then
    throw (.failed (.invalid "categoryId" "unknown or deleted category"))
  let record := newRecord c d checked.slug id version
  c.check .midway
  let s := s.deactivate id fun _ => true
  let s ← s.insertVersion (record.withDefinition record.definition.print)
  return (record, s)

/-! ## Activation and deletion -/

/-- There is no such version. -/
def noVersion (id : SchemaId) (version : Version) : Failure :=
  .notFound ("schema " ++ id.text ++ " version " ++ version.text)

/-- Makes a version the only active one of its schema. -/
def activateVersion (c : Circumstances) (id : SchemaId) (version : Version) :
    Work SchemaRecord := fun s => do
  match ← s.version? id version with
  | none => throw (.failed (noVersion id version))
  | some record =>
    if record.deleted then throw (.failed (noVersion id version))
    let s := s.deactivate id fun v => v.version != version
    c.check .midway
    let s ← s.markActive id version
    return ({ record with active := true }, s)

/-- Marks a version as deleted, which also makes it inactive. -/
def deleteVersion (id : SchemaId) (version : Version) : Work Unit := fun s =>
  let chosen (v : VersionRow) : Bool := v.isVersion id version && !v.deleted
  if s.versions.any chosen then
    .ok ((), { s with
      versions := s.versions.map fun v =>
        if chosen v then { v with active := false, deleted := true } else v })
  else .error (.failed (noVersion id version))

end Space

end SchemaVault
