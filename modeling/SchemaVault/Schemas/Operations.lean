import SchemaVault.Schemas.Changes

/-!
# Operations on schema versions

What callers can ask about schema versions. Each operation is one transaction, and a failure of
its work is turned into what the caller is told. Changes return the space that they leave behind;
queries leave it alone.
-/

namespace SchemaVault

/-- The failure of a change of schema versions. A violated index tells what is taken; everything
else goes the common way. -/
def StorageError.toSchemaFailure (e : StorageError) (operation : String) : Failure :=
  match e.constraint? with
  | some (.primaryKey _) => .conflict "a version with this schema id and version already exists"
  | some (.unique ("table_name" :: _)) =>
    .conflict "table name is held by the active version of another schema"
  | some (.unique ("slug" :: _)) => .conflict "slug is held by the active version of another schema"
  | some (.unique ["schema_id"]) =>
    .conflict "another writer activated a version of this schema first, retry"
  | some (.unique _) => .conflict "a version with this schema id and version already exists"
  | some .foreignKey => .invalid "categoryId" "unknown or deleted category"
  | some .busy | none => e.toFailure operation

/-- What is found, or else that it has not been found. -/
def orNotFound {α : Type} (found : Option α) (what : String) : Except Failure α :=
  match found with
  | some a => .ok a
  | none => .error (.notFound what)

namespace Space

/-- Creates a schema version and makes it the active one of its schema. -/
def createSchema (c : Circumstances) (d : SchemaDraft) (s : Space) :
    Except Failure SchemaRecord × Space :=
  match d.check with
  | .error e => (.error e, s)
  | .ok checked =>
    let (result, s) := Transaction.execute c .write (createVersion c d checked) s
    (result.mapError (·.toSchemaFailure "create schema"), s)

/-- The versions of a schema in order, none if there is no such schema. -/
def listVersions (c : Circumstances) (id : SchemaId) (includeDeleted : Bool) (s : Space) :
    Except Failure (List SchemaRecord) := do
  let records ← (Transaction.query c (·.versionsOf id) s).mapError
    (·.toFailure "list schema versions")
  return records.filter fun r => includeDeleted || !r.deleted

/-- The live versions of all schemas, or all versions, in order. -/
def listSchemas (c : Circumstances) (includeInactive : Bool) (s : Space) :
    Except Failure (List SchemaRecord) :=
  (Transaction.query c (·.allVersions includeInactive) s).mapError (·.toFailure "list schemas")

/-- A version that is not deleted. -/
def getSchema (c : Circumstances) (id : SchemaId) (version : Version) (s : Space) :
    Except Failure SchemaRecord := do
  let found ← (Transaction.query c (·.version? id version) s).mapError
    (·.toFailure "get schema version")
  orNotFound (found.filter fun r => !r.deleted)
    ("schema " ++ id.text ++ " version " ++ version.text)

/-- The live version of a schema. -/
def getActive (c : Circumstances) (id : SchemaId) (s : Space) : Except Failure SchemaRecord := do
  let found ← (Transaction.query c (·.activeForSchema? id) s).mapError
    (·.toFailure "get active schema")
  orNotFound found ("active version of schema " ++ id.text)

/-- The live version that governs a table. -/
def getActiveForTable (c : Circumstances) (table : String) (s : Space) :
    Except Failure SchemaRecord := do
  let found ← (Transaction.query c (·.activeForTable? table) s).mapError
    (·.toFailure "get active schema by table")
  orNotFound found ("active schema for table " ++ table)

/-- Makes a version the only active one of its schema. -/
def activateSchema (c : Circumstances) (id : SchemaId) (version : Version) (s : Space) :
    Except Failure SchemaRecord × Space :=
  let (result, s) := Transaction.execute c .write (activateVersion c id version) s
  (result.mapError (·.toSchemaFailure "activate schema"), s)

/-- Deletes a version. A schema whose active version is deleted has no active version. -/
def deleteSchema (c : Circumstances) (id : SchemaId) (version : Version) (s : Space) :
    Except Failure Unit × Space :=
  let (result, s) := Transaction.execute c .write (deleteVersion id version) s
  (result.mapError (·.toFailure "delete schema version"), s)

end Space

end SchemaVault
