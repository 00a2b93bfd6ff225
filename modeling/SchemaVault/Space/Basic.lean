import SchemaVault.Identifier
import SchemaVault.Json.Basic
import SchemaVault.Version

/-!
# Spaces

A space holds the categories, the schema versions and the entities of one tenant, and the numbers
of the migrations applied to it. The rows of each kind stand in the order in which they were
inserted. Definitions and payloads are stored as text; a row read back carries the document that
the text writes, so the same structures serve for both, with the document's type as a parameter.
-/

namespace SchemaVault

/-- A category that schemas can refer to. -/
structure Category where
  id : String
  name : String
  deleted : Bool
  deriving DecidableEq

/-- One version of a schema. Only the two flags ever change. -/
structure SchemaVersion (Document : Type) where
  schemaId : SchemaId
  version : Version
  definition : Document
  tableName : String
  slug : String
  category : String
  createdAt : Int64
  active : Bool
  deleted : Bool
  deriving DecidableEq

/-- An entity, with the schema version that its payload satisfied when it was last written. -/
structure Entity (Document : Type) where
  id : EntityId
  tableName : String
  payload : Document
  schemaId : SchemaId
  schemaVersion : Version
  createdAt : Int64
  updatedAt : Int64
  deletedAt : Option Int64
  deleted : Bool
  createdBy : Option String
  updatedBy : Option String
  deriving DecidableEq

/-- A schema version as it is stored. -/
abbrev VersionRow := SchemaVersion String

/-- An entity as it is stored. -/
abbrev EntityRow := Entity String

/-- What a space holds. -/
structure Space where
  categories : List Category
  versions : List VersionRow
  entities : List EntityRow
  /-- The numbers of the applied migrations. -/
  migrations : List Int64
  deriving DecidableEq

namespace SchemaVersion

variable {Document : Type}

/-- Whether the version is active and not deleted. -/
def isLive (v : SchemaVersion Document) : Bool := v.active && !v.deleted

/-- Whether the version is the given one. -/
def isVersion (v : SchemaVersion Document) (id : SchemaId) (version : Version) : Bool :=
  v.schemaId == id && v.version == version

/-- The version with another document as its definition. -/
def withDefinition {Other : Type} (v : SchemaVersion Document) (definition : Other) :
    SchemaVersion Other :=
  { schemaId := v.schemaId
    version := v.version
    definition := definition
    tableName := v.tableName
    slug := v.slug
    category := v.category
    createdAt := v.createdAt
    active := v.active
    deleted := v.deleted }

end SchemaVersion

namespace Entity

variable {Document : Type}

/-- The entity with another document as its payload. -/
def withPayload {Other : Type} (e : Entity Document) (payload : Other) : Entity Other :=
  { id := e.id
    tableName := e.tableName
    payload := payload
    schemaId := e.schemaId
    schemaVersion := e.schemaVersion
    createdAt := e.createdAt
    updatedAt := e.updatedAt
    deletedAt := e.deletedAt
    deleted := e.deleted
    createdBy := e.createdBy
    updatedBy := e.updatedBy }

end Entity

namespace Space

/-- A space in which nothing has been stored and no migration applied. -/
def blank : Space := ⟨[], [], [], []⟩

instance : Inhabited Space := ⟨blank⟩

end Space

end SchemaVault
