import SchemaVault.Failure
import SchemaVault.Schema.Compile
import SchemaVault.Schemas.Slug
import SchemaVault.Schemas.TableName
import SchemaVault.Identifier
import SchemaVault.Text.Blank
import SchemaVault.Version

/-!
# Drafts of schema versions

A draft is a request for a new schema version. `SchemaDraft.check` runs every check that needs no
stored state and reports all that is wrong at once.
-/

namespace SchemaVault

/-- A request to create a schema version. -/
structure SchemaDraft where
  /-- The schema to add a version to. Without one it is found by the slug, or minted. -/
  schemaId : Option SchemaId
  /-- The text of the version. Without one the next version is taken. -/
  version : Option String
  definition : Json
  tableName : String
  slug : String
  category : String
  deriving DecidableEq

namespace SchemaDraft

/-- What the checks work out: the normalized slug, and the version if one is asked for. -/
structure Checked where
  slug : String
  version : Option Version
  deriving DecidableEq

/-- What is wrong with the table name. -/
def tableNameErrors (d : SchemaDraft) : List (String × String) :=
  if TableName.isValid d.tableName then []
  else [("tableName", "must match ^[a-z][a-z0-9_]*$ and be at most " ++
    toString TableName.maxLength ++ " characters")]

/-- What is wrong with the slug. -/
def slugErrors (d : SchemaDraft) : List (String × String) :=
  if (Slug.normalize d.slug).isEmpty then [("slug", "must contain at least one letter or digit")]
  else []

/-- What is wrong with the definition. -/
def definitionErrors (d : SchemaDraft) : List (String × String) :=
  match d.definition with
  | .object (_ :: _) =>
    match Schema.compile d.definition with
    | .ok _ => []
    | .error e => e.issues.map fun i => ("definition", i.text)
  | _ => [("definition", "must be a non-empty JSON object")]

/-- What is wrong with the category. -/
def categoryErrors (d : SchemaDraft) : List (String × String) :=
  if Text.isAllBlank d.category then [("categoryId", "is required")] else []

/-- The version that is asked for, if any. -/
def readVersion (d : SchemaDraft) : Except VersionError (Option Version) :=
  match d.version with
  | none => .ok none
  | some text => (Version.read text).map some

/-- What is wrong with the version. -/
def versionErrors (d : SchemaDraft) : List (String × String) :=
  match d.readVersion with
  | .ok _ => []
  | .error e => [("version", e.message)]

/-- All that is wrong with a draft, whatever is stored. -/
def errors (d : SchemaDraft) : FieldErrors :=
  .ofPairs (d.tableNameErrors ++ d.slugErrors ++ d.definitionErrors ++ d.categoryErrors ++
    d.versionErrors)

/-- Runs the checks that need no stored state. -/
def check (d : SchemaDraft) : Except Failure Checked := do
  d.errors.check
  return ⟨Slug.normalize d.slug, d.readVersion.toOption.join⟩

end SchemaDraft

end SchemaVault
