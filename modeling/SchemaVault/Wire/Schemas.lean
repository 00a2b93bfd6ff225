import SchemaVault.Schemas.Draft
import SchemaVault.Schemas.Queries
import SchemaVault.Wire.Form

/-!
# JSON forms of schema versions

Identifiers and versions are written as their texts. The names of the members are those by which
callers know the fields.
-/

namespace SchemaVault

open JsonForm

instance : JsonForm SchemaId := ⟨fun s => .string s.text, fun v => v.text?.bind SchemaId.read?⟩

instance : JsonForm Version :=
  ⟨fun v => .string v.text, fun v => v.text?.bind fun s => (Version.read s).toOption⟩

/-- Messages by field are an object of arrays of texts. -/
instance : JsonForm FieldErrors where
  toJson e := .object (e.entries.map fun p => (p.1, toJson p.2))
  ofJson?
    | .object members =>
      (members.mapM fun p => (ofJson? p.2).map fun messages => (p.1, messages)).map FieldErrors.mk
    | _ => none

instance : JsonForm SchemaDraft where
  toJson d := .ofMembers [
    ("schemaId", toJson d.schemaId),
    ("version", toJson d.version),
    ("definition", d.definition),
    ("tableName", toJson d.tableName),
    ("slug", toJson d.slug),
    ("categoryId", toJson d.category)]
  ofJson? := record? do
    let schemaId ← fieldOr "schemaId" none
    let version ← fieldOr "version" none
    let definition ← field "definition"
    let tableName ← field "tableName"
    let slug ← field "slug"
    let category ← field "categoryId"
    return { schemaId, version, definition, tableName, slug, category }

instance : JsonForm SchemaRecord where
  toJson r := .ofMembers [
    ("schemaId", toJson r.schemaId),
    ("version", toJson r.version),
    ("definition", r.definition),
    ("tableName", toJson r.tableName),
    ("slug", toJson r.slug),
    ("categoryId", toJson r.category),
    ("createdAt", toJson r.createdAt),
    ("isActive", toJson r.active),
    ("isSoftDeleted", toJson r.deleted)]
  ofJson? := record? do
    let schemaId ← field "schemaId"
    let version ← field "version"
    let definition ← field "definition"
    let tableName ← field "tableName"
    let slug ← field "slug"
    let category ← field "categoryId"
    let createdAt ← field "createdAt"
    let active ← field "isActive"
    let deleted ← field "isSoftDeleted"
    return { schemaId, version, definition, tableName, slug, category, createdAt, active, deleted }

end SchemaVault
