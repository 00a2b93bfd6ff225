import SchemaVault.Entities.Queries
import SchemaVault.Wire.Schemas

/-!
# JSON forms of entities

An entity leaves out what is absent; a listing request writes it as null.
-/

namespace SchemaVault

open JsonForm

instance : JsonForm EntityId := ⟨fun e => .string e.text, fun v => v.text?.bind EntityId.read?⟩

/-- An order is written as its name; it may also be read from an object with that name alone, over
null. -/
instance : JsonForm SortOrder where
  toJson o := .string o.text
  ofJson?
    | .string "asc" | .object [("asc", .null)] => some .ascending
    | .string "desc" | .object [("desc", .null)] => some .descending
    | _ => none

instance : JsonForm ListOptions where
  toJson o := .ofMembers [
    ("page", toJson o.page),
    ("pageSize", toJson o.pageSize),
    ("sortColumn", toJson o.sortColumn),
    ("sortOrder", toJson o.sortOrder),
    ("includeDeleted", toJson o.includeDeleted)]
  ofJson? := record? do
    let page ← fieldOr "page" none
    let pageSize ← fieldOr "pageSize" none
    let sortColumn ← fieldOr "sortColumn" none
    let sortOrder ← fieldOr "sortOrder" none
    let includeDeleted ← fieldOr "includeDeleted" false
    return { page, pageSize, sortColumn, sortOrder, includeDeleted }

instance : JsonForm EntityRecord where
  toJson e := .ofMembers ([
    ("entityId", toJson e.id),
    ("tableName", toJson e.tableName),
    ("payload", e.payload),
    ("entitySchemaId", toJson e.schemaId),
    ("entitySchemaVersion", toJson e.schemaVersion),
    ("createdAt", toJson e.createdAt),
    ("updatedAt", toJson e.updatedAt)] ++
    present "deletedAt" e.deletedAt ++
    [("isDeleted", toJson e.deleted)] ++
    present "createdBy" e.createdBy ++
    present "updatedBy" e.updatedBy)
  ofJson? := record? do
    let id ← field "entityId"
    let tableName ← field "tableName"
    let payload ← field "payload"
    let schemaId ← field "entitySchemaId"
    let schemaVersion ← field "entitySchemaVersion"
    let createdAt ← field "createdAt"
    let updatedAt ← field "updatedAt"
    let deletedAt ← fieldOr "deletedAt" none
    let deleted ← field "isDeleted"
    let createdBy ← fieldOr "createdBy" none
    let updatedBy ← fieldOr "updatedBy" none
    return {
      id, tableName, payload, schemaId, schemaVersion, createdAt, updatedAt, deletedAt, deleted,
      createdBy, updatedBy }

instance : JsonForm EntityPage where
  toJson p := .ofMembers [
    ("records", toJson p.records),
    ("total", toJson p.total),
    ("page", toJson p.page),
    ("pageSize", toJson p.pageSize)]
  ofJson? := record? do
    let records ← field "records"
    let total ← field "total"
    let page ← field "page"
    let pageSize ← field "pageSize"
    return { records, total, page, pageSize }

end SchemaVault
