import SchemaVault.Entities.Queries
import SchemaVault.Entities.ValidatorCache

/-!
# Operations on entities

What callers can ask about the entities of a table. Each operation is one transaction and starts
from the live schema version that governs the table; payloads are validated against it before they
are stored. The validators that an operation compiles are kept even if its transaction does not go
through.
-/

namespace SchemaVault

namespace Space

/-! ## Statements -/

/-- The refusal of an entity whose identifier is taken. -/
def entityStored : StorageError :=
  .refused StorageError.primaryKeyCode (some "UNIQUE constraint failed: entities.entity_id")

/-- Stores a new row. -/
def insertEntity (s : Space) (row : EntityRow) : Except StorageError Space :=
  if s.entities.any (·.id == row.id) then .error entityStored
  else .ok { s with entities := s.entities ++ [row] }

/-- Changes the live entity of a table that has the given identifier; there has to be one. -/
def changeEntity (s : Space) (table : String) (id : EntityId) (f : EntityRow → EntityRow) :
    Except StorageError Space :=
  let chosen (e : EntityRow) : Bool := e.id == id && e.tableName == table && !e.deleted
  if s.entities.any chosen then
    .ok { s with entities := s.entities.map fun e => if chosen e then f e else e }
  else .error (.failed (noEntity table id))

/-! ## Units of work -/

/-- Runs the rest of a unit of work with the validator of the version that governs a table. -/
def withValidator {α : Type} (table : String)
    (rest : Validator → Space → Except StorageError (α × Space)) (s : Space)
    (kept : ValidatorCache) : Except StorageError (α × Space) × ValidatorCache :=
  match s.governingSchema table with
  | .error e => (.error e, kept)
  | .ok schema =>
    match kept.obtain schema with
    | (.error e, kept) => (.error e, kept)
    | (.ok v, kept) => (rest v s, kept)

/-- Validates a payload. -/
def validated (v : Validator) (payload : Json) : Except StorageError ValidatedPayload :=
  (v.validate payload).mapError fun issues => .failed (.validation (.ofIssues issues))

/-- The record of a new entity. -/
def newEntity (c : Circumstances) (table : String) (p : ValidatedPayload) (author : Option String) :
    EntityRecord where
  id := ⟨c.fresh⟩
  tableName := table
  payload := p.value
  schemaId := p.schemaId
  schemaVersion := p.version
  createdAt := c.now
  updatedAt := c.now
  deletedAt := none
  deleted := false
  createdBy := author
  updatedBy := none

/-- Stores a validated payload as a new entity. -/
def createWork (c : Circumstances) (table : String) (payload : Json) (author : Option String)
    (v : Validator) : Work EntityRecord := fun s => do
  let p ← validated v payload
  c.check .midway
  let record := newEntity c table p author
  let s ← s.insertEntity (record.withPayload p.value.print)
  return (record, s)

/-- Replaces the payload of an entity by a validated one. -/
def updateWork (c : Circumstances) (table : String) (id : EntityId) (payload : Json)
    (author : Option String) (v : Validator) : Work EntityRecord := fun s => do
  let p ← validated v payload
  c.check .midway
  let s ← s.changeEntity table id fun e =>
    { e with
      payload := p.value.print
      schemaId := p.schemaId
      schemaVersion := p.version
      updatedAt := c.now
      updatedBy := author }
  match ← s.entity? table id with
  | some record => return (record, s)
  | none => throw (.invalidData ("entity " ++ id.text ++ " vanished after update"))

/-- Marks an entity as deleted. -/
def deleteWork (c : Circumstances) (table : String) (id : EntityId) : Work Unit := fun s => do
  let _ ← s.governingSchema table
  let s ← s.changeEntity table id fun e => { e with deleted := true, deletedAt := some c.now }
  return ((), s)

/-- A page of the entities of a table. -/
def listWork (limits : PageLimits) (table : String) (o : ListOptions) (v : Validator) :
    Work EntityPage := fun s => do
  let listing ← (o.resolve limits v.schema.propertyNames).mapError .failed
  let page ← s.pageOf table listing
  return (page, s)

/-- An entity of a governed table, deleted or not. -/
def fetch (table : String) (id : EntityId) (s : Space) :
    Except StorageError (Option EntityRecord) := do
  let _ ← s.governingSchema table
  s.entity? table id

/-! ## Operations -/

/-- Validates a payload and stores it as a new entity, stamped with the governing version. -/
def createEntity (c : Circumstances) (table : String) (payload : Json) (author : Option String)
    (s : Space) (kept : ValidatorCache) : Except Failure EntityRecord × Space × ValidatorCache :=
  let (result, s, kept) := Transaction.executeKeeping c .write
    (withValidator table (createWork c table payload author)) s kept
  (result.mapError fun e =>
    match e.constraint? with
    | some (.primaryKey _) => .conflict "entity id already in use, retry"
    | _ => e.toFailure "create entity", s, kept)

/-- Replaces the payload of an entity that is not deleted. The entity is stamped anew with the
version that governs the table now. -/
def updateEntity (c : Circumstances) (table : String) (id : EntityId) (payload : Json)
    (author : Option String) (s : Space) (kept : ValidatorCache) :
    Except Failure EntityRecord × Space × ValidatorCache :=
  let (result, s, kept) := Transaction.executeKeeping c .write
    (withValidator table (updateWork c table id payload author)) s kept
  (result.mapError (·.toFailure "update entity"), s, kept)

/-- A page of the entities of a table. Without an order the newest come first. -/
def listEntities (c : Circumstances) (limits : PageLimits) (table : String) (o : ListOptions)
    (s : Space) (kept : ValidatorCache) : Except Failure EntityPage × ValidatorCache :=
  let (result, _, kept) := Transaction.executeKeeping c .read
    (withValidator table (listWork limits table o)) s kept
  (result.mapError (·.toFailure "list entities"), kept)

/-- An entity of a table; a deleted one only if asked for. -/
def getEntity (c : Circumstances) (table : String) (id : EntityId) (includeDeleted : Bool)
    (s : Space) : Except Failure EntityRecord := do
  let found ← (Transaction.query c (fetch table id) s).mapError (·.toFailure "get entity")
  match found.filter fun e => includeDeleted || !e.deleted with
  | some record => return record
  | none => throw (noEntity table id)

/-- Marks an entity of a table as deleted. -/
def deleteEntity (c : Circumstances) (table : String) (id : EntityId) (s : Space) :
    Except Failure Unit × Space :=
  let (result, s) := Transaction.execute c .write (deleteWork c table id) s
  (result.mapError (·.toFailure "delete entity"), s)

end Space

end SchemaVault
