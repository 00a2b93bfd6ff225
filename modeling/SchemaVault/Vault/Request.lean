import SchemaVault.Entities.Operations
import SchemaVault.Space.Migrations

/-!
# Requests

All that can be asked of a vault, as one type of requests and one function that answers them. An
answer comes with the space and the validators that are left behind, so that a sequence of
requests, from one handle or from several with validators of their own, is a fold over `answer`.
-/

namespace SchemaVault

/-- What can be asked. -/
inductive Request
  | createSchema (draft : SchemaDraft)
  | listVersions (id : SchemaId) (includeDeleted : Bool)
  | listSchemas (includeInactive : Bool)
  | getSchema (id : SchemaId) (version : Version)
  | getActive (id : SchemaId)
  | getActiveForTable (table : String)
  | activateSchema (id : SchemaId) (version : Version)
  | deleteSchema (id : SchemaId) (version : Version)
  /-- A version, deleted or not. -/
  | findSchema (id : SchemaId) (version : Version)
  | createEntity (table : String) (payload : Json) (author : Option String)
  | getEntity (table : String) (id : EntityId) (includeDeleted : Bool)
  | updateEntity (table : String) (id : EntityId) (payload : Json) (author : Option String)
  | deleteEntity (table : String) (id : EntityId)
  | listEntities (table : String) (options : ListOptions)
  | changeCategories (steps : List CategoryStep)
  | categoryIsLive (id : String)
  /-- The greatest recorded migration. -/
  | appliedMigration

/-- What is answered. -/
inductive Answer
  | schema (record : SchemaRecord)
  | schemas (records : List SchemaRecord)
  | found (record : Option SchemaRecord)
  | entity (record : EntityRecord)
  | page (page : EntityPage)
  | done
  /-- What the steps of a transaction have shown, and how it ended. -/
  | categories (seen : List (Option Bool)) (ending : Except StorageError Unit)
  | truth (value : Bool)
  | migration (number : Int64)
  | failure (failure : Failure)
  | storageError (error : StorageError)

namespace Answer

/-- The answer of an operation that may fail. -/
def ofResult {α : Type} (answer : α → Answer) : Except Failure α → Answer
  | .ok a => answer a
  | .error e => failure e

/-- The answer of a query that may meet a failure of the storage. -/
def ofQuery {α : Type} (answer : α → Answer) : Except StorageError α → Answer
  | .ok a => answer a
  | .error e => storageError e

end Answer

/-- Answers a request. -/
def Space.answer (c : Circumstances) (limits : PageLimits) (r : Request) (s : Space)
    (kept : ValidatorCache) : Answer × Space × ValidatorCache :=
  match r with
  | .createSchema draft =>
    let (result, s) := s.createSchema c draft
    (.ofResult .schema result, s, kept)
  | .listVersions id includeDeleted =>
    (.ofResult .schemas (s.listVersions c id includeDeleted), s, kept)
  | .listSchemas includeInactive =>
    (.ofResult .schemas (s.listSchemas c includeInactive), s, kept)
  | .getSchema id version => (.ofResult .schema (s.getSchema c id version), s, kept)
  | .getActive id => (.ofResult .schema (s.getActive c id), s, kept)
  | .getActiveForTable table => (.ofResult .schema (s.getActiveForTable c table), s, kept)
  | .activateSchema id version =>
    let (result, s) := s.activateSchema c id version
    (.ofResult .schema result, s, kept)
  | .deleteSchema id version =>
    let (result, s) := s.deleteSchema c id version
    (.ofResult (fun _ => .done) result, s, kept)
  | .findSchema id version =>
    (.ofQuery .found (Transaction.query c (·.version? id version) s), s, kept)
  | .createEntity table payload author =>
    let (result, s, kept) := s.createEntity c table payload author kept
    (.ofResult .entity result, s, kept)
  | .getEntity table id includeDeleted =>
    (.ofResult .entity (s.getEntity c table id includeDeleted), s, kept)
  | .updateEntity table id payload author =>
    let (result, s, kept) := s.updateEntity c table id payload author kept
    (.ofResult .entity result, s, kept)
  | .deleteEntity table id =>
    let (result, s) := s.deleteEntity c table id
    (.ofResult (fun _ => .done) result, s, kept)
  | .listEntities table options =>
    let (result, kept) := s.listEntities c limits table options kept
    (.ofResult .page result, s, kept)
  | .changeCategories steps =>
    let (seen, ending, s) := CategoryRun.execute c steps s
    (.categories seen ending, s, kept)
  | .categoryIsLive id =>
    (.ofQuery .truth (Transaction.query c (fun s => .ok (s.categoryIsLive id)) s), s, kept)
  | .appliedMigration =>
    (.ofQuery .migration (Transaction.query c (fun s => .ok s.appliedMigration) s), s, kept)

end SchemaVault
