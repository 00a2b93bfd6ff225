import SchemaVault.Entities.Paging
import SchemaVault.Text.Blank
import SchemaVault.Toml.Reader

/-!
# Configuration

The settings of a vault, with their defaults, the checks on them, and how they are read from a
TOML document. Keys that are missing take their defaults and keys that are not known are passed
over.
-/

namespace SchemaVault

/-- The settings of a vault. -/
structure Config where
  /-- The file that holds the space, or `Config.inMemory`. -/
  databasePath : String
  /-- The name of the space. -/
  spaceId : String
  /-- How long a writer waits for another writer, in milliseconds. -/
  busyTimeout : UInt64
  defaultPageSize : UInt32
  maxPageSize : UInt32
  /-- Which events are logged. -/
  logFilter : String
  deriving DecidableEq

/-- Why there are no settings. -/
inductive ConfigError
  /-- The file cannot be read. -/
  | unreadable
  /-- The document is malformed, or a value is of the wrong kind. -/
  | malformed
  /-- A setting is out of bounds. -/
  | invalid (text : String)
  deriving DecidableEq

/-- The wording of the errors that have one of their own. -/
def ConfigError.message? : ConfigError → Option String
  | invalid text => some ("invalid config: " ++ text)
  | unreadable | malformed => none

namespace Config

/-- The path that stands for a space in memory. -/
def inMemory : String := ":memory:"

/-- The settings of an empty document. -/
def standard : Config where
  databasePath := inMemory
  spaceId := "default"
  busyTimeout := 5000
  defaultPageSize := 20
  maxPageSize := 100
  logFilter := "info"

instance : Inhabited Config := ⟨standard⟩

/-- Whether the space is kept in memory. -/
def isInMemory (c : Config) : Bool := c.databasePath == inMemory

/-- The bounds on the size of a page. -/
def pageLimits (c : Config) : PageLimits := ⟨c.defaultPageSize, c.maxPageSize⟩

/-- Checks the settings; the first that is out of bounds is told. -/
def validate (c : Config) : Except ConfigError Unit :=
  if Text.isAllBlank c.spaceId then .error (.invalid "space_id must not be empty")
  else if Text.isAllBlank c.databasePath then .error (.invalid "database_path must not be empty")
  else if c.maxPageSize = 0 then .error (.invalid "max_page_size must be at least 1")
  else if c.defaultPageSize = 0 ∨ c.maxPageSize < c.defaultPageSize then
    .error (.invalid ("default_page_size must be between 1 and max_page_size (" ++
      toString c.maxPageSize.toNat ++ ")"))
  else .ok ()

/-! ## Reading -/

/-- A setting, read if it is there. -/
def setting {α : Type} (t : Toml.Table) (key : String) (standard : α)
    (read : Toml.Value → Option α) : Option α :=
  match t.lookup key with
  | none => some standard
  | some v => read v

/-- A value that is a text. -/
def text? : Toml.Value → Option String
  | .text s => some s
  | _ => none

/-- A value that is an integer from 0 up to a bound. -/
def nat? (bound : Nat) : Toml.Value → Option Nat
  | .integer i => if 0 ≤ i ∧ i < bound then some i.toNat else none
  | _ => none

/-- The settings that a table describes. -/
def ofTable? (t : Toml.Table) : Option Config := do
  let databasePath ← setting t "database_path" standard.databasePath text?
  let spaceId ← setting t "space_id" standard.spaceId text?
  let busyTimeout ← setting t "busy_timeout_ms" standard.busyTimeout fun v =>
    (nat? UInt64.size v).map UInt64.ofNat
  let defaultPageSize ← setting t "default_page_size" standard.defaultPageSize fun v =>
    (nat? UInt32.size v).map UInt32.ofNat
  let maxPageSize ← setting t "max_page_size" standard.maxPageSize fun v =>
    (nat? UInt32.size v).map UInt32.ofNat
  let logFilter ← setting t "log_filter" standard.logFilter text?
  return { databasePath, spaceId, busyTimeout, defaultPageSize, maxPageSize, logFilter }

/-- Reads the settings from a document and checks them. -/
def read (document : String) : Except ConfigError Config :=
  match (Toml.read? document).bind ofTable? with
  | none => .error .malformed
  | some c => c.validate.map fun _ => c

/-- Reads the settings from the bytes of a file, or from no file. -/
def load (bytes : Option ByteArray) : Except ConfigError Config :=
  match bytes.bind String.fromUTF8? with
  | none => .error .unreadable
  | some document => read document

end Config

end SchemaVault
