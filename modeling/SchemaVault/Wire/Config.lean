import SchemaVault.Vault.Config
import SchemaVault.Wire.Form

/-!
# JSON form of the configuration

The members have the names of the keys of a configuration file, and missing ones take their
defaults.
-/

namespace SchemaVault

open JsonForm

instance : JsonForm Config where
  toJson c := .ofMembers [
    ("database_path", toJson c.databasePath),
    ("space_id", toJson c.spaceId),
    ("busy_timeout_ms", toJson c.busyTimeout),
    ("default_page_size", toJson c.defaultPageSize),
    ("max_page_size", toJson c.maxPageSize),
    ("log_filter", toJson c.logFilter)]
  ofJson? := record? do
    let databasePath ← fieldOr "database_path" Config.standard.databasePath
    let spaceId ← fieldOr "space_id" Config.standard.spaceId
    let busyTimeout ← fieldOr "busy_timeout_ms" Config.standard.busyTimeout
    let defaultPageSize ← fieldOr "default_page_size" Config.standard.defaultPageSize
    let maxPageSize ← fieldOr "max_page_size" Config.standard.maxPageSize
    let logFilter ← fieldOr "log_filter" Config.standard.logFilter
    return { databasePath, spaceId, busyTimeout, defaultPageSize, maxPageSize, logFilter }

end SchemaVault
