import SchemaVault.Vault.Config
import SchemaVault.Vault.Request

/-!
# Vaults

A vault is an opened space with its settings and the validators that it keeps. Opening checks the
settings, takes what is stored at the configured place and applies the missing migrations; a vault
in memory starts blank.
-/

namespace SchemaVault

/-- Why a vault does not open. -/
inductive OpenError
  | config (error : ConfigError)
  | space (error : StorageError)
  deriving DecidableEq

/-- An opened space. -/
structure Vault where
  config : Config
  space : Space
  validators : ValidatorCache

namespace Vault

/-- The refusal of a path at which there can be no database. -/
def cannotOpen : StorageError := .refused 14 (some "unable to open database file")

/-- Opens a vault over what is stored at the configured path: a space, which is blank if the file
is new, or nothing if no file can be there. -/
def openOver (config : Config) (stored : Option Space) : Except OpenError Vault := do
  config.validate.mapError .config
  let found := if config.isInMemory then some Space.blank else stored
  match found with
  | none => throw (.space cannotOpen)
  | some s =>
    let space ← s.migrate.mapError .space
    return ⟨config, space, []⟩

/-- Answers a request. -/
def answer (c : Circumstances) (r : Request) (v : Vault) : Answer × Vault :=
  let (answer, space, validators) := v.space.answer c v.config.pageLimits r v.validators
  (answer, { v with space, validators })

end Vault

end SchemaVault
