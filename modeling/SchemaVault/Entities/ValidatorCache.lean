import SchemaVault.Schema.Validator
import SchemaVault.Schemas.Queries

/-!
# Compiled validators

An entity store keeps the validators that it has compiled, at most one for each schema. Since only
the live version of a schema is validated against, a validator of another version takes the place
of the one kept before.
-/

namespace SchemaVault

/-- The validators that are kept. -/
abbrev ValidatorCache := List Validator

namespace ValidatorCache

/-- The kept validator of a version. -/
def find? (kept : ValidatorCache) (id : SchemaId) (version : Version) : Option Validator :=
  List.find? (·.isFor id version) kept

/-- Keeps a validator in place of those of the same schema. -/
def keep (kept : ValidatorCache) (v : Validator) : ValidatorCache :=
  kept.filter (·.schemaId != v.schemaId) ++ [v]

/-- The validator of a stored version, compiled anew from its definition. -/
def compiled (r : SchemaRecord) : Except StorageError Validator :=
  match Validator.ofDefinition r.schemaId r.version r.definition with
  | .ok v => .ok v
  | .error e => .error (.invalidData ("stored definition of schema " ++ r.schemaId.text ++
      " version " ++ r.version.text ++ " does not compile: " ++ e.message))

/-- The validator of a stored version, and what is kept from then on. A kept validator is used as
it is, without a look at the definition. -/
def obtain (kept : ValidatorCache) (r : SchemaRecord) :
    Except StorageError Validator × ValidatorCache :=
  match kept.find? r.schemaId r.version with
  | some v => (.ok v, kept)
  | none =>
    match compiled r with
    | .ok v => (.ok v, kept.keep v)
    | .error e => (.error e, kept)

end ValidatorCache

end SchemaVault
