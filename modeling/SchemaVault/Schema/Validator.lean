import SchemaVault.Identifier
import SchemaVault.Schema.Check
import SchemaVault.Schema.Compile
import SchemaVault.Version

/-!
# Validators

A validator is a compiled definition together with the schema version that the definition belongs
to. A payload that it accepts comes out stamped with that version, and `Validator.validate` is
where stamped payloads come from.
-/

namespace SchemaVault

/-- A compiled definition and the schema version that it belongs to. -/
structure Validator where
  schemaId : SchemaId
  version : Version
  schema : Schema

/-- A payload and the schema version that it satisfies. -/
structure ValidatedPayload where
  schemaId : SchemaId
  version : Version
  value : Json
  deriving DecidableEq

namespace Validator

/-- The validator of a definition. -/
def ofDefinition (id : SchemaId) (version : Version) (definition : Json) :
    Except CompileError Validator :=
  (Schema.compile definition).map fun schema => ⟨id, version, schema⟩

/-- Whether the validator belongs to the given version. -/
def isFor (v : Validator) (id : SchemaId) (version : Version) : Bool :=
  v.schemaId == id && v.version == version

/-- Stamps a payload if it satisfies the schema, and tells what is wrong with it otherwise. -/
def validate (v : Validator) (payload : Json) : Except (List Issue) ValidatedPayload :=
  match v.schema.issues payload with
  | [] => .ok ⟨v.schemaId, v.version, payload⟩
  | issues => .error issues

end Validator

end SchemaVault
