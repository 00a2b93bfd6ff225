import SchemaVault.Space.Basic

/-!
# Overwriting what is stored

Changes to the stored text of definitions and payloads and to the recorded migrations that go
past every rule. No operation makes them; they tell how the operations meet a space that has been
damaged from outside.
-/

namespace SchemaVault.Space

/-- Overwrites the text of a definition, and counts the rows that change. -/
def overwriteDefinition (s : Space) (id : SchemaId) (version : Version) (text : String) :
    Nat × Space :=
  let chosen (v : VersionRow) : Bool := v.isVersion id version
  (s.versions.countP chosen,
    { s with versions := s.versions.map fun v => if chosen v then v.withDefinition text else v })

/-- Overwrites the text of a payload, and counts the rows that change. -/
def overwritePayload (s : Space) (id : EntityId) (text : String) : Nat × Space :=
  let chosen (e : EntityRow) : Bool := e.id == id
  (s.entities.countP chosen,
    { s with entities := s.entities.map fun e => if chosen e then e.withPayload text else e })

/-- Overwrites the recorded migrations by a single one, or by none. -/
def overwriteMigrations (s : Space) (migration : Option Int64) : Space :=
  { s with migrations := migration.toList }

end SchemaVault.Space
