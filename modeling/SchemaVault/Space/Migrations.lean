import SchemaVault.Space.Transaction

/-!
# Migrations

A space records which migrations have been applied to it. Opening a space applies those above the
greatest recorded number and records them; they create what is missing and leave what is stored
alone. A space beyond the newest known migration is refused.
-/

namespace SchemaVault.Space

/-- The known migrations. -/
def knownMigrations : List Int64 := [1, 2]

/-- The newest known migration. -/
def currentMigration : Int64 := 2

/-- The greatest recorded migration, 0 if there is none. -/
def appliedMigration (s : Space) : Int64 :=
  match s.migrations with
  | [] => 0
  | m :: ms => ms.foldl (fun a b => if a < b then b else a) m

/-- Applies the known migrations that are newer than the greatest recorded one. -/
def migrate (s : Space) : Except StorageError Space :=
  let applied := s.appliedMigration
  if currentMigration < applied then
    .error (.migration ("space is at version " ++ toString applied.toInt ++
      ", newer than supported " ++ toString currentMigration.toInt))
  else .ok { s with migrations := s.migrations ++ knownMigrations.filter (applied < ·) }

end SchemaVault.Space
