import SchemaVault.Proofs.Schema.Compilation
import SchemaVault.Proofs.Schemas.Changes
import SchemaVault.Proofs.Schemas.Slug

/-!
# What a draft that passes its checks is like

A draft passes its checks exactly if none of its fields is wrong (`check_eq_ok_iff`), and each field
is right exactly if it is what the field is for: a table name, a text that makes a slug, an object
with a member at least that compiles, and no version or the text of one.
-/

namespace SchemaVault.SchemaDraft

variable {d : SchemaDraft} {checked : Checked}

/-- **A draft passes its checks if nothing is wrong with any field**, and the slug and the version
are worked out from it. -/
theorem check_eq_ok_iff :
    d.check = .ok checked ↔
      (d.tableNameErrors = [] ∧ d.slugErrors = [] ∧ d.definitionErrors = [] ∧
        d.categoryErrors = [] ∧ d.versionErrors = []) ∧
      ⟨Slug.normalize d.slug, d.readVersion.toOption.join⟩ = checked := by
  have hnone : d.errors.check = .ok () ↔ d.tableNameErrors = [] ∧ d.slugErrors = [] ∧
      d.definitionErrors = [] ∧ d.categoryErrors = [] ∧ d.versionErrors = [] := by
    rw [FieldErrors.check_eq_ok_iff, errors, FieldErrors.ofPairs_isEmpty]
    simp only [List.isEmpty_iff, List.append_eq_nil_iff, and_assoc]
  rw [check, Transaction.bind_eq_ok, ← hnone]
  exact ⟨fun ⟨_, hcheck, h⟩ => ⟨hcheck, Transaction.pure_eq_ok.1 h⟩,
    fun ⟨hcheck, h⟩ => ⟨(), hcheck, Transaction.pure_eq_ok.2 h⟩⟩

theorem tableNameErrors_eq_nil_iff :
    d.tableNameErrors = [] ↔ TableName.isValid d.tableName = true := by
  unfold tableNameErrors
  split <;> simp [*]

theorem slugErrors_eq_nil_iff : d.slugErrors = [] ↔ Slug.IsNormal (Slug.normalize d.slug) := by
  unfold slugErrors
  rcases Slug.normalize_cases d.slug with h | h
  · simp [h, Slug.isNormal_iff]
  · have hne : (Slug.normalize d.slug).isEmpty = false := by
      simpa using (Slug.isNormal_iff.1 h).1
    simp [hne, h]

/-- A definition is right if it is an object with a member at least, and compiles. -/
theorem definitionErrors_eq_nil_iff :
    d.definitionErrors = [] ↔ ∃ member members schema,
      d.definition = .object (member :: members) ∧ Schema.compile d.definition = .ok schema := by
  unfold definitionErrors
  split
  · rename_i member members hobject
    cases hcompile : Schema.compile d.definition with
    | ok schema => simp [hobject]
    | error e => simp [Schema.issues_ne_nil hcompile]
  · rename_i hother
    simp only [List.cons_ne_nil, false_iff]
    rintro ⟨member, members, schema, hobject, -⟩
    exact hother member members hobject

theorem versionErrors_eq_nil_iff :
    d.versionErrors = [] ↔ ∃ version, d.readVersion = .ok version := by
  unfold versionErrors
  cases d.readVersion <;> simp

end SchemaVault.SchemaDraft
