import SchemaVault.Proofs.Schemas.ActiveHistory
import SchemaVault.Proofs.Schemas.Draft

/-!
# Stored versions are well formed

What a draft is checked for when it is created holds of its row for ever: its slug is normal, its
table name is valid, and its definition is an object with a member that compiles
(`Site.wellFormed_after`). Only a creation adds a row (`Site.lasting_cases`), and none of what is
checked is ever changed.
-/

namespace SchemaVault

/-- What a row has been checked for when it was created. -/
structure VersionRow.WellFormed (row : VersionRow) : Prop where
  slug : Slug.IsNormal row.slug
  tableName : TableName.isValid row.tableName = true
  /-- The definition can be read, and is an object with a member at least that compiles. -/
  definition : ∃ member members schema,
    Json.read? row.definition = some (.object (member :: members)) ∧
      Schema.compile (.object (member :: members)) = .ok schema

namespace Space

/-- Whether all rows are well formed. -/
def WellFormed (rows : List VersionRow) : Prop := ∀ row ∈ rows, VersionRow.WellFormed row

/-- Flags have no part in it. -/
theorem wellFormed_map_lasting {rows : List VersionRow} :
    WellFormed (rows.map SchemaVersion.lasting) ↔ WellFormed rows := by
  rw [WellFormed, List.forall_mem_map]
  exact ⟨fun h row hrow => ⟨(h row hrow).slug, (h row hrow).tableName, (h row hrow).definition⟩,
    fun h row hrow => ⟨(h row hrow).slug, (h row hrow).tableName, (h row hrow).definition⟩⟩

/-- **The row of a draft that passes its checks is well formed**, if its definition reads back. -/
theorem wellFormed_rowOf {d : SchemaDraft} {checked : SchemaDraft.Checked}
    (hd : d.check = .ok checked) (hreads : d.definition.ReadsBack) (c : Circumstances)
    (id : SchemaId) (version : Version) :
    (rowOf (newRecord c d checked.slug id version)).WellFormed := by
  obtain ⟨⟨htable, hslug, hdefinition, -, -⟩, rfl⟩ := SchemaDraft.check_eq_ok_iff.1 hd
  obtain ⟨member, members, schema, hobject, hcompile⟩ :=
    SchemaDraft.definitionErrors_eq_nil_iff.1 hdefinition
  rw [hobject] at hcompile
  exact
    { slug := SchemaDraft.slugErrors_eq_nil_iff.1 hslug
      tableName := SchemaDraft.tableNameErrors_eq_nil_iff.1 htable
      definition := ⟨member, members, schema, hobject ▸ hreads, hcompile⟩ }

end Space

open Space

theorem Site.wellFormed_next (site : Site) (step : Step)
    (hstep : step.Asks Request.DefinitionReadsBack) (h : WellFormed site.space.versions) :
    WellFormed (site.next step).space.versions := by
  rw [← wellFormed_map_lasting]
  rcases site.lasting_cases step with hsame | ⟨_, c, _, d, _, _, rfl, hd, hplan, hsame⟩ <;>
    rw [hsame, wellFormed_map_lasting]
  · exact h
  · refine List.forall_mem_append.2 ⟨h, List.forall_mem_singleton.2 ?_⟩
    rw [record_of_planBy hplan]
    exact wellFormed_rowOf hd hstep c _ _

/-- **Every stored version is well formed**, after every run, if the definitions that are stored
read back. -/
theorem Site.wellFormed_after {run : List Step}
    (hrun : fresh.Along (fun _ step => step.Asks Request.DefinitionReadsBack) run) :
    WellFormed (fresh.after run).space.versions :=
  after_of_step (I := fun site => WellFormed site.space.versions) wellFormed_next hrun
    fun _ h => nomatch h

end SchemaVault
