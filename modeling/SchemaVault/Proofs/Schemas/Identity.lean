import SchemaVault.Proofs.Schemas.Indices
import SchemaVault.Proofs.Vault.Run

/-!
# What a schema is pinned to

A schema keeps its table and its slug through all its versions, and a slug belongs to one schema
for ever, deleted versions included: `Pinned`. Creation keeps it so because a version either
continues a schema whose table and slug it has to share, or begins a schema under a slug that
nothing stored carries (`plan_cases`). In a pinned space

* it does not matter which version of a history counts as the first and which of the versions with
  a slug counts as the latest, so neither does any reading of the clock (`createSchemaBy_eq`);
* a statement of a creation or an activation can only violate the index on tables
  (`createVersion_violates`, `activateVersion_violates`).

`identity_pinned` says all of this of every reachable space, if no identifier is minted twice.
-/

namespace SchemaVault

namespace Space

variable {s : Space} {rows : List VersionRow} {row : VersionRow} {c : Circumstances}
variable {d : SchemaDraft} {checked : SchemaDraft.Checked} {id : SchemaId} {version : Version}
variable {e : StorageError} {record : SchemaRecord}

/-! ## The invariant -/

/-- Two rows of one schema with one table and one slug, or of two schemas with two slugs. -/
structure Kindred (a b : VersionRow) : Prop where
  schema : a.schemaId = b.schemaId → a.tableName = b.tableName ∧ a.slug = b.slug
  slug : a.slug = b.slug → a.schemaId = b.schemaId

/-- Versions of one schema share table and slug, and versions with one slug share the schema. -/
def Pinned (rows : List VersionRow) : Prop := ∀ a ∈ rows, ∀ b ∈ rows, Kindred a b

theorem Kindred.refl (a : VersionRow) : Kindred a a := ⟨fun _ => ⟨rfl, rfl⟩, fun _ => rfl⟩

theorem Kindred.symm {a b : VersionRow} (h : Kindred a b) : Kindred b a :=
  ⟨fun hid => (h.schema hid.symm).imp Eq.symm Eq.symm, fun hslug => (h.slug hslug.symm).symm⟩

theorem Pinned.nil : Pinned [] := fun _ h => nomatch h

theorem pinned_map_lasting : Pinned (rows.map SchemaVersion.lasting) ↔ Pinned rows := by
  have hkindred : ∀ a b : VersionRow, Kindred a.lasting b.lasting ↔ Kindred a b := fun _ _ =>
    ⟨fun h => ⟨h.schema, h.slug⟩, fun h => ⟨h.schema, h.slug⟩⟩
  simp only [Pinned, List.forall_mem_map, hkindred]

/-- A row may be added that is pinned like some row, or shares neither schema nor slug with any. -/
theorem Pinned.concat (h : Pinned rows)
    (hrow : (∃ u ∈ rows, u.schemaId = row.schemaId ∧ u.tableName = row.tableName ∧
        u.slug = row.slug) ∨
      ∀ u ∈ rows, u.schemaId ≠ row.schemaId ∧ u.slug ≠ row.slug) : Pinned (rows ++ [row]) := by
  have hold : ∀ v ∈ rows, Kindred v row := by
    intro v hv
    rcases hrow with ⟨u, hu, hid, htable, hslug⟩ | hnew
    · constructor
      · rw [← hid, ← htable, ← hslug]
        exact (h v hv u hu).schema
      · rw [← hid, ← hslug]
        exact (h v hv u hu).slug
    · exact ⟨fun hid => absurd hid (hnew v hv).1, fun hslug => absurd hslug (hnew v hv).2⟩
  simp only [Pinned, List.mem_append, List.mem_singleton]
  rintro a (ha | rfl) b (hb | rfl)
  · exact h a ha b hb
  · exact hold a ha
  · exact (hold b hb).symm
  · exact .refl _

/-- Whether an identifier is new to the schemas of a space. -/
def IsNewSchema (s : Space) (fresh : Identifier) : Prop := ∀ v ∈ s.versions, v.schemaId ≠ ⟨fresh⟩

/-- What is planned under a new identifier may be stored. -/
theorem Pinned.plan (h : Pinned s.versions) (hfresh : s.IsNewSchema c.fresh)
    (hplan : planBy SchemaVersion.first? SchemaVersion.latest? c d checked s = .ok record) :
    Pinned (s.versions ++ [rowOf record]) := by
  refine h.concat ?_
  rcases plan_cases SchemaVersion.first?_picks SchemaVersion.latest?_picks hplan with
    ⟨hrow, -⟩ | ⟨hid, hslug⟩
  · exact .inl hrow
  · exact .inr fun u hu => ⟨fun hu' => hfresh u hu (hu'.trans hid), hslug u hu⟩

/-! ## Choices -/

section Choices

variable {first : List SchemaRecord → Option SchemaRecord}
  {latest : List VersionRow → Option VersionRow}

/-- Creates a schema version, with the choices of a first version and of a latest version with the
slug made in the given ways. -/
def createSchemaBy (first : List SchemaRecord → Option SchemaRecord)
    (latest : List VersionRow → Option VersionRow) (c : Circumstances) (d : SchemaDraft)
    (s : Space) : Except Failure SchemaRecord × Space :=
  match d.check with
  | .error e => (.error e, s)
  | .ok checked =>
    let (result, s) := Transaction.execute c .write (createVersionBy first latest c d checked) s
    (result.mapError (·.toSchemaFailure "create schema"), s)

theorem createSchema_eq (c : Circumstances) (d : SchemaDraft) (s : Space) :
    s.createSchema c d = createSchemaBy SchemaVersion.first? SchemaVersion.latest? c d s := by
  unfold createSchema createSchemaBy
  cases d.check with
  | error e => rfl
  | ok checked =>
    dsimp only
    rw [createVersion_eq]

theorem Pinned.ownerBy_eq (h : Pinned s.versions) {latest' : List VersionRow → Option VersionRow}
    (hlatest : Picks latest) (hlatest' : Picks latest') (fresh : Identifier) (d : SchemaDraft)
    (slug : String) : s.ownerBy latest fresh d slug = s.ownerBy latest' fresh d slug := by
  unfold ownerBy
  cases d.schemaId with
  | some id => rfl
  | none =>
    dsimp only
    rcases hlatest.cases hlatest' (s.versions.filter (·.slug == slug)) with
      ⟨hnone, hnone'⟩ | ⟨v, hv, v', hv', hsome, hsome'⟩
    · rw [hnone, hnone']
    · obtain ⟨hmem, hslug⟩ := List.mem_filter.1 hv
      obtain ⟨hmem', hslug'⟩ := List.mem_filter.1 hv'
      have hid := (h v hmem v' hmem').slug ((beq_iff_eq.1 hslug).trans (beq_iff_eq.1 hslug').symm)
      simp only [hsome, hsome', hid]

theorem Pinned.identityErrorsBy_eq (h : Pinned s.versions)
    {first' : List SchemaRecord → Option SchemaRecord} (hfirst : Picks first)
    (hfirst' : Picks first') {history : List SchemaRecord}
    (hhistory : s.versionsOf id = .ok history) (d : SchemaDraft) (slug : String) :
    identityErrorsBy first d slug history = identityErrorsBy first' d slug history := by
  unfold identityErrorsBy
  rcases hfirst.cases hfirst' history with ⟨hnone, hnone'⟩ | ⟨v, hv, v', hv', hsome, hsome'⟩
  · rw [hnone, hnone']
  · obtain ⟨u, hu, hid, hread⟩ := mem_of_versionsOf hhistory hv
    obtain ⟨u', hu', hid', hread'⟩ := mem_of_versionsOf hhistory hv'
    obtain ⟨_, -, rfl⟩ := VersionRow.read_eq_ok.1 hread
    obtain ⟨_, -, rfl⟩ := VersionRow.read_eq_ok.1 hread'
    obtain ⟨htable, hslug⟩ := (h u hu u' hu').schema (hid.trans hid'.symm)
    simp only [hsome, hsome', identityErrors, SchemaVersion.first?, List.foldl_nil,
      SchemaVersion.withDefinition, htable, hslug]

/-- In a pinned space every choice plans the same version. -/
theorem Pinned.planBy_eq (h : Pinned s.versions)
    {first' : List SchemaRecord → Option SchemaRecord}
    {latest' : List VersionRow → Option VersionRow} (hfirst : Picks first)
    (hfirst' : Picks first') (hlatest : Picks latest) (hlatest' : Picks latest')
    (c : Circumstances) (d : SchemaDraft) (checked : SchemaDraft.Checked) :
    planBy first latest c d checked s = planBy first' latest' c d checked s := by
  unfold planBy
  rw [h.ownerBy_eq hlatest hlatest']
  cases howner : s.ownerBy latest' c.fresh d checked.slug with
  | error e => rfl
  | ok owner =>
    obtain ⟨id, history⟩ := owner
    have herrors : identityErrorsBy first d checked.slug history =
        identityErrorsBy first' d checked.slug history := by
      rcases ownerBy_cases hlatest' howner with ⟨hhistory, -⟩ | ⟨-, -, rfl⟩
      · exact h.identityErrorsBy_eq hfirst hfirst' hhistory d checked.slug
      · rcases hfirst.cases hfirst' [] with ⟨hnone, hnone'⟩ | ⟨v, hv, -⟩
        · simp only [identityErrorsBy, hnone, hnone']
        · cases hv
    simp only [bind, Except.bind, herrors]

/-- **In a pinned space the choices do not matter.** -/
theorem Pinned.createSchemaBy_eq (h : Pinned s.versions) (hfirst : Picks first)
    (hlatest : Picks latest) (c : Circumstances) (d : SchemaDraft) :
    createSchemaBy first latest c d s = s.createSchema c d := by
  rw [createSchema_eq]
  unfold createSchemaBy
  cases d.check with
  | error e => rfl
  | ok checked =>
    have hplan := h.planBy_eq hfirst SchemaVersion.first?_picks hlatest
      SchemaVersion.latest?_picks c d checked
    simp only [Transaction.execute, createVersionBy, hplan]

end Choices

/-! ## Violations -/

/-- If no live row shares slug or schema with a row, it can only violate the index on tables. -/
theorem violates_of_checkLive {others : List VersionRow} (h : checkLive others row = .error e)
    (hothers : ∀ o ∈ others, o.isLive → o.slug ≠ row.slug ∧ o.schemaId ≠ row.schemaId) :
    e.constraint? = some (.unique ["table_name"]) := by
  obtain ⟨o, ho, hlive, ⟨-, hslug⟩ | ⟨rfl, -⟩ | ⟨-, hschema⟩⟩ := checkLive_eq_error h
  · exact absurd hslug (hothers o ho hlive).1
  · exact VersionIndex.table.constraint?_violation
  · exact absurd hschema (hothers o ho hlive).2

/-- What is told when the table of a version is that of a live version of another schema. -/
def tableHeld : Failure := .conflict "table name is held by the active version of another schema"

theorem toSchemaFailure_of_table (h : e.constraint? = some (.unique ["table_name"]))
    (operation : String) : e.toSchemaFailure operation = tableHeld :=
  VersionIndex.toSchemaFailure_of_constraint (i := .table) h operation

/-- If no live row shares slug or schema with a row, the row may be live if none has its table. -/
theorem checkLive_eq_ok_iff_table {others : List VersionRow} (hrow : row.isLive)
    (hothers : ∀ o ∈ others, o.isLive → o.slug ≠ row.slug ∧ o.schemaId ≠ row.schemaId) :
    checkLive others row = .ok () ↔ ∀ o ∈ others, o.isLive → o.tableName ≠ row.tableName := by
  rw [checkLive_eq_ok_iff]
  constructor
  · exact fun h o ho hlive => (h hrow o ho hlive).table
  · intro h _ o ho hlive
    obtain ⟨hslug, hschema⟩ := hothers o ho hlive
    exact ⟨hslug, h o ho hlive, hschema⟩

/-- **A creation can only violate the index on tables.** -/
theorem Pinned.createVersion_violates (h : Pinned s.versions) (hfresh : s.IsNewSchema c.fresh)
    (hcreate : createVersion c d checked s = .error e) {k : Constraint}
    (hk : e.constraint? = some k) : k = .unique ["table_name"] := by
  rw [createVersion_eq] at hcreate
  rcases Transaction.bind_eq_error.1 hcreate with hplan | ⟨record, hplan, hcreate⟩
  · simp [constraint?_of_planBy hplan] at hk
  · rcases Transaction.bind_eq_error.1 hcreate with hstore | ⟨after, -, hcreate⟩
    · -- Whatever carries the slug belongs to the schema itself, none of whose rows is live now.
      have hcases := plan_cases SchemaVersion.first?_picks SchemaVersion.latest?_picks hplan
      rcases insertVersion_eq_error hstore with rfl | hcheck | ⟨-, v, hv, hkey⟩
      · cases hk
      · have htable := violates_of_checkLive hcheck fun o ho hlive => by
          obtain ⟨u, hu, -, -, hrest⟩ := mem_deactivate ho
          obtain ⟨rfl, hother⟩ := hrest hlive
          have hother : o.schemaId ≠ record.schemaId := fun hid => hother ⟨hid, rfl⟩
          refine ⟨fun hslug => ?_, hother⟩
          rcases hcases with ⟨⟨row, hrow, hid, -, hslug'⟩, -⟩ | ⟨-, hnew⟩
          · exact hother (((h o hu row hrow).slug (hslug.trans hslug'.symm)).trans hid)
          · exact hnew o hu hslug
        rw [htable] at hk
        exact (Option.some.inj hk).symm
      · exfalso
        obtain ⟨u, hu, hsame, -, -⟩ := mem_deactivate hv
        obtain ⟨hsameId, hsameVersion, -⟩ := SchemaVersion.lasting_eq_iff.1 hsame
        obtain ⟨hid, hversion⟩ := SchemaVersion.isVersion_iff.1 hkey
        rcases hcases with ⟨-, hnumbers⟩ | ⟨hminted, -⟩
        · exact hnumbers u hu (hsameId.symm.trans hid) (hsameVersion.symm.trans hversion)
        · exact hfresh u hu ((hsameId.symm.trans hid).trans hminted)
    · cases hcreate

/-- **An activation can only violate the index on tables.** -/
theorem Pinned.activateVersion_violates (h : Pinned s.versions)
    (hactivate : activateVersion c id version s = .error e) {k : Constraint}
    (hk : e.constraint? = some k) : k = .unique ["table_name"] := by
  rcases activateVersion_eq_error hactivate with hnone | ⟨-, hmark⟩
  · simp [hnone] at hk
  · obtain ⟨v, hv, hchosen, hcheck⟩ := markActive_eq_error hmark
    obtain ⟨hid, hversion⟩ := SchemaVersion.isVersion_iff.1 hchosen
    obtain ⟨w, hw, hsame, -⟩ := mem_deactivate hv
    obtain ⟨hsameId, -, -, -, hsameSlug, -⟩ := SchemaVersion.lasting_eq_iff.1 hsame
    have htable := violates_of_checkLive hcheck fun o ho hlive => by
      obtain ⟨ho, hrival⟩ := List.mem_filter.1 ho
      obtain ⟨u, hu, -, -, hrest⟩ := mem_deactivate ho
      obtain ⟨rfl, hother⟩ := hrest hlive
      have hother : o.schemaId ≠ id := fun hid' =>
        hother ⟨hid', bne_iff_ne.2 fun hversion' => by
          simp [SchemaVersion.isVersion_iff.2 ⟨hid', hversion'⟩] at hrival⟩
      refine ⟨fun hslug => ?_, fun hschema => hother (hschema.trans hid)⟩
      exact hother (((h o hu w hw).slug (hslug.trans hsameSlug)).trans (hsameId.symm.trans hid))
    rw [htable] at hk
    exact (Option.some.inj hk).symm

end Space

open Space

/-! ## Runs -/

/-- A step that creates a schema version mints an identifier that no stored schema has. -/
def Step.MintsNew (site : Site) : Step → Prop
  | .asking _ c _ (.createSchema _) => site.space.IsNewSchema c.fresh
  | _ => True

theorem Site.pinned_next (site : Site) (step : Step) (hstep : step.MintsNew site)
    (h : Pinned site.space.versions) : Pinned (site.next step).space.versions := by
  rw [← pinned_map_lasting]
  rcases site.lasting_cases step with hsame | ⟨_, _, _, _, _, _, rfl, -, hplan, hsame⟩ <;>
    rw [hsame, pinned_map_lasting]
  · exact h
  · exact h.plan hstep hplan

theorem Site.pinned_after {run : List Step}
    (hrun : fresh.Along (fun site step => step.MintsNew site) run) :
    Pinned (fresh.after run).space.versions :=
  after_of_step (I := fun site => Pinned site.space.versions) pinned_next hrun .nil

/-- The sample run mints a new identifier for its first version. -/
theorem Sample.mintsNew_three :
    Site.fresh.Along (fun site step => step.MintsNew site) (Sample.run.take 3) :=
  ⟨trivial, trivial, fun _ h => (nomatch h), trivial⟩

/-- Another identifier is new after it. -/
theorem Sample.isNewSchema_three :
    (Site.fresh.after (Sample.run.take 3)).space.IsNewSchema Sample.second := by
  rw [Sample.after_three]
  simp only [IsNewSchema, List.forall_mem_singleton]
  decide

/-- **A schema is pinned to its table and its slug for ever.** In every reachable space the pins
hold, deleted versions included, no choice of a first version or of a latest version with a slug
changes what a creation answers and leaves behind, and the only constraint that a creation or an
activation can violate is that a live version has its table to itself. -/
theorem identity_pinned {run : List Step}
    (hrun : Site.fresh.Along (fun site step => step.MintsNew site) run) :
    let s := (Site.fresh.after run).space
    Pinned s.versions ∧
      (∀ first latest, Picks first → Picks latest →
        ∀ c d, createSchemaBy first latest c d s = s.createSchema c d) ∧
      (∀ c d checked e k, s.IsNewSchema c.fresh → createVersion c d checked s = .error e →
        e.constraint? = some k → k = .unique ["table_name"]) ∧
      ∀ c id version e k, activateVersion c id version s = .error e →
        e.constraint? = some k → k = .unique ["table_name"] := by
  have h := Site.pinned_after hrun
  exact ⟨h, fun first latest hfirst hlatest c d => h.createSchemaBy_eq hfirst hlatest c d,
    fun c d checked e k hfresh hcreate hk => h.createVersion_violates hfresh hcreate hk,
    fun c id version e k hactivate hk => h.activateVersion_violates hactivate hk⟩

/-- A run that mints two identifiers for two drafts of one slug. -/
theorem identity_pinned_sample :
    Site.fresh.Along (fun site step => step.MintsNew site) Sample.run ∧
      Pinned (Site.fresh.after Sample.run).space.versions := by
  have hsecond : (Site.fresh.after (Sample.run.take 3)).space.IsNewSchema Sample.second := by
    rw [Sample.after_three]
    simp only [IsNewSchema, List.forall_mem_singleton]
    decide
  have hrun : Site.fresh.Along (fun site step => step.MintsNew site) Sample.run :=
    ⟨trivial, trivial, fun _ h => (nomatch h), hsecond, trivial, trivial⟩
  exact ⟨hrun, (identity_pinned hrun).1⟩

end SchemaVault
