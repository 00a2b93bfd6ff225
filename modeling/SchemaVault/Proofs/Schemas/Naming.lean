import SchemaVault.Proofs.Schemas.AppendOnly

/-!
# Which schema a draft means

A draft means the schema that it names, else the one that carries its slug, else a new one
(`Space.IsTarget`). In a pinned space that is one schema (`Pinned.exists_isTarget_iff`), and it does
not matter in which way a draft means a stored schema: creation reads the same history
(`ownerOf_of_stored`), although a name and a slug are looked up in different ways. So a draft may
name its schema by its identifier or by any spelling of its slug (`slug_names_schema`).
-/

namespace SchemaVault

namespace Space

variable {s s' : Space} {fresh : Identifier} {c : Circumstances} {d : SchemaDraft} {id : SchemaId}
variable {slug : String} {row : VersionRow} {record : SchemaRecord}

/-! ## Targets -/

/-- Whether a schema has a stored version, deleted or not. -/
def IsStored (s : Space) (id : SchemaId) : Prop := ∃ row ∈ s.versions, row.schemaId = id

/-- Whether a schema has a stored version with a slug, deleted or not. -/
def Carries (s : Space) (id : SchemaId) (slug : String) : Prop :=
  ∃ row ∈ s.versions, row.schemaId = id ∧ row.slug = slug

/-- Whether a draft means a schema. -/
inductive IsTarget (s : Space) (fresh : Identifier) (d : SchemaDraft) : SchemaId → Prop
  | named {id : SchemaId} (hid : d.schemaId = some id) : IsTarget s fresh d id
  | carrying {id : SchemaId} (hid : d.schemaId = none)
    (hslug : s.Carries id (Slug.normalize d.slug)) : IsTarget s fresh d id
  | minted (hid : d.schemaId = none) (hslug : ∀ id, ¬s.Carries id (Slug.normalize d.slug)) :
    IsTarget s fresh d ⟨fresh⟩

theorem Carries.isStored (h : s.Carries id slug) : s.IsStored id :=
  h.imp fun _ hrow => ⟨hrow.1, hrow.2.1⟩

theorem not_carries_iff : (∀ id, ¬s.Carries id slug) ↔ ∀ row ∈ s.versions, row.slug ≠ slug :=
  ⟨fun h row hrow hslug => h row.schemaId ⟨row, hrow, rfl, hslug⟩,
    fun h _ ⟨row, hrow, _, hslug⟩ => h row hrow hslug⟩

/-- **A slug belongs to one schema.** -/
theorem Pinned.carries_unique (h : Pinned s.versions) {id' : SchemaId} (hid : s.Carries id slug)
    (hid' : s.Carries id' slug) : id = id' := by
  obtain ⟨a, ha, rfl, haslug⟩ := hid
  obtain ⟨b, hb, rfl, hbslug⟩ := hid'
  exact (h a ha b hb).slug (haslug.trans hbslug.symm)

/-- **A draft means one schema.** -/
theorem Pinned.exists_isTarget_iff (h : Pinned s.versions) (fresh : Identifier) (d : SchemaDraft) :
    ∃ id, ∀ i, s.IsTarget fresh d i ↔ i = id := by
  cases hid : d.schemaId with
  | some id =>
    refine ⟨id, fun i => ⟨?_, fun hi => hi ▸ .named hid⟩⟩
    rintro (hid' | ⟨hid', -⟩ | ⟨hid', -⟩)
    · exact Option.some.inj (hid'.symm.trans hid)
    · cases hid'.symm.trans hid
    · cases hid'.symm.trans hid
  | none =>
    by_cases hcarried : ∃ id, s.Carries id (Slug.normalize d.slug)
    · obtain ⟨id, hslug⟩ := hcarried
      refine ⟨id, fun i => ⟨?_, fun hi => hi ▸ .carrying hid hslug⟩⟩
      rintro (hid' | ⟨-, hslug'⟩ | ⟨-, hnone⟩)
      · cases hid'.symm.trans hid
      · exact h.carries_unique hslug' hslug
      · exact absurd hslug (hnone id)
    · have hnone := not_exists.1 hcarried
      refine ⟨⟨fresh⟩, fun i => ⟨?_, fun hi => hi ▸ .minted hid hnone⟩⟩
      rintro (hid' | ⟨-, hslug⟩ | ⟨-, -⟩)
      · cases hid'.symm.trans hid
      · exact absurd hslug (hnone i)
      · rfl

/-! ## Their histories -/

theorem versionsOf_of_not_isStored (h : ¬s.IsStored id) : s.versionsOf id = .ok [] := by
  have hnone : s.versions.filter (·.schemaId == id) = [] :=
    List.filter_eq_nil_iff.2 fun row hrow hschema => h ⟨row, hrow, beq_iff_eq.1 hschema⟩
  rw [versionsOf, hnone, List.mapM_nil, pure_bind, List.mergeSort_nil]
  rfl

theorem ownerOf_of_unknown (hid : d.schemaId = some id) (hstored : ¬s.IsStored id) :
    s.ownerOf fresh d slug = .error (.failed (.notFound ("schema " ++ id.text))) := by
  simp only [ownerOf, hid, versionsOf_of_not_isStored hstored]
  rfl

theorem ownerOf_of_minted (hid : d.schemaId = none) (hslug : ∀ id, ¬s.Carries id slug) :
    s.ownerOf fresh d slug = .ok (⟨fresh⟩, []) := by
  have hnone : s.versions.filter (·.slug == slug) = [] :=
    List.filter_eq_nil_iff.2 fun row hrow hrowslug =>
      not_carries_iff.1 hslug row hrow (beq_iff_eq.1 hrowslug)
  simp only [ownerOf, hid, latestSchemaWithSlug?, hnone]
  rfl

/-- A name is looked up by the history of the schema, which is not empty. -/
theorem ownerOf_of_named (hid : d.schemaId = some id) (hstored : s.IsStored id) :
    s.ownerOf fresh d slug = (s.versionsOf id).map fun history => (id, history) := by
  simp only [ownerOf, hid]
  cases hhistory : s.versionsOf id with
  | error e => rfl
  | ok history =>
    obtain ⟨row, hrow, hschema⟩ := hstored
    obtain ⟨r, hr, -⟩ := read_of_versionsOf hhistory hrow hschema
    have hne : history.isEmpty = false := List.isEmpty_eq_false_iff_exists_mem.2 ⟨r, hr⟩
    simp only [bind, Except.bind, hne]
    rfl

/-- A slug is looked up by the version that was created last, which is of the one schema that
carries it. -/
theorem Pinned.ownerOf_of_carrying (h : Pinned s.versions) (hid : d.schemaId = none)
    (hslug : s.Carries id slug) :
    s.ownerOf fresh d slug = (s.versionsOf id).map fun history => (id, history) := by
  have hfound : ∃ latest,
      SchemaVersion.latest? (s.versions.filter (·.slug == slug)) = some latest := by
    obtain ⟨row, hrow, -, hrowslug⟩ := hslug
    exact SchemaVersion.latest?_picks.some_of_mem
      (List.mem_filter.2 ⟨hrow, beq_iff_eq.2 hrowslug⟩)
  obtain ⟨latest, hlatest⟩ := hfound
  obtain ⟨hstored, hlatestslug⟩ :=
    List.mem_filter.1 (SchemaVersion.latest?_picks.mem_of_some hlatest)
  have hcarries : s.Carries latest.schemaId slug :=
    ⟨latest, hstored, rfl, beq_iff_eq.1 hlatestslug⟩
  have hsame : latest.schemaId = id := h.carries_unique hcarries hslug
  simp only [ownerOf, hid, latestSchemaWithSlug?, hlatest, Option.map_some, hsame]
  cases s.versionsOf id <;> rfl

/-- **A draft that means a stored schema continues its history**, whether it names the schema or
not. -/
theorem Pinned.ownerOf_of_stored (h : Pinned s.versions)
    (htarget : s.IsTarget fresh d id) (hstored : s.IsStored id)
    (hfresh : d.schemaId = none → s.IsNewSchema fresh) :
    s.ownerOf fresh d (Slug.normalize d.slug) =
      (s.versionsOf id).map fun history => (id, history) := by
  cases htarget with
  | named hid => exact ownerOf_of_named hid hstored
  | carrying hid hslug => exact h.ownerOf_of_carrying hid hslug
  | minted hid hslug =>
    obtain ⟨row, hrow, hschema⟩ := hstored
    exact absurd hschema (hfresh hid row hrow)

/-! ## Two ways to say the same -/

/-- Creation reads of a draft's schema no more than its history. -/
theorem createSchema_congr {target : Option SchemaId}
    (h : s.ownerOf c.fresh { d with schemaId := target } (Slug.normalize d.slug) =
      s.ownerOf c.fresh d (Slug.normalize d.slug)) :
    s.createSchema c { d with schemaId := target } = s.createSchema c d := by
  unfold createSchema
  rw [show ({ d with schemaId := target } : SchemaDraft).check = d.check from rfl]
  cases hd : d.check with
  | error e => rfl
  | ok checked =>
    obtain ⟨-, rfl⟩ := SchemaDraft.check_eq_ok_iff.1 hd
    have hwork : createVersion c { d with schemaId := target }
        ⟨Slug.normalize d.slug, d.readVersion.toOption.join⟩ s =
          createVersion c d ⟨Slug.normalize d.slug, d.readVersion.toOption.join⟩ s := by
      simp only [createVersion, h]
      rfl
    simp only [Transaction.execute, hwork]

/-- **Naming a schema by its slug is naming it.** -/
theorem Pinned.createSchema_of_carrying (h : Pinned s.versions) (hid : d.schemaId = none)
    (hslug : s.Carries id (Slug.normalize d.slug)) :
    s.createSchema c { d with schemaId := some id } = s.createSchema c d := by
  refine createSchema_congr ?_
  rw [h.ownerOf_of_carrying hid hslug, ownerOf_of_named rfl hslug.isStored]

/-- All spellings of a slug are the same to a creation. -/
theorem createSchema_of_spelling {spelling : String}
    (h : Slug.normalize spelling = Slug.normalize d.slug) :
    s.createSchema c { d with slug := spelling } = s.createSchema c d := by
  have hcheck : ({ d with slug := spelling } : SchemaDraft).check = d.check := by
    simp only [SchemaDraft.check, SchemaDraft.errors, SchemaDraft.slugErrors, h]
    rfl
  unfold createSchema
  rw [hcheck]
  cases d.check <;> rfl

/-- A creation that goes through adds to the schema whose history it has read. -/
theorem ownerOf_of_createSchema (h : s.createSchema c d = (.ok record, s')) :
    ∃ history, s.ownerOf c.fresh d (Slug.normalize d.slug) = .ok (record.schemaId, history) := by
  obtain ⟨checked, hd, hplan, -⟩ := createSchema_eq_ok h
  obtain ⟨-, rfl⟩ := SchemaDraft.check_eq_ok_iff.1 hd
  obtain ⟨id, history, version, howner, -, -, -, -, -, rfl⟩ := planBy_eq_ok_iff.1 hplan
  exact ⟨history, (ownerOf_eq s c.fresh d _).trans howner⟩

end Space

open Space

/-! ## What it says -/

/-- **Naming a schema by a slug and by its identifier are the same request.** In every reachable
space a slug that some version carries, deleted or not, belongs to exactly one schema. A creation
whose draft has a spelling of the slug, and names no schema, answers and leaves behind the same as
if it named that schema, and the same for every spelling. If no version carries the slug, then a
creation adds to no stored schema. -/
theorem slug_names_schema {run : List Step}
    (hrun : Site.fresh.Along (fun site step => step.MintsNew site) run) (d : SchemaDraft)
    (hnone : d.schemaId = none) :
    let s := (Site.fresh.after run).space
    ((∃ row ∈ s.versions, row.slug = Slug.normalize d.slug) →
      ∃ id, (∀ i, s.Carries i (Slug.normalize d.slug) ↔ i = id) ∧
        ∀ c spelling, Slug.normalize spelling = Slug.normalize d.slug →
          s.createSchema c { d with slug := spelling, schemaId := some id } =
              s.createSchema c { d with slug := spelling } ∧
            s.createSchema c { d with slug := spelling } = s.createSchema c d) ∧
      ((∀ row ∈ s.versions, row.slug ≠ Slug.normalize d.slug) →
        ∀ c record s', s.IsNewSchema c.fresh → s.createSchema c d = (.ok record, s') →
          ¬s.IsStored record.schemaId) := by
  intro s
  have hpinned : Pinned s.versions := Site.pinned_after hrun
  constructor
  · rintro ⟨row, hrow, hslug⟩
    have hcarries : s.Carries row.schemaId (Slug.normalize d.slug) := ⟨row, hrow, rfl, hslug⟩
    refine ⟨row.schemaId, fun i => ⟨fun hi => hpinned.carries_unique hi hcarries,
      fun hi => hi ▸ hcarries⟩, fun c spelling hspelling => ?_⟩
    refine ⟨?_, createSchema_of_spelling hspelling⟩
    exact hpinned.createSchema_of_carrying (d := { d with slug := spelling }) hnone
      (hspelling ▸ hcarries)
  · intro hfree c record s' hnew hcreate
    obtain ⟨history, howner⟩ := ownerOf_of_createSchema hcreate
    rw [ownerOf_of_minted hnone (not_carries_iff.2 hfree)] at howner
    obtain ⟨hminted, -⟩ := Prod.mk.inj (Except.ok.inj howner)
    rintro ⟨row, hrow, hschema⟩
    exact hnew row hrow (hschema.trans hminted.symm)

/-- A second version is created under another spelling of the slug of the first. -/
theorem slug_names_schema_sample :
    let s := (Site.fresh.after (Sample.run.take 3)).space
    ∃ id, (∀ i, s.Carries i "notes" ↔ i = id) ∧
      s.createSchema (.calm 1 Sample.second)
          { Sample.draft with slug := " nOTES!", schemaId := some id } =
        s.createSchema (.calm 1 Sample.second) { Sample.draft with slug := " nOTES!" } := by
  have hslug : Slug.normalize Sample.draft.slug = "notes" := by decide +kernel
  have hspelling : Slug.normalize " nOTES!" = Slug.normalize Sample.draft.slug := by decide +kernel
  have hstored : ∃ row ∈ (Site.fresh.after (Sample.run.take 3)).space.versions,
      row.slug = Slug.normalize Sample.draft.slug := by
    rw [Sample.after_three, hslug]
    exact ⟨_, List.mem_singleton_self _, rfl⟩
  obtain ⟨id, hid, hsame⟩ :=
    (slug_names_schema Sample.mintsNew_three Sample.draft rfl).1 hstored
  rw [hslug] at hid
  exact ⟨id, hid, (hsame (.calm 1 Sample.second) " nOTES!" hspelling).1⟩

end SchemaVault
