import SchemaVault.Proofs.Schemas.Decision
import SchemaVault.Proofs.Schemas.ActiveHistory
import SchemaVault.Proofs.Schemas.Naming
import SchemaVault.Proofs.Schemas.Numbering

/-!
# How a creation comes out

A creation that nobody disturbs is decided by a list of rules (`Space.creationRules`), the first of
which looks at the draft alone (`SchemaDraft.WellFormed`). The next ones are those of the plan
(`planRules`), which look at what is stored of the schema that the draft means, and the last those
of storing (`storeRules`). If all rules hold, the space gains the version (`Space.gaining`).

The two halves of the work are followed one after the other (`Pinned.plan_obeys`,
`Pinned.store_obeys`) and put together in `Pinned.creation_decides`. In a pinned space the storage
can refuse a planned version only for its number or its table, and whatever row of a schema is
looked at, the schema is pinned to the same table and slug. `creation_exact` is the outcome of a
creation in every reachable space.
-/

namespace SchemaVault

/-! ## Drafts -/

namespace SchemaDraft

variable {d : SchemaDraft} {checked : Checked}

/-- Whether nothing is wrong with a draft, whatever is stored. -/
structure WellFormed (d : SchemaDraft) : Prop where
  tableName : TableName.isValid d.tableName = true
  slug : Slug.normalize d.slug ≠ ""
  /-- The definition is an object with a member at least that compiles. -/
  definition : ∃ member members schema,
    d.definition = .object (member :: members) ∧ Schema.compile d.definition = .ok schema
  category : Text.isAllBlank d.category = false
  version : ∀ text, d.version = some text → ∃ v, Version.read text = .ok v

theorem exists_readVersion_iff :
    (∃ asked, d.readVersion = .ok asked) ↔
      ∀ text, d.version = some text → ∃ v, Version.read text = .ok v := by
  unfold readVersion
  cases d.version with
  | none => simp
  | some text => cases h : Version.read text <;> simp [h, Except.map]

/-- **A draft is well formed if nothing is wrong with any field.** -/
theorem wellFormed_iff :
    d.WellFormed ↔ d.tableNameErrors = [] ∧ d.slugErrors = [] ∧ d.definitionErrors = [] ∧
      d.categoryErrors = [] ∧ d.versionErrors = [] := by
  have hslug : d.slugErrors = [] ↔ Slug.normalize d.slug ≠ "" := by simp [slugErrors]
  have hcategory : d.categoryErrors = [] ↔ Text.isAllBlank d.category = false := by
    simp [categoryErrors]
  rw [tableNameErrors_eq_nil_iff, hslug, definitionErrors_eq_nil_iff, hcategory,
    versionErrors_eq_nil_iff, exists_readVersion_iff]
  constructor
  · exact fun h => ⟨h.tableName, h.slug, h.definition, h.category, h.version⟩
  · rintro ⟨htable, hslug, hdefinition, hcategory, hversion⟩
    exact ⟨htable, hslug, hdefinition, hcategory, hversion⟩

theorem check_of_wellFormed (h : d.WellFormed) :
    ∃ asked, d.readVersion = .ok asked ∧ d.check = .ok ⟨Slug.normalize d.slug, asked⟩ := by
  obtain ⟨asked, hasked⟩ := exists_readVersion_iff.2 h.version
  refine ⟨asked, hasked, check_eq_ok_iff.2 ⟨wellFormed_iff.1 h, ?_⟩⟩
  rw [hasked]
  rfl

/-- A draft that is not well formed is told all that is wrong with it. -/
theorem check_of_not_wellFormed (h : ¬d.WellFormed) : d.check = .error (.validation d.errors) := by
  cases hcheck : d.check with
  | ok checked => exact absurd (wellFormed_iff.2 (check_eq_ok_iff.1 hcheck).1) h
  | error f =>
    rcases Transaction.bind_eq_error.1 hcheck with hcheck | ⟨_, -, hcheck⟩
    · rw [FieldErrors.check_eq_error hcheck]
    · cases hcheck

/-- What in a draft differs from a stored version of the schema that it means. -/
def deviations (d : SchemaDraft) (row : VersionRow) : FieldErrors :=
  .ofPairs (
    (if row.tableName = d.tableName then [] else [("tableName", Space.mustStay row.tableName)]) ++
    (if row.slug = Slug.normalize d.slug then [] else [("slug", Space.mustStay row.slug)]))

theorem deviations_isEmpty_iff {row : VersionRow} :
    (d.deviations row).isEmpty ↔
      row.tableName = d.tableName ∧ row.slug = Slug.normalize d.slug := by
  rw [deviations, FieldErrors.ofPairs_isEmpty]
  by_cases htable : row.tableName = d.tableName <;>
    by_cases hslug : row.slug = Slug.normalize d.slug <;> simp [htable, hslug]

end SchemaDraft

namespace Space

variable {s s' : Space} {c : Circumstances} {d : SchemaDraft} {checked : SchemaDraft.Checked}
variable {id : SchemaId} {number : Version} {history : List SchemaRecord} {record : SchemaRecord}
variable {row : VersionRow}

/-! ## Rules -/

/-- Whether all stored definitions of a schema can be read. -/
def Legible (s : Space) (id : SchemaId) : Prop :=
  ∀ row ∈ s.versions, row.schemaId = id → (Json.read? row.definition).isSome

/-- What in a draft differs from the stored versions of a schema. -/
def deviations (s : Space) (d : SchemaDraft) (id : SchemaId) : FieldErrors :=
  match s.versions.find? (·.schemaId == id) with
  | some row => d.deviations row
  | none => .empty

/-- The rules of planning a version. -/
def planRules (s : Space) (d : SchemaDraft) (id : SchemaId) (number : Version) : List Rule :=
  [⟨d.schemaId = some id → s.IsStored id, .notFound ("schema " ++ id.text)⟩,
    ⟨s.Legible id, storageFailed "create schema"⟩,
    ⟨¬s.HasVersion id number, versionTaken id number⟩,
    ⟨∀ row ∈ s.versions, row.schemaId = id →
        row.tableName = d.tableName ∧ row.slug = Slug.normalize d.slug,
      .validation (s.deviations d id)⟩,
    ⟨∃ category ∈ s.categories, category.id = d.category ∧ category.deleted = false,
      .invalid "categoryId" "unknown or deleted category"⟩]

/-- The rules of storing a planned version. -/
def storeRules (s : Space) (d : SchemaDraft) (id : SchemaId) (number : Version) : List Rule :=
  [⟨number.FitsStorage, storageFailed "create schema"⟩,
    s.tableRule id d.tableName]

/-- The rules of a creation. -/
def creationRules (s : Space) (d : SchemaDraft) (id : SchemaId) (number : Version) : List Rule :=
  ⟨d.WellFormed, .validation d.errors⟩ :: (s.planRules d id number ++ s.storeRules d id number)

/-- What a space becomes that gains a version: all other versions of the schema are made inactive,
and nothing else changes. -/
def gaining (s : Space) (record : SchemaRecord) : Space :=
  { s with
    versions := (s.versions.map fun v =>
      if v.schemaId = record.schemaId then { v with active := false } else v) ++ [rowOf record] }

/-! ## Planning -/

/-- What deviates is told by the first stored row of the schema, if there is one. -/
theorem deviations_cases (s : Space) (d : SchemaDraft) (id : SchemaId) :
    ¬s.IsStored id ∧ s.deviations d id = .empty ∨
      ∃ row ∈ s.versions, row.schemaId = id ∧ s.deviations d id = d.deviations row := by
  unfold deviations
  cases hfind : s.versions.find? (·.schemaId == id) with
  | none =>
    refine .inl ⟨fun ⟨row, hrow, hschema⟩ => ?_, rfl⟩
    exact List.find?_eq_none.1 hfind row hrow (beq_iff_eq.2 hschema)
  | some row =>
    have hschema := List.find?_some hfind
    exact .inr ⟨row, List.mem_of_find?_eq_some hfind, beq_iff_eq.1 hschema, rfl⟩

/-- Whichever version of a schema counts as its first, a draft is told the same. -/
theorem Pinned.identityErrorsBy_eq_deviations (h : Pinned s.versions)
    (hhistory : s.versionsOf id = .ok history) :
    identityErrorsBy SchemaVersion.first? d (Slug.normalize d.slug) history =
      s.deviations d id := by
  rcases s.deviations_cases d id with ⟨hnone, hsame⟩ | ⟨row, hrow, hschema, hsame⟩
  · rw [versionsOf_of_not_isStored hnone] at hhistory
    obtain rfl := Except.ok.inj hhistory
    rw [hsame]
    rfl
  · obtain ⟨r, hr, -⟩ := read_of_versionsOf hhistory hrow hschema
    obtain ⟨v, hv⟩ := SchemaVersion.first?_picks.some_of_mem hr
    obtain ⟨u, hu, huschema, hread⟩ :=
      mem_of_versionsOf hhistory (SchemaVersion.first?_picks.mem_of_some hv)
    obtain ⟨_, -, rfl⟩ := VersionRow.read_eq_ok.1 hread
    obtain ⟨htable, hslug⟩ := (h u hu row hrow).schema (huschema.trans hschema.symm)
    rw [identityErrorsBy, hv, hsame]
    simp only [identityErrors, SchemaVersion.first?, List.foldl_nil, SchemaVersion.withDefinition,
      htable, hslug, SchemaDraft.deviations]

/-- Nothing deviates if all stored versions of the schema have the table and the slug. -/
theorem Pinned.deviations_isEmpty_iff (h : Pinned s.versions) :
    (s.deviations d id).isEmpty ↔ ∀ row ∈ s.versions, row.schemaId = id →
      row.tableName = d.tableName ∧ row.slug = Slug.normalize d.slug := by
  rcases s.deviations_cases d id with ⟨hnone, hsame⟩ | ⟨row, hrow, hschema, hsame⟩
  · rw [hsame]
    exact iff_of_true rfl fun row hrow hschema => absurd ⟨row, hrow, hschema⟩ hnone
  · rw [hsame, SchemaDraft.deviations_isEmpty_iff]
    constructor
    · intro hsame u hu huschema
      obtain ⟨htable, hslug⟩ := (h u hu row hrow).schema (huschema.trans hschema.symm)
      rwa [htable, hslug]
    · exact fun hall => hall row hrow hschema

/-- What is stored of a schema is legible exactly if its history can be read. -/
theorem legible_iff : s.Legible id ↔ ∃ history, s.versionsOf id = .ok history := by
  constructor
  · intro h
    have hrows : ∀ row ∈ s.versions.filter (·.schemaId == id),
        ∃ r, VersionRow.read row = .ok r := by
      intro row hrow
      obtain ⟨hmem, hschema⟩ := List.mem_filter.1 hrow
      obtain ⟨definition, hdefinition⟩ :=
        Option.isSome_iff_exists.1 (h row hmem (beq_iff_eq.1 hschema))
      exact ⟨_, VersionRow.read_eq_ok.2 ⟨definition, hdefinition, rfl⟩⟩
    obtain ⟨records, hrecords⟩ := Transaction.exists_mapM_eq_ok hrows
    exact ⟨_, Transaction.bind_eq_ok.2 ⟨records, hrecords, rfl⟩⟩
  · rintro ⟨history, hhistory⟩ row hrow hschema
    obtain ⟨r, -, hread⟩ := read_of_versionsOf hhistory hrow hschema
    obtain ⟨definition, hdefinition, -⟩ := VersionRow.read_eq_ok.1 hread
    exact Option.isSome_iff_exists.2 ⟨definition, hdefinition⟩

theorem Readable.legible (h : Readable s.versions) (id : SchemaId) : s.Legible id :=
  fun row hrow _ => Option.isSome_iff_exists.2 (h row hrow)

/-- Of a schema that is not stored everything can be read. -/
theorem isStored_of_not_legible (h : ¬s.Legible id) : s.IsStored id := by
  by_contra hstored
  exact h fun row hrow hschema => absurd ⟨row, hrow, hschema⟩ hstored

theorem versionsOf_of_not_legible (h : ¬s.Legible id) :
    s.versionsOf id = .error .unconvertible := by
  cases hhistory : s.versionsOf id with
  | ok history => exact absurd (legible_iff.2 ⟨history, hhistory⟩) h
  | error e => rw [versionsOf_eq_error hhistory]

theorem categoryIsLive_iff {category : String} :
    s.categoryIsLive category ↔ ∃ c ∈ s.categories, c.id = category ∧ c.deleted = false := by
  simp [categoryIsLive]

/-- What planning comes to once the schema and the number are known. -/
theorem planBy_of_owner (hc : c.Undisturbed)
    {first : List SchemaRecord → Option SchemaRecord}
    {latest : List VersionRow → Option VersionRow}
    (howner : s.ownerBy latest c.fresh d checked.slug = .ok (id, history))
    (hnumber : versionFor checked.version history = .ok number) :
    planBy first latest c d checked s =
      if history.any (·.version == number) then .error (.failed (versionTaken id number))
      else if !(identityErrorsBy first d checked.slug history).isEmpty then
        .error (.failed (.validation (identityErrorsBy first d checked.slug history)))
      else if !s.categoryIsLive d.category then
        .error (.failed (.invalid "categoryId" "unknown or deleted category"))
      else .ok (newRecord c d checked.slug id number) := by
  rw [planBy, howner]
  simp only [bind, Except.bind, hnumber]
  split
  · rfl
  · rw [FieldErrors.check, Transaction.check_of_undisturbed hc]
    cases (identityErrorsBy first d checked.slug history).isEmpty <;>
      cases s.categoryIsLive d.category <;> rfl

/-- A draft finds a history if the schema that it means is stored, or need not be. -/
theorem Pinned.ownerOf_of_isTarget (h : Pinned s.versions) (htarget : s.IsTarget c.fresh d id)
    (hfresh : d.schemaId = none → s.IsNewSchema c.fresh)
    (hknown : d.schemaId = some id → s.IsStored id) (hhistory : s.versionsOf id = .ok history) :
    s.ownerOf c.fresh d (Slug.normalize d.slug) = .ok (id, history) := by
  by_cases hstored : s.IsStored id
  · rw [h.ownerOf_of_stored htarget hstored hfresh, hhistory]
    rfl
  · cases htarget with
    | named hid => exact absurd (hknown hid) hstored
    | carrying hid hslug => exact absurd hslug.isStored hstored
    | minted hid hslug =>
      rw [versionsOf_of_not_isStored hstored] at hhistory
      rw [ownerOf_of_minted hid hslug, Except.ok.inj hhistory]

/-- **Planning obeys its rules.** -/
theorem Pinned.plan_obeys (h : Pinned s.versions) (hc : c.Undisturbed)
    (htarget : s.IsTarget c.fresh d id) (hfresh : d.schemaId = none → s.IsNewSchema c.fresh)
    {asked : Option Version} (hasked : d.readVersion = .ok asked)
    (hnumber : s.IsNumber d id number) :
    Obeys "create schema"
      (planBy SchemaVersion.first? SchemaVersion.latest? c d ⟨Slug.normalize d.slug, asked⟩ s)
      (newRecord c d (Slug.normalize d.slug) id number) (s.planRules d id number) := by
  refine ⟨fun hunknown => ?_, fun hknown => ⟨fun hillegible => ?_, fun hlegible => ?_⟩⟩
  · obtain ⟨hid, hstored⟩ := Classical.not_imp.1 hunknown
    refine failsAs_of_failed ?_
    rw [planBy, ← ownerOf_eq, ownerOf_of_unknown hid hstored]
    rfl
  · have hstored := isStored_of_not_legible hillegible
    refine failsAs_of_unconvertible ?_
    rw [planBy, ← ownerOf_eq, h.ownerOf_of_stored htarget hstored hfresh,
      versionsOf_of_not_legible hillegible]
    rfl
  · obtain ⟨history, hhistory⟩ := legible_iff.1 hlegible
    have howner := (ownerOf_eq s c.fresh d (Slug.normalize d.slug)).symm.trans
      (h.ownerOf_of_isTarget htarget hfresh hknown hhistory)
    have hplan : planBy SchemaVersion.first? SchemaVersion.latest? c d
        ⟨Slug.normalize d.slug, asked⟩ s = _ :=
      planBy_of_owner hc howner (versionFor_of_isNumber hasked hhistory hnumber)
    have htaken : history.any (·.version == number) = true ↔ s.HasVersion id number := by
      rw [← mem_numbers_of_versionsOf hhistory, List.any_eq_true, List.mem_map]
      simp only [beq_iff_eq]
    rw [h.identityErrorsBy_eq_deviations hhistory] at hplan
    rw [hplan]
    refine Obeys.of_refusal ?_ fun _ => Obeys.of_refusal ?_ fun _ =>
      Obeys.of_refusal ?_ fun _ => rfl
    · rw [htaken, not_not]
    · rw [← h.deviations_isEmpty_iff, Bool.not_eq_true', Bool.not_eq_true]
    · rw [← categoryIsLive_iff, Bool.not_eq_true', Bool.not_eq_true]

/-! ## Storing -/

/-- No row of another schema has the slug of a draft that means a schema. -/
theorem Pinned.slug_of_isTarget (h : Pinned s.versions) (htarget : s.IsTarget c.fresh d id)
    (hknown : d.schemaId = some id → s.IsStored id)
    (hsame : ∀ row ∈ s.versions, row.schemaId = id →
      row.tableName = d.tableName ∧ row.slug = Slug.normalize d.slug)
    (hrow : row ∈ s.versions) (hslug : row.slug = Slug.normalize d.slug) : row.schemaId = id := by
  have hcarries : s.Carries row.schemaId (Slug.normalize d.slug) := ⟨row, hrow, rfl, hslug⟩
  cases htarget with
  | named hid =>
    obtain ⟨u, hu, huschema⟩ := hknown hid
    exact h.carries_unique hcarries ⟨u, hu, huschema, (hsame u hu huschema).2⟩
  | carrying hid hcarried => exact h.carries_unique hcarries hcarried
  | minted hid hnone => exact absurd hcarries (hnone _)

theorem gaining_eq (s : Space) (record : SchemaRecord) :
    s.gaining record = { s with
      versions := (s.deactivate record.schemaId fun _ => true).versions ++ [rowOf record] } := by
  simp only [gaining, deactivate, and_true]

/-- **Storing a planned version obeys its rules.** Only the row of a live version of another schema
can be in the way, and only by its table. -/
theorem Pinned.store_obeys (h : Pinned s.versions) (htarget : s.IsTarget c.fresh d id)
    (hplan : ∀ rule ∈ s.planRules d id number, rule.holds) :
    Obeys "create schema" (s.storePlanned (newRecord c d (Slug.normalize d.slug) id number))
      (s.gaining (newRecord c d (Slug.normalize d.slug) id number)) (s.storeRules d id number) := by
  simp only [planRules, List.forall_mem_cons] at hplan
  obtain ⟨hknown, -, hnew, hsame, -⟩ := hplan
  refine ⟨fun hlarge => ?_, fun hfits => ?_⟩
  · refine failsAs_of_unconvertible (insertVersion_of_not_canStore ?_)
    exact Bool.eq_false_iff.2 (Version.canStore_iff.not.2 hlarge)
  · have hcheck : Obeys "create schema"
        (checkLive (s.deactivate id fun _ => true).versions
          (rowOf (newRecord c d (Slug.normalize d.slug) id number))) ()
        [s.tableRule id d.tableName] := by
      refine checkLive_obeys rfl rfl ?_ fun o hlive => ?_
      · exact fun o ho hschema hslug =>
          hschema (h.slug_of_isTarget htarget hknown hsame ho hslug)
      · rw [mem_live_deactivate_iff hlive, eq_self, and_true]
    have hkeys : ∀ v ∈ (s.deactivate id fun _ => true).versions, ¬v.isVersion id number :=
      forall_not_isVersion_deactivate.2 fun v hv hkey => hnew ⟨v, hv, hkey⟩
    rw [storePlanned, insertVersion_of_new (Version.canStore_iff.2 hfits) hkeys, gaining_eq]
    exact hcheck.bind_pure

/-- **A creation that nobody disturbs obeys its rules.** -/
theorem Pinned.creation_decides (h : Pinned s.versions) (hc : c.Undisturbed)
    (hfree : c.locked = false) (htarget : s.IsTarget c.fresh d id)
    (hfresh : d.schemaId = none → s.IsNewSchema c.fresh)
    (hnumber : d.WellFormed → s.IsNumber d id number) :
    Decides (fun f => s.createSchema c d = (.error f, s))
      (s.createSchema c d = (.ok (newRecord c d (Slug.normalize d.slug) id number),
        s.gaining (newRecord c d (Slug.normalize d.slug) id number)))
      (s.creationRules d id number) := by
  refine ⟨fun hill => ?_, fun hwell => ?_⟩
  · rw [createSchema, SchemaDraft.check_of_not_wellFormed hill]
  · obtain ⟨asked, hasked, hcheck⟩ := SchemaDraft.check_of_wellFormed hwell
    have hwork : Obeys "create schema" (createVersion c d ⟨Slug.normalize d.slug, asked⟩ s)
        (newRecord c d (Slug.normalize d.slug) id number,
          s.gaining (newRecord c d (Slug.normalize d.slug) id number))
        (s.planRules d id number ++ s.storeRules d id number) := by
      rw [createVersion_eq]
      exact (h.plan_obeys hc htarget hfresh hasked (hnumber hwell)).bind fun hplan =>
        (h.store_obeys htarget hplan).bind_pure
    have hconduct : s.createSchema c d =
        conduct "create schema" c (createVersion c d ⟨Slug.normalize d.slug, asked⟩) s := by
      rw [createSchema, hcheck]
      rfl
    rw [hconduct]
    exact Obeys.decides hc hfree hwork

/-- Which versions are live after a creation that goes through. -/
theorem isActive_of_createSchema {i : SchemaId} {v : Version}
    (h : s.createSchema c d = (.ok record, s')) :
    IsActive s'.versions i v ↔
      if i = record.schemaId then v = record.version else IsActive s.versions i v := by
  obtain ⟨checked, -, hplan, hstore⟩ := createSchema_eq_ok h
  have hrecord := record_of_planBy hplan
  rw [isActive_store (by rw [hrecord]; rfl) (by rw [hrecord]; rfl) hstore]
  simp only [eq_comm]

end Space

open Space

/-! ## What it says -/

/-- **The outcome of a creation.** In every reachable space, if nobody disturbs it and a minted
identifier is new, a draft means exactly one schema, a well-formed draft gives its version exactly
one number, and the creation succeeds exactly if all its rules hold. Then the new version is the
live one of its schema, all others of the schema are inactive and nothing else has changed. Else the
first rule that does not hold decides what is told, and nothing has changed at all. The rule that
what is stored of the schema can be read always holds if what has been stored can be. -/
theorem creation_exact {run : List Step}
    (hrun : Site.fresh.Along (fun site step => step.MintsNew site) run) {c : Circumstances}
    (hc : c.Undisturbed) (hfree : c.locked = false) (d : SchemaDraft)
    (hfresh : d.schemaId = none → (Site.fresh.after run).space.IsNewSchema c.fresh) :
    let s := (Site.fresh.after run).space
    ∃ id number, (∀ i, s.IsTarget c.fresh d i ↔ i = id) ∧
      (d.WellFormed → ∀ v, s.IsNumber d id v ↔ v = number) ∧
      (Site.fresh.Along (fun _ step => step.Asks Request.DefinitionReads) run → s.Legible id) ∧
      let record := newRecord c d (Slug.normalize d.slug) id number
      let rules := s.creationRules d id number
      ((∃ r s', s.createSchema c d = (.ok r, s')) ↔ ∀ rule ∈ rules, rule.holds) ∧
        Decides (fun f => s.createSchema c d = (.error f, s))
          (s.createSchema c d = (.ok record, s.gaining record) ∧
            ∀ i v, IsActive (s.gaining record).versions i v ↔
              if i = id then v = number else IsActive s.versions i v) rules := by
  intro s
  have hpinned : Pinned s.versions := Site.pinned_after hrun
  obtain ⟨id, htarget⟩ := hpinned.exists_isTarget_iff c.fresh d
  have hnumber : ∃ number, d.WellFormed → ∀ v, s.IsNumber d id v ↔ v = number := by
    by_cases hwell : d.WellFormed
    · obtain ⟨number, hnumber⟩ := exists_isNumber_iff (Site.fitStorage_after run) hwell.version id
      exact ⟨number, fun _ => hnumber⟩
    · exact ⟨.first, fun h => absurd h hwell⟩
  obtain ⟨number, hnumber⟩ := hnumber
  have hdecides := hpinned.creation_decides hc hfree ((htarget id).2 rfl) hfresh fun hwell =>
    (hnumber hwell number).2 rfl
  refine ⟨id, number, htarget, hnumber, fun hreads => ?_, ?_, ?_⟩
  · exact Readable.legible (Site.readable_of_reads hreads) id
  · have hsucceeds : Decides _ (∃ r s', s.createSchema c d = (.ok r, s')) _ :=
      hdecides.imp (fun f h => h) fun hok => ⟨_, _, hok⟩
    refine Decides.granted_iff hsucceeds ?_
    rintro f hrefused ⟨r, s', hok⟩
    rw [hrefused] at hok
    cases hok
  · exact hdecides.imp (fun f h => h) fun hok => ⟨hok, fun i v => isActive_of_createSchema hok⟩

/-- The second version of the sample run obeys all rules. -/
theorem creation_exact_sample :
    let s := (Site.fresh.after (Sample.run.take 3)).space
    ∃ id number, s.IsTarget Sample.second Sample.draft id ∧
      (∃ r s', s.createSchema (.calm 1 Sample.second) Sample.draft = (.ok r, s')) ∧
      ∀ rule ∈ s.creationRules Sample.draft id number, rule.holds := by
  intro s
  have hcreate : ∃ r s', s.createSchema (.calm 1 Sample.second) Sample.draft = (.ok r, s') := by
    refine ⟨(Sample.row ⟨1, 0, 1⟩ 1 true).withDefinition Sample.definition,
      (Site.fresh.after (Sample.run.take 4)).space, ?_⟩
    rw [show s = _ from Sample.after_three, Sample.after_four]
    simp only [createSchema, Sample.check_draft]
    decide +kernel
  obtain ⟨id, number, htarget, -, -, hsucceeds, -⟩ :=
    creation_exact Sample.mintsNew_three (Circumstances.calm_undisturbed 1 Sample.second) rfl
      Sample.draft fun _ => Sample.isNewSchema_three
  exact ⟨id, number, (htarget id).2 rfl, hcreate, hsucceeds.1 hcreate⟩

/-- A draft that asks for a version, in some category. -/
def Sample.draftOf (version : Option String) (category : String) : SchemaDraft :=
  { draft with version := version, category := category }

theorem Sample.wellFormed_draftOf {version : Option String} {category : String}
    {asked : Option Version} (hcategory : Text.isAllBlank category = false)
    (hversion : (draftOf version category).readVersion = .ok asked) :
    (draftOf version category).WellFormed where
  tableName := by
    change TableName.isValid "notes" = true
    decide +kernel
  slug := by
    change Slug.normalize "Notes" ≠ ""
    decide +kernel
  definition := ⟨_, _, schema, rfl, compile_definition⟩
  category := hcategory
  version := SchemaDraft.exists_readVersion_iff.1 ⟨asked, hversion⟩

theorem Sample.check_draftOf {version : Option String} {category : String}
    {asked : Option Version} (hcategory : Text.isAllBlank category = false)
    (hversion : (draftOf version category).readVersion = .ok asked) :
    (draftOf version category).check = .ok ⟨"notes", asked⟩ := by
  obtain ⟨asked', hasked, hcheck⟩ :=
    SchemaDraft.check_of_wellFormed (wellFormed_draftOf hcategory hversion)
  obtain rfl := Except.ok.inj (hversion.symm.trans hasked)
  have hslug : Slug.normalize "Notes" = "notes" := by decide +kernel
  rw [hcheck, show (draftOf version category).slug = "Notes" from rfl, hslug]

/-- The first rules of a creation that would look at the size of the number together with its being
new, and then at anything else. -/
def sizeFirstRules (s : Space) (d : SchemaDraft) (id : SchemaId) (number : Version)
    (told : Failure) : List Rule :=
  [⟨d.WellFormed, .validation d.errors⟩,
    ⟨d.schemaId = some id → s.IsStored id, .notFound ("schema " ++ id.text)⟩,
    ⟨¬s.HasVersion id number ∧ number.FitsStorage, told⟩]

/-- A draft whose version has a number that is too large to be stored. -/
def Sample.oversized (category : String) : SchemaDraft :=
  draftOf (some "9223372036854775808.0.0") category

theorem Sample.readVersion_oversized (category : String) :
    (oversized category).readVersion = .ok (some ⟨9223372036854775808, 0, 0⟩) := by
  change (Version.read "9223372036854775808.0.0").map some = _
  decide +kernel

/-- **The category is looked at before the size of the number.** Two drafts that differ in their
category alone have the same number, which is too large. One of them is told that the storage
failed, the other that its category is unknown. So whatever is told of the size of a number, and
whatever is looked at later, the size does not decide both. -/
theorem oversized_decided_after_category :
    let s := (Site.fresh.after (Sample.run.take 2)).space
    let c := Circumstances.calm 2 Sample.first
    let number : Version := ⟨9223372036854775808, 0, 0⟩
    (∀ category, s.IsTarget c.fresh (Sample.oversized category) ⟨Sample.first⟩ ∧
      s.IsNumber (Sample.oversized category) ⟨Sample.first⟩ number) ∧
    s.createSchema c (Sample.oversized "c") = (.error (.internal "create schema failed"), s) ∧
    s.createSchema c (Sample.oversized "none") =
      (.error (.invalid "categoryId" "unknown or deleted category"), s) ∧
    ∀ told later, ∃ category, (Sample.oversized category).WellFormed ∧
      ¬Decides (fun f => s.createSchema c (Sample.oversized category) = (.error f, s))
        (∃ r s', s.createSchema c (Sample.oversized category) = (.ok r, s'))
        (sizeFirstRules s (Sample.oversized category) ⟨Sample.first⟩ number told ++ later) := by
  intro s c number
  have hs : s = ⟨[⟨"c", "C", false⟩], [], [], [1, 2]⟩ := Sample.after_two
  have hwell : ∀ category, Text.isAllBlank category = false →
      (Sample.oversized category).WellFormed := fun category hcategory =>
    Sample.wellFormed_draftOf hcategory (Sample.readVersion_oversized category)
  have hcheck : ∀ category, Text.isAllBlank category = false →
      (Sample.oversized category).check = .ok ⟨"notes", some number⟩ := fun category hcategory =>
    Sample.check_draftOf hcategory (Sample.readVersion_oversized category)
  have hlive : s.createSchema c (Sample.oversized "c") =
      (.error (.internal "create schema failed"), s) := by
    rw [hs]
    simp only [createSchema, hcheck "c" (by decide +kernel)]
    decide +kernel
  have hunknown : s.createSchema c (Sample.oversized "none") =
      (.error (.invalid "categoryId" "unknown or deleted category"), s) := by
    rw [hs]
    simp only [createSchema, hcheck "none" (by decide +kernel)]
    decide +kernel
  refine ⟨fun category => ⟨.minted rfl ?_, ?_⟩, hlive, hunknown, fun told later => ?_⟩
  · rw [not_carries_iff, hs]
    exact List.forall_mem_nil _
  · rw [isNumber_of_some rfl]
    decide +kernel
  · -- The draft names no schema, so the rule on the number is the first that does not hold.
    have hbroken : ∀ category, (Sample.oversized category).WellFormed →
        ¬(s.createSchema c (Sample.oversized category) = (.error told, s)) →
        ∃ category, (Sample.oversized category).WellFormed ∧
          ¬Decides (fun f => s.createSchema c (Sample.oversized category) = (.error f, s))
            (∃ r s', s.createSchema c (Sample.oversized category) = (.ok r, s'))
            (sizeFirstRules s (Sample.oversized category) ⟨Sample.first⟩ number told ++ later) := by
      refine fun category hcategory hother => ⟨category, hcategory, fun h => hother ?_⟩
      have hunnamed : (Sample.oversized category).schemaId ≠ some ⟨Sample.first⟩ :=
        (Option.some_ne_none _).symm
      refine ((h.2 hcategory).2 fun hnamed => absurd hnamed hunnamed).1 fun hnumber => ?_
      exact absurd hnumber.2.major (by decide)
    by_cases htold : told = .internal "create schema failed"
    · refine hbroken "none" (hwell "none" (by decide +kernel)) fun h => ?_
      rw [hunknown, htold] at h
      cases h
    · refine hbroken "c" (hwell "c" (by decide +kernel)) fun h => htold ?_
      rw [hlive] at h
      exact (Except.error.inj (Prod.mk.inj h).1).symm

end SchemaVault
