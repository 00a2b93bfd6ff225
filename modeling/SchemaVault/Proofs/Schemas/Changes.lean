import SchemaVault.Proofs.Failure
import SchemaVault.Proofs.Schemas.Statements
import SchemaVault.Schemas.Operations

/-!
# The changes of schema versions

When each unit of work on schema versions goes through and what it leaves behind.

* Creation plans a record, which only reads the space, and then stores it. `planBy` is the plan,
  with the two choices in it as parameters: which version of a history counts as the first, and
  which of the versions with a slug counts as the latest. `createVersion_eq` says that creation is
  its instance for `first?` and `latest?`. A planned record continues a stored schema, whose table
  and slug it shares and none of whose versions it repeats, or begins a new one under a slug that
  nothing stored carries (`plan_cases`).
* `activateVersion_eq_ok_iff` and `deleteVersion_eq_ok_iff` do the same for the other two.
-/

namespace SchemaVault

namespace Space

variable {s s' : Space} {c : Circumstances} {d : SchemaDraft} {checked : SchemaDraft.Checked}
variable {id : SchemaId} {version : Version} {record : SchemaRecord} {e : StorageError}

/-! ## Plans -/

/-- The schema that a draft adds a version to, with its history. -/
def ownerBy (latest : List VersionRow → Option VersionRow) (s : Space) (fresh : Identifier)
    (d : SchemaDraft) (slug : String) : Except StorageError (SchemaId × List SchemaRecord) :=
  match d.schemaId with
  | some _ => s.ownerOf fresh d slug
  | none =>
    match latest (s.versions.filter (·.slug == slug)) with
    | some v => do
      let history ← s.versionsOf v.schemaId
      return (v.schemaId, history)
    | none => .ok (⟨fresh⟩, [])

/-- What in a draft differs from the first version of the schema. -/
def identityErrorsBy (first : List SchemaRecord → Option SchemaRecord) (d : SchemaDraft)
    (slug : String) (history : List SchemaRecord) : FieldErrors :=
  match first history with
  | none => .empty
  | some v => identityErrors d slug [v]

/-- Plans a version: all of its creation but the storing. -/
def planBy (first : List SchemaRecord → Option SchemaRecord)
    (latest : List VersionRow → Option VersionRow) (c : Circumstances) (d : SchemaDraft)
    (checked : SchemaDraft.Checked) (s : Space) : Except StorageError SchemaRecord := do
  let (id, history) ← s.ownerBy latest c.fresh d checked.slug
  let version ← versionFor checked.version history
  if history.any (·.version == version) then
    throw (.failed (.conflict ("schema " ++ id.text ++ " already has version " ++ version.text)))
  (identityErrorsBy first d checked.slug history).check.mapError .failed
  if !s.categoryIsLive d.category then
    throw (.failed (.invalid "categoryId" "unknown or deleted category"))
  c.check .midway
  return newRecord c d checked.slug id version

/-- Stores a planned version as the active one of its schema. -/
def storePlanned (s : Space) (record : SchemaRecord) : Except StorageError Space :=
  (s.deactivate record.schemaId fun _ => true).insertVersion
    (record.withDefinition record.definition.print)

/-- Creates a version, with its choices made in the given ways. -/
def createVersionBy (first : List SchemaRecord → Option SchemaRecord)
    (latest : List VersionRow → Option VersionRow) (c : Circumstances) (d : SchemaDraft)
    (checked : SchemaDraft.Checked) : Work SchemaRecord := fun s => do
  let record ← planBy first latest c d checked s
  let s ← s.storePlanned record
  return (record, s)

theorem ownerOf_eq (s : Space) (fresh : Identifier) (d : SchemaDraft) (slug : String) :
    s.ownerOf fresh d slug = s.ownerBy SchemaVersion.latest? fresh d slug := by
  unfold ownerBy
  cases h : d.schemaId with
  | some id => rfl
  | none =>
    simp only [ownerOf, h, latestSchemaWithSlug?]
    cases SchemaVersion.latest? (s.versions.filter (·.slug == slug)) <;> rfl

theorem identityErrors_eq (d : SchemaDraft) (slug : String) (history : List SchemaRecord) :
    identityErrors d slug history = identityErrorsBy SchemaVersion.first? d slug history := by
  unfold identityErrorsBy
  cases h : SchemaVersion.first? history with
  | none => simp [identityErrors, h]
  | some v =>
    rw [identityErrors, h]
    rfl

/-- **Creation is a plan and its storing.** -/
theorem createVersion_eq (c : Circumstances) (d : SchemaDraft) (checked : SchemaDraft.Checked) :
    createVersion c d checked =
      createVersionBy SchemaVersion.first? SchemaVersion.latest? c d checked := by
  funext s
  simp only [createVersion, createVersionBy, planBy, storePlanned, ownerOf_eq, identityErrors_eq,
    bind_assoc]
  refine bind_congr fun owner => bind_congr fun version => ?_
  split
  · rfl
  · rw [bind_assoc]
    refine bind_congr fun _ => ?_
    split
    · rfl
    · simp only [bind_assoc, pure_bind]
      rfl

section Plans

variable {first : List SchemaRecord → Option SchemaRecord}
  {latest : List VersionRow → Option VersionRow}

theorem planBy_eq_ok_iff :
    planBy first latest c d checked s = .ok record ↔
      ∃ id history version, s.ownerBy latest c.fresh d checked.slug = .ok (id, history) ∧
        versionFor checked.version history = .ok version ∧
        (∀ r ∈ history, r.version ≠ version) ∧
        (identityErrorsBy first d checked.slug history).isEmpty ∧
        s.categoryIsLive d.category ∧ c.check .midway = .ok () ∧
        newRecord c d checked.slug id version = record := by
  simp only [planBy, Transaction.bind_eq_ok, Transaction.refusal_eq_ok, Transaction.pure_eq_ok,
    Transaction.mapError_eq_ok]
  constructor
  · rintro ⟨⟨id, history⟩, howner, version, hversion, hnew, _, hsame, hlive, _, hcheck, rfl⟩
    refine ⟨id, history, version, howner, hversion, ?_, FieldErrors.check_eq_ok_iff.1 hsame, ?_,
      hcheck, rfl⟩
    · simpa using hnew
    · simpa using hlive
  · rintro ⟨id, history, version, howner, hversion, hnew, hsame, hlive, hcheck, rfl⟩
    refine ⟨⟨id, history⟩, howner, version, hversion, ?_, (), FieldErrors.check_eq_ok_iff.2 hsame,
      ?_, (), hcheck, rfl⟩
    · simpa using hnew
    · simpa using hlive

/-- A planned record is live, and has the table and the slug of its draft. -/
theorem record_of_planBy (h : planBy first latest c d checked s = .ok record) :
    record = newRecord c d checked.slug record.schemaId record.version := by
  obtain ⟨id, history, version, -, -, -, -, -, -, rfl⟩ := planBy_eq_ok_iff.1 h
  rfl

theorem identityErrorsBy_isEmpty_iff {slug : String} {history : List SchemaRecord} :
    (identityErrorsBy first d slug history).isEmpty ↔
      ∀ v, first history = some v → v.tableName = d.tableName ∧ v.slug = slug := by
  unfold identityErrorsBy
  cases hfirst : first history with
  | none => simp [FieldErrors.empty, FieldErrors.isEmpty]
  | some v =>
    change (FieldErrors.ofPairs _).isEmpty ↔ _
    rw [FieldErrors.ofPairs_isEmpty]
    by_cases htable : v.tableName = d.tableName <;> by_cases hslug : v.slug = slug <;>
      simp [htable, hslug]

/-- The schema that a draft adds a version to is stored, or it is new and the slug is, too. -/
theorem ownerBy_cases (hlatest : Picks latest) {fresh : Identifier} {slug : String}
    {history : List SchemaRecord} (h : s.ownerBy latest fresh d slug = .ok (id, history)) :
    s.versionsOf id = .ok history ∧ (∃ row ∈ s.versions, row.schemaId = id) ∨
      (d.schemaId = none ∧ ∀ row ∈ s.versions, row.slug ≠ slug) ∧ id = ⟨fresh⟩ ∧ history = [] := by
  unfold ownerBy at h
  cases hid : d.schemaId with
  | some given =>
    simp only [hid, ownerOf, Transaction.bind_eq_ok, Transaction.refusal_eq_ok,
      Transaction.pure_eq_ok, Prod.mk.injEq] at h
    obtain ⟨_, hhistory, hne, rfl, rfl⟩ := h
    obtain ⟨r, hr⟩ := List.exists_mem_of_ne_nil _ (by simpa using hne)
    obtain ⟨row, hrow, hschema, -⟩ := mem_of_versionsOf hhistory hr
    exact .inl ⟨hhistory, row, hrow, hschema⟩
  | none =>
    simp only [hid] at h
    cases hv : latest (s.versions.filter (·.slug == slug)) with
    | some v =>
      simp only [hv, Transaction.bind_eq_ok, Transaction.pure_eq_ok, Prod.mk.injEq] at h
      obtain ⟨_, hhistory, rfl, rfl⟩ := h
      obtain ⟨hmem, -⟩ := List.mem_filter.1 (hlatest.mem_of_some hv)
      exact .inl ⟨hhistory, v, hmem, rfl⟩
    | none =>
      simp only [hv, Except.ok.injEq, Prod.mk.injEq] at h
      obtain ⟨rfl, rfl⟩ := h
      refine .inr ⟨⟨rfl, fun row hrow hslug => ?_⟩, rfl, rfl⟩
      have hmem : row ∈ s.versions.filter (·.slug == slug) :=
        List.mem_filter.2 ⟨hrow, by simpa using hslug⟩
      obtain ⟨v, hsome⟩ := hlatest.some_of_mem hmem
      simp [hv] at hsome

/-- **A planned record continues a stored schema or begins a new one.** It continues a schema with
the table and the slug of one of its versions, under a number that none of them has; it begins one
with the minted identifier, under a slug that nothing stored carries. -/
theorem plan_cases (hfirst : Picks first) (hlatest : Picks latest)
    (h : planBy first latest c d checked s = .ok record) :
    (∃ row ∈ s.versions, row.schemaId = record.schemaId ∧ row.tableName = record.tableName ∧
        row.slug = record.slug) ∧
        (∀ row ∈ s.versions, row.schemaId = record.schemaId → row.version ≠ record.version) ∨
      record.schemaId = ⟨c.fresh⟩ ∧ ∀ row ∈ s.versions, row.slug ≠ record.slug := by
  obtain ⟨id, history, version, howner, -, hnew, hsame, -, -, rfl⟩ := planBy_eq_ok_iff.1 h
  rcases ownerBy_cases hlatest howner with ⟨hhistory, row, hrow, hid⟩ | ⟨⟨-, hslug⟩, hid, -⟩
  · refine .inl ⟨?_, fun row hrow hid hversion => ?_⟩
    · obtain ⟨r, hr, -⟩ := read_of_versionsOf hhistory hrow hid
      obtain ⟨v, hv⟩ := hfirst.some_of_mem hr
      obtain ⟨htable, hslug⟩ := identityErrorsBy_isEmpty_iff.1 hsame v hv
      obtain ⟨row', hrow', hid', hread⟩ := mem_of_versionsOf hhistory (hfirst.mem_of_some hv)
      obtain ⟨definition, -, rfl⟩ := VersionRow.read_eq_ok.1 hread
      exact ⟨row', hrow', hid', htable, hslug⟩
    · obtain ⟨r, hr, hread⟩ := read_of_versionsOf hhistory hrow hid
      obtain ⟨definition, -, rfl⟩ := VersionRow.read_eq_ok.1 hread
      exact hnew _ hr hversion
  · exact .inr ⟨hid, hslug⟩

/-- The refusal of a version that its schema already has. -/
def versionTaken (id : SchemaId) (version : Version) : Failure :=
  .conflict ("schema " ++ id.text ++ " already has version " ++ version.text)

theorem ownerBy_eq_error {fresh : Identifier} {slug : String}
    (h : s.ownerBy latest fresh d slug = .error e) :
    e = .unconvertible ∨ ∃ what, e = .failed (.notFound what) := by
  unfold ownerBy at h
  cases hid : d.schemaId with
  | some given =>
    simp only [hid, ownerOf, Transaction.bind_eq_error, Transaction.refusal_eq_error] at h
    rcases h with h | ⟨history, -, ⟨-, rfl⟩ | ⟨-, h⟩⟩
    · exact .inl (versionsOf_eq_error h)
    · exact .inr ⟨_, rfl⟩
    · simp [pure, Except.pure] at h
  | none =>
    simp only [hid] at h
    cases hv : latest (s.versions.filter (·.slug == slug)) with
    | some v =>
      simp only [hv, Transaction.bind_eq_error] at h
      rcases h with h | ⟨history, -, h⟩
      · exact .inl (versionsOf_eq_error h)
      · simp [pure, Except.pure] at h
    | none => simp [hv] at h

theorem versionFor_eq_error {asked : Option Version} {history : List SchemaRecord}
    (h : versionFor asked history = .error e) : ∃ errors, e = .failed (.validation errors) := by
  unfold versionFor at h
  cases asked with
  | some v => simp at h
  | none =>
    cases hnext : Version.next (history.map (·.version)) with
    | ok v => simp [hnext] at h
    | error f =>
      simp only [hnext, Except.error.injEq] at h
      exact ⟨_, h.symm⟩

/-- **Why a plan fails**: what is stored does not read, the draft is refused, or the operation is
called off. Of the refusals only that of a version that the schema already has is a conflict. -/
theorem planBy_eq_error (h : planBy first latest c d checked s = .error e) :
    e = .unconvertible ∨ e = .cancelled ∨ (∃ what, e = .failed (.notFound what)) ∨
      (∃ errors, e = .failed (.validation errors)) ∨
      ∃ id history version, s.ownerBy latest c.fresh d checked.slug = .ok (id, history) ∧
        versionFor checked.version history = .ok version ∧ (∃ r ∈ history, r.version = version) ∧
        e = .failed (versionTaken id version) := by
  simp only [planBy, Transaction.bind_eq_error, Transaction.refusal_eq_error,
    Transaction.mapError_eq_error] at h
  rcases h with h | ⟨owner, howner, h | ⟨version, hversion, ⟨htaken, rfl⟩ |
    ⟨-, ⟨f, hcheck, rfl⟩ | ⟨_, -, ⟨-, rfl⟩ | ⟨-, h | ⟨_, -, h⟩⟩⟩⟩⟩⟩
  · exact (ownerBy_eq_error h).imp_right fun h => .inr (.inl h)
  · exact .inr (.inr (.inr (.inl (versionFor_eq_error h))))
  · exact .inr (.inr (.inr (.inr ⟨_, _, version, howner, hversion, by simpa using htaken, rfl⟩)))
  · exact .inr (.inr (.inr (.inl ⟨_, by rw [FieldErrors.check_eq_error hcheck]⟩)))
  · exact .inr (.inr (.inr (.inl ⟨_, rfl⟩)))
  · exact .inr (.inl (Transaction.check_eq_error h))
  · simp [pure, Except.pure] at h

/-- A plan that fails violates no constraint. -/
theorem constraint?_of_planBy (h : planBy first latest c d checked s = .error e) :
    e.constraint? = none := by
  rcases planBy_eq_error h with rfl | rfl | ⟨what, rfl⟩ | ⟨errors, rfl⟩ |
    ⟨id, history, version, -, -, -, rfl⟩ <;> rfl

end Plans

/-! ## Storing -/

/-- The row of a planned record. -/
def rowOf (record : SchemaRecord) : VersionRow := record.withDefinition record.definition.print

theorem storePlanned_eq_ok_iff :
    s.storePlanned record = .ok s' ↔
      canStore record.version ∧
        checkLive (s.deactivate record.schemaId fun _ => true).versions (rowOf record) = .ok () ∧
        (∀ v ∈ s.versions, ¬v.isVersion record.schemaId record.version) ∧
        { s with
          versions := (s.deactivate record.schemaId fun _ => true).versions ++ [rowOf record] } =
          s' := by
  have hkeys : (∀ v ∈ (s.deactivate record.schemaId fun _ => true).versions,
      ¬v.isVersion record.schemaId record.version) ↔
      ∀ v ∈ s.versions, ¬v.isVersion record.schemaId record.version :=
    forall_not_isVersion_deactivate
  rw [storePlanned, insertVersion_eq_ok_iff, ← hkeys]
  rfl

/-! ## Activation and deletion -/

theorem activateVersion_eq_ok_iff :
    activateVersion c id version s = .ok (record, s') ↔
      ∃ r, s.version? id version = .ok (some r) ∧ r.deleted = false ∧ c.check .midway = .ok () ∧
        (s.deactivate id fun v => v.version != version).markActive id version = .ok s' ∧
        { r with active := true } = record := by
  unfold activateVersion
  rw [Transaction.bind_eq_ok]
  constructor
  · rintro ⟨found, hfound, h⟩
    cases found with
    | none => simp [throw, throwThe, MonadExceptOf.throw] at h
    | some r =>
      simp only [Transaction.refusal_eq_ok, Transaction.bind_eq_ok, Transaction.pure_eq_ok,
        Prod.mk.injEq] at h
      obtain ⟨hdeleted, _, hcheck, _, hmark, hrecord, rfl⟩ := h
      exact ⟨r, hfound, by simpa using hdeleted, hcheck, hmark, hrecord⟩
  · rintro ⟨r, hfound, hdeleted, hcheck, hmark, hrecord⟩
    refine ⟨some r, hfound, ?_⟩
    simp only [Transaction.refusal_eq_ok, Transaction.bind_eq_ok, Transaction.pure_eq_ok,
      Prod.mk.injEq]
    exact ⟨by simpa using hdeleted, (), hcheck, s', hmark, hrecord, rfl⟩

theorem activateVersion_eq_error (h : activateVersion c id version s = .error e) :
    e.constraint? = none ∨ (∃ r, s.version? id version = .ok (some r) ∧ r.deleted = false) ∧
      (s.deactivate id fun v => v.version != version).markActive id version = .error e := by
  unfold activateVersion at h
  rcases Transaction.bind_eq_error.1 h with h | ⟨found, hfound, h⟩
  · rw [findVersion?_eq_error h]
    exact .inl rfl
  · cases found with
    | none =>
      rw [← Except.error.inj h]
      exact .inl rfl
    | some r =>
      rcases Transaction.refusal_eq_error.1 h with ⟨-, rfl⟩ | ⟨hdeleted, h⟩
      · exact .inl rfl
      · rcases Transaction.bind_eq_error.1 h with h | ⟨_, -, h⟩
        · rw [Transaction.check_eq_error h]
          exact .inl rfl
        · rcases Transaction.bind_eq_error.1 h with h | ⟨_, -, h⟩
          · exact .inr ⟨⟨r, hfound, by simpa using hdeleted⟩, h⟩
          · simp [pure, Except.pure] at h

theorem deleteVersion_eq_ok_iff {u : Unit} :
    deleteVersion id version s = .ok (u, s') ↔
      (∃ v ∈ s.versions, v.isVersion id version ∧ v.deleted = false) ∧
        { s with
          versions := s.versions.map fun v =>
            if v.isVersion id version && !v.deleted then { v with active := false, deleted := true }
            else v } = s' := by
  simp only [deleteVersion]
  split
  · rename_i hany
    simp only [List.any_eq_true, Bool.and_eq_true, Bool.not_eq_true'] at hany
    simp [hany]
  · rename_i hany
    simp only [List.any_eq_true, Bool.and_eq_true, Bool.not_eq_true'] at hany
    simp [hany]

end Space

end SchemaVault
