import SchemaVault.Proofs.Schemas.SingleActive

/-!
# Stored entities conform to their stamps

An entity is stored with the version whose validator has accepted its payload. The version stays
stored, with its table and its definition, so the stored payload conforms to it for ever
(`entity_conforms`), even when the version is no longer active or has been deleted. The invariant,
`Faithful`, joins the schema versions, the entities and the validators that handles keep: each kept
validator is compiled from the stored definition of its version, so it makes no difference whether
a payload is checked by a kept validator or by one that is compiled anew.
-/

namespace SchemaVault

/-- A request that writes a payload writes one that reads back. -/
def Request.PayloadReadsBack : Request → Prop
  | .createEntity _ payload _ => payload.ReadsBack
  | .updateEntity _ _ payload _ => payload.ReadsBack
  | _ => True

namespace Space

variable {s s' : Space} {rows : List VersionRow} {row row' : VersionRow} {v : Validator}
variable {e : EntityRow} {kept : ValidatorCache} {table : String} {payload : Json}

/-! ## Validators and stamps -/

/-- Whether a validator is the one of a stored version. -/
structure Backs (row : VersionRow) (v : Validator) : Prop where
  schemaId : row.schemaId = v.schemaId
  version : row.version = v.version
  compiles : ∃ definition, Json.read? row.definition = some definition ∧
    Schema.compile definition = .ok v.schema

/-- Whether the validator of a stored version of its table has accepted an entity. -/
def Accepted (rows : List VersionRow) (e : EntityRow) : Prop :=
  ∃ row ∈ rows, ∃ v payload, row.tableName = e.tableName ∧ Backs row v ∧
    v.schemaId = e.schemaId ∧ v.version = e.schemaVersion ∧
    Json.read? e.payload = some payload ∧ v.schema.issues payload = []

/-- Whether the stamp of an entity names a stored version, and the only one of its number, which
governed the table of the entity and to whose stored definition the stored payload conforms. -/
def Conforms (rows : List VersionRow) (e : EntityRow) : Prop :=
  ∃ row, (rows.filter fun v => v.isVersion e.schemaId e.schemaVersion) = [row] ∧
    row.tableName = e.tableName ∧
    ∃ definition schema payload, Json.read? row.definition = some definition ∧
      Schema.compile definition = .ok schema ∧ Json.read? e.payload = some payload ∧
      schema.issues payload = []

theorem Backs.of_lasting (h : Backs row v) (hsame : row'.lasting = row.lasting) : Backs row' v := by
  obtain ⟨hid, hversion, hdefinition, -⟩ := SchemaVersion.lasting_eq_iff.1 hsame
  exact ⟨hid.trans h.schemaId, hversion.trans h.version, by rw [hdefinition]; exact h.compiles⟩

theorem Backs.of_compiled {r : SchemaRecord} (hread : VersionRow.read row = .ok r)
    (h : ValidatorCache.compiled r = .ok v) : Backs row v := by
  obtain ⟨definition, hdefinition, rfl⟩ := VersionRow.read_eq_ok.1 hread
  obtain ⟨hid, hversion, hcompile⟩ := compiled_eq_ok_iff.1 h
  exact ⟨hid.symm, hversion.symm, definition, hdefinition, hcompile⟩

/-- A version that governs a table is stored with that table. -/
theorem row_of_governingSchema {r : SchemaRecord} (h : s.governingSchema table = .ok r) :
    ∃ row ∈ s.versions, row.tableName = table ∧ VersionRow.read row = .ok r := by
  obtain ⟨row, hrow, hread⟩ := governingSchema_eq_ok_iff.1 h
  have hgoverns := List.find?_some hrow
  simp only [Bool.and_eq_true, beq_iff_eq] at hgoverns
  exact ⟨row, List.mem_of_find?_eq_some hrow, hgoverns.1, hread⟩

/-- **The validator under which an operation runs is the one of a stored version of its table**,
kept or compiled anew. -/
theorem Guards.backed (h : s.Guards kept table v) (hrows : Consistent s.versions)
    (hkept : ∀ w ∈ kept, ∃ row ∈ s.versions, Backs row w) :
    ∃ row ∈ s.versions, row.tableName = table ∧ Backs row v := by
  obtain ⟨r, hgoverning, hobtain⟩ := h
  obtain ⟨row, hrow, htable, hread⟩ := row_of_governingSchema hgoverning
  rcases obtain_cases hobtain with ⟨hv, hid, hversion⟩ | hcompiled
  · -- A kept validator is the one of some row of that number, and there is only one.
    obtain ⟨row', hrow', hbacks⟩ := hkept v hv
    obtain ⟨definition, -, rfl⟩ := VersionRow.read_eq_ok.1 hread
    obtain rfl := hrows.eq_of_key hrow' hrow (hbacks.schemaId.trans hid)
      (hbacks.version.trans hversion)
    exact ⟨row', hrow', htable, hbacks⟩
  · exact ⟨row, hrow, htable, .of_compiled hread hcompiled⟩

theorem Accepted.conforms (h : Accepted rows e) (hrows : Consistent rows) : Conforms rows e := by
  obtain ⟨row, hrow, v, payload, htable, hbacks, hid, hversion, hread, hissues⟩ := h
  obtain ⟨definition, hdefinition, hcompile⟩ := hbacks.compiles
  refine ⟨row, ?_, htable, definition, v.schema, payload, hdefinition, hcompile, hread, hissues⟩
  rw [← hid, ← hversion, ← hbacks.schemaId, ← hbacks.version]
  exact hrows.filter_eq hrow

/-! ## Moves -/

/-- An entity after a move has been stored before, but for its mark of deletion, or has been
accepted by a validator that guards its table. -/
theorem Move.accepted {c : Circumstances} {r : Request} {a : Answer} (h : Move c s kept r a s')
    (hread : r.PayloadReadsBack) (hrows : Consistent s.versions)
    (hkept : ∀ w ∈ kept, ∃ row ∈ s.versions, Backs row w)
    (hold : ∀ e ∈ s.entities, Accepted s.versions e) :
    ∀ e ∈ s'.entities, Accepted s.versions e := by
  cases hr : r.changesEntity with
  | false =>
    rw [h.entities hr]
    exact hold
  | true =>
  cases h with
  | rest h => exact hold
  | createSchema | activateSchema | deleteSchema | changeCategories => cases hr
  | createEntity hv h =>
    obtain ⟨hissues, -, -, hinsert⟩ := createWork_eq_ok_iff.1 h
    obtain ⟨-, rfl⟩ := insertEntity_eq_ok_iff.1 hinsert
    obtain ⟨row, hrow, htable, hbacks⟩ := hv.backed hrows hkept
    intro e he
    rcases List.mem_append.1 he with he | he
    · exact hold e he
    · obtain rfl := List.mem_singleton.1 he
      exact ⟨row, hrow, _, _, htable, hbacks, rfl, rfl, hread, hissues⟩
  | updateEntity hv h =>
    obtain ⟨hissues, -, hchange, -⟩ := updateWork_eq_ok_iff.1 h
    obtain ⟨-, rfl⟩ := changeEntity_eq_ok_iff.1 hchange
    obtain ⟨row, hrow, htable, hbacks⟩ := hv.backed hrows hkept
    intro e he
    obtain ⟨u, hu, rfl⟩ := List.mem_map.1 he
    split
    · -- The update writes payload and stamp together, and leaves the table.
      rename_i hlive
      simp only [isLiveEntity, Bool.and_eq_true, beq_iff_eq] at hlive
      exact ⟨row, hrow, _, _, htable.trans hlive.1.2.symm, hbacks, rfl, rfl, hread, hissues⟩
    · exact hold u hu
  | deleteEntity h =>
    obtain ⟨-, hchange⟩ := deleteWork_eq_ok_iff.1 h
    obtain ⟨-, rfl⟩ := changeEntity_eq_ok_iff.1 hchange
    intro e he
    obtain ⟨u, hu, rfl⟩ := List.mem_map.1 he
    split
    · exact hold u hu
    · exact hold u hu

end Space

open Space

/-! ## Runs -/

/-- Rows that can be stored together, validators of stored versions, and accepted entities. -/
structure Site.Faithful (site : Site) : Prop where
  rows : Consistent site.space.versions
  kept : ∀ handle, ∀ v ∈ site.kept handle, ∃ row ∈ site.space.versions, Backs row v
  entities : ∀ e ∈ site.space.entities, Accepted site.space.versions e

/-- What has been accepted once stays accepted, since its version stays stored. -/
theorem Site.accepted_next (site : Site) (step : Step) {e : EntityRow}
    (h : Accepted site.space.versions e) : Accepted (site.next step).space.versions e := by
  obtain ⟨row, hrow, v, payload, htable, hbacks, hrest⟩ := h
  obtain ⟨row', hrow', hsame⟩ := site.lasting_next step hrow
  obtain ⟨-, -, -, hsameTable, -⟩ := SchemaVersion.lasting_eq_iff.1 hsame
  exact ⟨row', hrow', v, payload, hsameTable.trans htable, hbacks.of_lasting hsame, hrest⟩

/-- Whether every kept validator is the one of a stored version. -/
def Site.IsBacked (site : Site) : Prop :=
  ∀ handle, ∀ v ∈ site.kept handle, ∃ row ∈ site.space.versions, Backs row v

theorem Site.IsBacked.next {site : Site} (h : site.IsBacked) (step : Step) :
    (site.next step).IsBacked := by
  intro handle v hv
  have hrow : ∃ row ∈ site.space.versions, Backs row v := by
    rcases Site.kept_next hv with ⟨handle', hv⟩ | ⟨table, r, hgoverning, hcompiled⟩
    · exact h handle' v hv
    · obtain ⟨row, hrow, -, hread⟩ := row_of_governingSchema hgoverning
      exact ⟨row, hrow, .of_compiled hread hcompiled⟩
  obtain ⟨row, hrow, hbacks⟩ := hrow
  obtain ⟨row', hrow', hsame⟩ := site.lasting_next step hrow
  exact ⟨row', hrow', hbacks.of_lasting hsame⟩

/-- **Every kept validator is the one of a stored version**, after every run. -/
theorem Site.isBacked_after (run : List Step) : (fresh.after run).IsBacked :=
  Site.after_of_step (fun _ step _ h => h.next step) Site.along_true fun _ _ h => nomatch h

theorem Site.Faithful.next {site : Site} (h : site.Faithful) {step : Step}
    (hread : step.Asks Request.PayloadReadsBack) : (site.next step).Faithful where
  rows := site.consistent_next step h.rows
  kept := Site.IsBacked.next h.kept step
  entities e he := by
    refine site.accepted_next step ?_
    rcases site.next_cases step with ⟨-, migrations, hs⟩ | ⟨_, c, limits, r, a, rfl, -, hmove⟩
    · rw [hs] at he
      exact h.entities e he
    · exact hmove.accepted hread h.rows (h.kept _) h.entities e he

theorem Site.faithful_fresh : fresh.Faithful :=
  ⟨.nil, fun _ _ h => (nomatch h), fun _ h => nomatch h⟩

/-- **Every stored entity conforms to its stamp**, deleted or not, after every run, whatever the
circumstances, if the payloads that are written read back. -/
theorem entity_conforms {run : List Step}
    (hrun : Site.fresh.Along (fun _ step => step.Asks Request.PayloadReadsBack) run) :
    ∀ e ∈ (Site.fresh.after run).space.entities,
      Conforms (Site.fresh.after run).space.versions e := by
  have h : (Site.fresh.after run).Faithful :=
    Site.after_of_step (fun _ _ hread h => h.next hread) hrun Site.faithful_fresh
  exact fun e he => (h.entities e he).conforms h.rows

/-- The entity of a run that stores one conforms to its stamp. -/
theorem entity_conforms_sample :
    Site.fresh.Along (fun _ step => step.Asks Request.PayloadReadsBack) Sample.run ∧
      ∃ e ∈ (Site.fresh.after Sample.run).space.entities,
        e.schemaVersion = ⟨1, 0, 1⟩ ∧
          Conforms (Site.fresh.after Sample.run).space.versions e := by
  have hpayload : Sample.payload.ReadsBack := by
    unfold Json.ReadsBack
    decide +kernel
  have hrun : Site.fresh.Along (fun _ step => step.Asks Request.PayloadReadsBack) Sample.run :=
    ⟨trivial, trivial, trivial, trivial, hpayload, trivial⟩
  have hstored : ∃ e ∈ (Site.fresh.after Sample.run).space.entities,
      e.schemaVersion = ⟨1, 0, 1⟩ := by
    have hcompiled : ValidatorCache.compiled
        ((Sample.row ⟨1, 0, 1⟩ 1 true).withDefinition Sample.definition) =
          .ok ⟨⟨Sample.first⟩, ⟨1, 0, 1⟩, Sample.schema⟩ :=
      compiled_eq_ok_iff.2 ⟨rfl, rfl, Sample.compile_definition⟩
    have hgoverning : (Site.fresh.after (Sample.run.take 4)).space.governingSchema "notes" =
        .ok ((Sample.row ⟨1, 0, 1⟩ 1 true).withDefinition Sample.definition) := by
      rw [Sample.after_four]
      decide +kernel
    have hkept : (Site.fresh.after (Sample.run.take 4)).kept 0 = [] := rfl
    change ∃ e ∈ ((Site.fresh.after (Sample.run.take 4)).next (.asking 0 (.calm 3 Sample.second)
      .standard (.createEntity "notes" Sample.payload none))).space.entities, _
    simp only [Site.next, answer, createEntity, Transaction.executeKeeping, withValidator,
      hgoverning, hkept, ValidatorCache.obtain, ValidatorCache.find?, List.find?, hcompiled]
    rw [Sample.after_four]
    decide +kernel
  obtain ⟨e, he, hversion⟩ := hstored
  exact ⟨hrun, e, he, hversion, entity_conforms hrun e he⟩

end SchemaVault
