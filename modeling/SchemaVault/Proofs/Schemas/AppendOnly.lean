import SchemaVault.Proofs.Schemas.Draft
import SchemaVault.Proofs.Schemas.Identity
import SchemaVault.Proofs.Schemas.SingleActive
import SchemaVault.Proofs.Version

/-!
# The history of versions only grows

A version that has been stored stays stored for ever. Of all that is said of it only the two flags
change, and a version that is deleted stays deleted: `Aged` relates a row to what becomes of it.
So whatever has been stored at any moment of a run is stored at its end (`everStored_iff`), and the
history that a creation reads holds all numbers that its schema has ever had. That is why no number
is given twice, and why the number of a creation that asks for none is new (`append_only`).
-/

namespace SchemaVault

namespace Space

variable {s s' : Space} {row row' row'' : VersionRow} {c : Circumstances} {d : SchemaDraft}
variable {checked : SchemaDraft.Checked} {record : SchemaRecord} {e : StorageError}
variable {id : SchemaId} {version : Version}

/-! ## What becomes of a row -/

/-- Whether a row can become another one: all but its flags stays, and a deleted row stays
deleted. -/
structure Aged (row row' : VersionRow) : Prop where
  lasting : row'.lasting = row.lasting
  deleted : row.deleted = true → row'.deleted = true

theorem Aged.refl (row : VersionRow) : Aged row row := ⟨rfl, id⟩

theorem Aged.trans (h : Aged row row') (h' : Aged row' row'') : Aged row row'' :=
  ⟨h'.lasting.trans h.lasting, fun hdeleted => h'.deleted (h.deleted hdeleted)⟩

theorem Aged.isVersion (h : Aged row row') (hrow : row.isVersion id version) :
    row'.isVersion id version := by
  obtain ⟨hid, hversion, -⟩ := SchemaVersion.lasting_eq_iff.1 h.lasting
  rw [SchemaVersion.isVersion_iff, hid, hversion, ← SchemaVersion.isVersion_iff]
  exact hrow

theorem aged_of_map {rows : List VersionRow} {f : VersionRow → VersionRow}
    (hf : ∀ v, Aged v (f v)) : ∀ row ∈ rows, ∃ row' ∈ rows.map f, Aged row row' :=
  fun row hrow => ⟨f row, List.mem_map_of_mem hrow, hf row⟩

theorem aged_deactivate (s : Space) (id : SchemaId) (p : VersionRow → Bool) :
    ∀ row ∈ s.versions, ∃ row' ∈ (s.deactivate id p).versions, Aged row row' :=
  aged_of_map fun v => by
    split
    · exact ⟨rfl, fun h => h⟩
    · exact .refl v

/-- **Every row that a request finds stays stored**, aged at most. -/
theorem Turn.ages {r : Request} {a : Answer} (h : Turn c s r a s') :
    ∀ row ∈ s.versions, ∃ row' ∈ s'.versions, Aged row row' := by
  intro row hrow
  cases h with
  | rest h =>
    rw [h]
    exact ⟨row, hrow, .refl row⟩
  | @create _ _ record _ _ _ hstore =>
    obtain ⟨-, -, -, rfl⟩ := storePlanned_eq_ok_iff.1 hstore
    obtain ⟨row', hrow', haged⟩ := aged_deactivate s record.schemaId (fun _ => true) row hrow
    exact ⟨row', List.mem_append_left _ hrow', haged⟩
  | @activate id version _ _ h =>
    obtain ⟨_, -, -, -, hmark, -⟩ := activateVersion_eq_ok_iff.1 h
    obtain ⟨-, rfl⟩ := markActive_eq_ok_iff.1 hmark
    obtain ⟨row', hrow', haged⟩ :=
      aged_deactivate s id (fun v => v.version != version) row hrow
    refine ⟨_, List.mem_map_of_mem hrow', haged.trans ?_⟩
    split
    · exact ⟨rfl, fun h => h⟩
    · exact .refl row'
  | delete h =>
    obtain ⟨-, rfl⟩ := deleteVersion_eq_ok_iff.1 h
    refine aged_of_map (fun v => ?_) row hrow
    split
    · exact ⟨rfl, fun _ => rfl⟩
    · exact .refl v

/-! ## The numbers of creations -/

/-- A draft that passes its checks asks for the version that its text writes, or for none. -/
theorem readVersion_of_check (h : d.check = .ok checked) : d.readVersion = .ok checked.version := by
  obtain ⟨⟨-, -, -, -, hversion⟩, rfl⟩ := SchemaDraft.check_eq_ok_iff.1 h
  obtain ⟨asked, hread⟩ := SchemaDraft.versionErrors_eq_nil_iff.1 hversion
  rw [hread]
  rfl

/-- The history that a creation reads holds exactly the stored versions of its schema, if a new
schema has a new identifier. -/
theorem mem_history_iff {history : List SchemaRecord}
    (h : s.ownerBy SchemaVersion.latest? c.fresh d checked.slug = .ok (id, history))
    (hfresh : d.schemaId = none → s.IsNewSchema c.fresh) (v : Version) :
    v ∈ history.map (·.version) ↔ ∃ row ∈ s.versions, row.isVersion id v := by
  rcases ownerBy_cases SchemaVersion.latest?_picks h with ⟨hhistory, -⟩ | ⟨⟨hnone, -⟩, rfl, rfl⟩
  · exact mem_numbers_of_versionsOf hhistory
  · refine iff_of_false (fun hv => nomatch hv) ?_
    rintro ⟨row, hrow, hversion⟩
    exact hfresh hnone row hrow (SchemaVersion.isVersion_iff.1 hversion).1

/-- The version of a plan is the one that its draft asks for. -/
theorem version_of_planBy {first : List SchemaRecord → Option SchemaRecord}
    {latest : List VersionRow → Option VersionRow} (hd : d.check = .ok checked)
    (h : planBy first latest c d checked s = .ok record) {text : String}
    (htext : d.version = some text) : Version.read text = .ok record.version := by
  obtain ⟨_, _, version, -, hversion, -, -, -, -, rfl⟩ := planBy_eq_ok_iff.1 h
  have hread := readVersion_of_check hd
  rw [SchemaDraft.readVersion, htext] at hread
  cases hasked : Version.read text with
  | error e => simp [hasked, Except.map] at hread
  | ok asked =>
    simp only [hasked, Except.map, Except.ok.injEq] at hread
    simp only [← hread, versionFor, Except.ok.injEq] at hversion
    rw [hversion]
    rfl

/-- A draft that passes its checks without a version asks for none. -/
theorem version_of_check (hd : d.check = .ok checked) (hnone : d.version = none) :
    checked.version = none := by
  have hread := readVersion_of_check hd
  simp only [SchemaDraft.readVersion, hnone, Except.ok.injEq] at hread
  exact hread.symm

/-- The version that is given to a draft that asks for none follows the history. -/
theorem follows_of_versionFor {history : List SchemaRecord}
    (h : versionFor none history = .ok version) :
    Version.Follows (· ∈ history.map (·.version)) version := by
  unfold versionFor at h
  cases hnext : Version.next (history.map (·.version)) with
  | error e => simp [hnext] at h
  | ok v =>
    simp only [hnext, Except.ok.injEq] at h
    exact h ▸ Version.next_eq_ok_iff.1 hnext

/-- **The version of a plan whose draft asks for none is the one after all stored versions** of
the schema. -/
theorem follows_of_planBy (hd : d.check = .ok checked)
    (h : planBy SchemaVersion.first? SchemaVersion.latest? c d checked s = .ok record)
    (hnone : d.version = none) (hfresh : d.schemaId = none → s.IsNewSchema c.fresh) :
    Version.Follows (fun v => ∃ row ∈ s.versions, row.isVersion record.schemaId v)
      record.version := by
  obtain ⟨id, history, version, howner, hversion, -, -, -, -, rfl⟩ := planBy_eq_ok_iff.1 h
  rw [version_of_check hd hnone] at hversion
  have hfollows := follows_of_versionFor hversion
  simp only [mem_history_iff howner hfresh] at hfollows
  exact hfollows

/-! ## What a creation is told -/

/-- No failure of the storage is worded like the refusal of a version. -/
theorem eq_failed_of_versionTaken
    (h : e.toSchemaFailure "create schema" = versionTaken id version) :
    e = .failed (versionTaken id version) := by
  have hwording : ∀ text, .conflict text = versionTaken id version →
      text.toList.take 2 = ['s', 'c'] := by
    intro text htext
    rw [Failure.conflict.inj htext]
    simp only [String.toList_append]
    rfl
  unfold StorageError.toSchemaFailure at h
  split at h
  · exact absurd (hwording _ h) (by decide)
  · exact absurd (hwording _ h) (by decide)
  · exact absurd (hwording _ h) (by decide)
  · exact absurd (hwording _ h) (by decide)
  · exact absurd (hwording _ h) (by decide)
  · cases h
  all_goals
    unfold StorageError.toFailure at h
    split at h
    · rw [h]
    · cases h
    · split at h
      · exact absurd (hwording _ h) (by decide)
      · cases h

/-- **A creation that asks for no version is never told that the version is taken.** -/
theorem createVersion_ne_versionTaken (hd : d.check = .ok checked) (hnone : d.version = none) :
    createVersion c d checked s ≠ .error (.failed (versionTaken id version)) := by
  intro h
  rw [createVersion_eq] at h
  rcases Transaction.bind_eq_error.1 h with hplan | ⟨record, -, h⟩
  · rcases planBy_eq_error hplan with h | h | ⟨_, h⟩ | ⟨_, h⟩ |
      ⟨_, history, v, -, hversion, ⟨r, hr, hrv⟩, -⟩
    · cases h
    · cases h
    · cases h
    · cases h
    · rw [version_of_check hd hnone] at hversion
      have hfollows := follows_of_versionFor hversion
      exact Version.not_lt_self v (hfollows.lt (List.mem_map.2 ⟨r, hr, hrv⟩))
  · rcases Transaction.bind_eq_error.1 h with hstore | ⟨_, -, h⟩
    · rcases insertVersion_eq_error hstore with h | hlive | ⟨h, -⟩
      · cases h
      · obtain ⟨_, -, -, ⟨h, -⟩ | ⟨h, -⟩ | ⟨h, -⟩⟩ := checkLive_eq_error hlive <;> cases h
      · cases h
    · cases h

end Space

open Space

/-! ## Runs -/

theorem Site.after_append (site : Site) (run run' : List Step) :
    site.after (run ++ run') = (site.after run).after run' := by
  simp only [after, List.foldl_append]

theorem Site.ages_next (site : Site) (step : Step) :
    ∀ row ∈ site.space.versions, ∃ row' ∈ (site.next step).space.versions, Aged row row' := by
  rcases site.next_cases step with ⟨-, migrations, hs⟩ | ⟨_, c, limits, r, a, -, -, hmove⟩
  · rw [hs]
    exact fun row hrow => ⟨row, hrow, .refl row⟩
  · exact hmove.turn.ages

/-- **A stored row stays stored through a run**, aged at most. -/
theorem Site.ages_after {site : Site} (run : List Step) {row : VersionRow}
    (h : row ∈ site.space.versions) :
    ∃ row' ∈ (site.after run).space.versions, Aged row row' := by
  refine after_of_step (P := fun _ _ => True)
    (I := fun later => ∃ row' ∈ later.space.versions, Aged row row') (fun later step _ hrow => ?_)
    along_true ⟨row, h, .refl row⟩
  obtain ⟨row', hrow', haged⟩ := hrow
  obtain ⟨row'', hrow'', haged'⟩ := later.ages_next step row' hrow'
  exact ⟨row'', hrow'', haged.trans haged'⟩

/-- Whether a version has been stored at some moment of a run, deleted or not. -/
def EverStored (run : List Step) (id : SchemaId) (version : Version) : Prop :=
  ∃ n, ∃ row ∈ (Site.fresh.after (run.take n)).space.versions, row.isVersion id version

/-- **What has ever been stored is stored still.** -/
theorem everStored_iff {run : List Step} {id : SchemaId} {version : Version} :
    EverStored run id version ↔
      ∃ row ∈ (Site.fresh.after run).space.versions, row.isVersion id version := by
  constructor
  · rintro ⟨n, row, hrow, hversion⟩
    obtain ⟨row', hrow', haged⟩ := Site.ages_after (run.drop n) hrow
    rw [← Site.after_append, List.take_append_drop] at hrow'
    exact ⟨row', hrow', haged.isVersion hversion⟩
  · rintro ⟨row, hrow, hversion⟩
    refine ⟨run.length, row, ?_, hversion⟩
    rwa [List.take_length]

/-! ## What it says -/

section Creations

variable {s s' : Space} {c : Circumstances} {d : SchemaDraft} {record : SchemaRecord}

theorem createSchema_eq_ok (h : s.createSchema c d = (.ok record, s')) :
    ∃ checked, d.check = .ok checked ∧
      planBy SchemaVersion.first? SchemaVersion.latest? c d checked s = .ok record ∧
      s.storePlanned record = .ok s' := by
  unfold createSchema at h
  cases hd : d.check with
  | error e => simp [hd] at h
  | ok checked =>
    rcases Transaction.execute_cases c .write (createVersion c d checked) s with
      ⟨e, hrun⟩ | ⟨result, after, hwork, hrun⟩
    · simp [hd, hrun, Except.mapError] at h
    · simp only [hd, hrun, Except.mapError, Prod.mk.injEq, Except.ok.injEq] at h
      obtain ⟨rfl, rfl⟩ := h
      rw [createVersion_eq] at hwork
      obtain ⟨planned, hplan, hwork⟩ := Transaction.bind_eq_ok.1 hwork
      obtain ⟨stored, hstore, hwork⟩ := Transaction.bind_eq_ok.1 hwork
      obtain ⟨rfl, rfl⟩ := Prod.mk.inj (Transaction.pure_eq_ok.1 hwork)
      exact ⟨checked, rfl, hplan, hstore⟩

/-- A creation that asks for no version is not told that the version is taken, if the storage does
not take the part of the work. -/
theorem createSchema_ne_versionTaken (hnone : d.version = none)
    (hfault : ∀ f, c.fault ≠ some (.failed f)) (id : SchemaId) (version : Version) :
    (s.createSchema c d).1 ≠ .error (versionTaken id version) := by
  unfold createSchema
  cases hd : d.check with
  | error f =>
    obtain ⟨_, -, h⟩ | h := Transaction.bind_eq_error.1 hd |>.symm
    · cases h
    · rw [FieldErrors.check_eq_error h]
      exact fun h => nomatch h
  | ok checked =>
    intro h
    obtain ⟨e, hrun, htaken⟩ := Transaction.mapError_eq_error.1 h
    obtain rfl := eq_failed_of_versionTaken htaken
    rcases Transaction.execute_eq_error hrun with h | h | hwork | h
    · cases h
    · cases h
    · exact createVersion_ne_versionTaken hd hnone hwork
    · exact hfault _ h

end Creations

/-- **The history of versions only grows, and gives no number twice.** At any two moments of a run
the later space has each row of the earlier one, as the only one of its number and aged at most. A
creation stores a version that has never been stored, under the number that the text of its draft
writes. If it asks for no version, then it is given the one after all that have ever been stored of
its schema, and is never told that the version is taken. -/
theorem append_only (run : List Step) :
    (∀ m n, m ≤ n → ∀ row ∈ (Site.fresh.after (run.take m)).space.versions, ∃ row',
      ((Site.fresh.after (run.take n)).space.versions.filter fun v =>
        v.isVersion row.schemaId row.version) = [row'] ∧ Aged row row') ∧
    ∀ c d, let s := (Site.fresh.after run).space
      (∀ record s', s.createSchema c d = (.ok record, s') →
        ¬EverStored run record.schemaId record.version ∧ rowOf record ∈ s'.versions ∧
          (∀ text, d.version = some text → Version.read text = .ok record.version) ∧
          (d.version = none → (d.schemaId = none → s.IsNewSchema c.fresh) →
            Version.Follows (EverStored run record.schemaId) record.version ∧
              ∀ v, EverStored run record.schemaId v → v < record.version)) ∧
      (d.version = none → (∀ f, c.fault ≠ some (.failed f)) → ∀ id version,
        (s.createSchema c d).1 ≠ .error (versionTaken id version)) := by
  refine ⟨fun m n hmn row hrow => ?_, fun c d => ⟨fun record s' h => ?_, fun hnone hfault =>
    createSchema_ne_versionTaken hnone hfault⟩⟩
  · obtain ⟨k, rfl⟩ := Nat.exists_eq_add_of_le hmn
    rw [List.take_add, Site.after_append]
    obtain ⟨row', hrow', haged⟩ := Site.ages_after ((run.drop m).take k) hrow
    rw [← Site.after_append, ← List.take_add] at hrow' ⊢
    have honly := (Site.consistent_after (run.take (m + k))).filter_eq hrow'
    obtain ⟨hid, hversion, -⟩ := SchemaVersion.lasting_eq_iff.1 haged.lasting
    rw [hid, hversion] at honly
    exact ⟨row', honly, haged⟩
  · obtain ⟨checked, hd, hplan, hstore⟩ := createSchema_eq_ok h
    obtain ⟨-, -, hkeys, rfl⟩ := storePlanned_eq_ok_iff.1 hstore
    refine ⟨fun hstored => ?_, by simp, fun text => version_of_planBy hd hplan,
      fun hnone hfresh => ?_⟩
    · obtain ⟨row, hrow, hversion⟩ := everStored_iff.1 hstored
      exact hkeys row hrow hversion
    · have hfollows := follows_of_planBy hd hplan hnone hfresh
      simp only [← everStored_iff] at hfollows
      exact ⟨hfollows, fun v hv => hfollows.lt hv⟩

/-- The second version of a schema follows the first. -/
theorem append_only_sample :
    ∃ record s', (Site.fresh.after (Sample.run.take 3)).space.createSchema (.calm 1 Sample.second)
        Sample.draft = (.ok record, s') ∧ record.version = ⟨1, 0, 1⟩ ∧
      Version.Follows (EverStored (Sample.run.take 3) record.schemaId) record.version := by
  have hcreate : (Site.fresh.after (Sample.run.take 3)).space.createSchema (.calm 1 Sample.second)
      Sample.draft = (.ok ((Sample.row ⟨1, 0, 1⟩ 1 true).withDefinition Sample.definition),
        (Site.fresh.after (Sample.run.take 4)).space) := by
    rw [Sample.after_three, Sample.after_four]
    simp only [createSchema, Sample.check_draft]
    decide +kernel
  have hnew : (Site.fresh.after (Sample.run.take 3)).space.IsNewSchema Sample.second := by
    rw [Sample.after_three]
    simp only [IsNewSchema, List.forall_mem_singleton]
    decide
  have hstored := ((append_only (Sample.run.take 3)).2 (.calm 1 Sample.second) Sample.draft).1
    _ _ hcreate
  exact ⟨_, _, hcreate, rfl, (hstored.2.2.2 rfl fun _ => hnew).1⟩

end SchemaVault
