import SchemaVault.Proofs.Schemas.Decision
import SchemaVault.Proofs.Schemas.Views

/-!
# How an activation comes out

An activation that nobody disturbs is decided by two rules (`Space.activationRules`): the version
has to be stored and not deleted, and no live version of another schema may have its table. If they
hold, the version becomes the only active one of its schema and nothing else changes
(`Space.activating`), which is a change that cannot be made twice (`activating_activating`).

The record that is answered is read before the change and its flag is set by hand. It is the record
that is found afterwards (`version?_activating`), since the change keeps every row in its place. The
only index that can be violated is that on tables: rows of one slug are of one schema, whose other
rows have just been made inactive.

All this needs the stored definition of the version to be read. If it is nested deeper than
`Json.depthLimit` it cannot be, and the activation fails though it breaks no rule
(`deep_version_not_activated`).
-/

namespace SchemaVault

namespace Space

variable {s s' : Space} {c : Circumstances} {id : SchemaId} {version : Version}
variable {row : VersionRow} {r record : SchemaRecord}

/-! ## The change -/

/-- What a space becomes in which a version is made the only active one of its schema. -/
def activating (s : Space) (id : SchemaId) (version : Version) : Space :=
  { s with
    versions := s.versions.map fun v =>
      if v.schemaId = id then { v with active := v.version == version } else v }

/-- **What has been made the only active version stays so** when it is made so again. -/
theorem activating_activating (s : Space) (id : SchemaId) (version : Version) :
    (s.activating id version).activating id version = s.activating id version := by
  simp only [activating, List.map_map]
  congr 2
  funext v
  by_cases hid : v.schemaId = id <;> simp [hid]

theorem activating_lasting (s : Space) (id : SchemaId) (version : Version) :
    (s.activating id version).versions.map SchemaVersion.lasting =
      s.versions.map SchemaVersion.lasting :=
  map_lasting (fun v => by split <;> rfl) s.versions

/-- A row of another schema has been there before. -/
theorem mem_of_mem_activating (hrow : row ∈ (s.activating id version).versions)
    (hid : row.schemaId ≠ id) : row ∈ s.versions := by
  obtain ⟨u, hu, rfl⟩ := List.mem_map.1 hrow
  by_cases huid : u.schemaId = id
  · rw [if_pos huid] at hid
    exact absurd huid hid
  · rwa [if_neg huid]

/-- The two statements of an activation make the change together. -/
theorem map_deactivate_eq_activating (s : Space) (id : SchemaId) (version : Version) :
    { s.deactivate id (fun v => v.version != version) with
      versions := (s.deactivate id fun v => v.version != version).versions.map fun v =>
        if v.isVersion id version then { v with active := true } else v } =
      s.activating id version := by
  simp only [deactivate, activating, List.map_map]
  congr 2
  funext v
  by_cases hid : v.schemaId = id <;> by_cases hversion : v.version = version <;>
    simp [hid, hversion, SchemaVersion.isVersion]

/-- **What is found of the version afterwards** is what was found before, made active. -/
theorem version?_activating (h : s.version? id version = .ok (some r)) :
    (s.activating id version).version? id version = .ok (some { r with active := true }) := by
  obtain ⟨row, hfind, hread⟩ := findVersion?_eq_some_iff.1 h
  have hnamed := List.find?_some hfind
  obtain ⟨hid, hversion⟩ := SchemaVersion.isVersion_iff.1 hnamed
  refine findVersion?_eq_some_iff.2 ⟨{ row with active := true }, ?_, ?_⟩
  · have hkeys : (fun v : VersionRow => v.isVersion id version) ∘ (fun v =>
        if v.schemaId = id then { v with active := v.version == version } else v) =
          fun v => v.isVersion id version := by
      funext v
      simp only [Function.comp_apply]
      split <;> rfl
    rw [activating, List.find?_map, hkeys, hfind, Option.map_some, if_pos hid, hversion,
      beq_self_eq_true]
  · obtain ⟨definition, hdefinition, rfl⟩ := VersionRow.read_eq_ok.1 hread
    exact VersionRow.read_eq_ok.2 ⟨definition, hdefinition, rfl⟩

/-! ## The work -/

/-- The row that has the number of a version is the one that is found. -/
theorem Consistent.find?_isVersion (h : Consistent s.versions) (hrow : row ∈ s.versions)
    (hversion : row.isVersion id version) :
    (s.versions.find? fun v => v.isVersion id version) = some row :=
  (find?_eq_some_iff_mem (h.one_version id version)).2 ⟨hrow, hversion⟩

theorem Consistent.version?_of_read (h : Consistent s.versions) (hrow : row ∈ s.versions)
    (hversion : row.isVersion id version) (hread : VersionRow.read row = .ok r) :
    s.version? id version = .ok (some r) :=
  findVersion?_eq_some_iff.2 ⟨row, h.find?_isVersion hrow hversion, hread⟩

theorem activateVersion_of_found (hc : c.Undisturbed)
    (hfound : s.version? id version = .ok (some r)) (hdeleted : r.deleted = false) :
    activateVersion c id version s =
      (s.deactivate id fun v => v.version != version).markActive id version >>= fun s' =>
        pure ({ r with active := true }, s') := by
  rw [activateVersion, hfound]
  simp only [bind, Except.bind, hdeleted, Transaction.check_of_undisturbed hc]
  rfl

/-- Only one row has the number of a version, so only that row is made active. -/
theorem Consistent.markActive_eq (h : Consistent s.versions) (hrow : row ∈ s.versions)
    (hversion : row.isVersion id version) :
    s.markActive id version =
      checkLive (s.rivals id version) { row with active := true } >>= fun _ => pure { s with
        versions := s.versions.map fun v =>
          if v.isVersion id version then { v with active := true } else v } := by
  obtain ⟨rfl, rfl⟩ := SchemaVersion.isVersion_iff.1 hversion
  have hsingle : ∀ f : VersionRow → Except StorageError Unit,
      [row].forM f = f row >>= fun _ => pure () := fun _ => rfl
  simp only [Space.markActive, h.filter_eq hrow, hsingle, bind_assoc, pure_bind]
  rfl

/-- **An activation of a version that is not deleted obeys the rule on tables.** -/
theorem Consistent.activate_obeys (h : Consistent s.versions) (hpinned : Pinned s.versions)
    (hc : c.Undisturbed) (hrow : row ∈ s.versions) (hversion : row.isVersion id version)
    (hread : VersionRow.read row = .ok r) (hdeleted : row.deleted = false) :
    Obeys "activate schema" (activateVersion c id version s)
      ({ r with active := true }, s.activating id version) [s.tableRule id row.tableName] := by
  obtain ⟨hid, hnumber⟩ := SchemaVersion.isVersion_iff.1 hversion
  have hfound := h.version?_of_read hrow hversion hread
  have hrdeleted : r.deleted = false := by
    obtain ⟨definition, -, rfl⟩ := VersionRow.read_eq_ok.1 hread
    exact hdeleted
  have hkept : row ∈ (s.deactivate id fun v => v.version != version).versions :=
    List.mem_map.2 ⟨row, hrow, if_neg fun hother => by simp [hnumber] at hother⟩
  have hcheck : Obeys "activate schema"
      (checkLive ((s.deactivate id fun v => v.version != version).rivals id version)
        { row with active := true }) () [s.tableRule id row.tableName] := by
    refine checkLive_obeys (SchemaVersion.isLive_iff.2 ⟨rfl, hdeleted⟩) hid ?_ fun o hlive => ?_
    · exact fun o ho hschema hslug => hschema (((hpinned o ho row hrow).slug hslug).trans hid)
    · rw [rivals, List.mem_filter, mem_live_deactivate_iff hlive, Bool.not_eq_true',
        Bool.eq_false_iff, ne_eq, SchemaVersion.isVersion_iff, bne_iff_ne]
      tauto
  rw [activateVersion_of_found hc hfound hrdeleted,
    (h.deactivate id fun v => v.version != version).markActive_eq hkept hversion,
    map_deactivate_eq_activating]
  exact hcheck.bind_pure.bind_pure

/-! ## Rules -/

/-- The rules of an activation. -/
def activationRules (s : Space) (id : SchemaId) (version : Version) : List Rule :=
  [⟨∃ row ∈ s.versions, row.isVersion id version ∧ row.deleted = false, noVersion id version⟩,
    ⟨∀ row ∈ s.versions, row.isVersion id version → (s.tableRule id row.tableName).holds,
      tableHeld⟩]

theorem activateSchema_eq (c : Circumstances) (id : SchemaId) (version : Version) (s : Space) :
    s.activateSchema c id version =
      conduct "activate schema" c (activateVersion c id version) s := rfl

/-- Whether an activation has been carried out, with a record as the answer. -/
structure Activated (s : Space) (c : Circumstances) (id : SchemaId) (version : Version)
    (record : SchemaRecord) : Prop where
  /-- The version is the only active one of its schema, and nothing else has changed. -/
  answered : s.activateSchema c id version = (.ok record, s.activating id version)
  live : ∀ i v, IsActive (s.activating id version).versions i v ↔
    if i = id then v = version else IsActive s.versions i v
  /-- The record is the one that is found afterwards. -/
  found : ∀ c', c'.Undisturbed → (s.activating id version).getSchema c' id version = .ok record
  /-- Whoever asks for the same again is answered the same, and changes nothing. -/
  again : ∀ c', c'.Undisturbed → c'.locked = false →
    (s.activating id version).activateSchema c' id version =
      (.ok record, s.activating id version)

/-- A version that is not stored, or deleted, is told not to exist, if its row can be read. -/
theorem activateVersion_of_unknown
    (hread : ∀ row ∈ s.versions, row.isVersion id version → (Json.read? row.definition).isSome)
    (h : ¬∃ row ∈ s.versions, row.isVersion id version ∧ row.deleted = false) :
    activateVersion c id version s = .error (.failed (noVersion id version)) := by
  cases hfind : s.versions.find? fun v => v.isVersion id version with
  | none =>
    have hnone : s.version? id version = .ok none := findVersion?_eq_none_iff.2 hfind
    rw [activateVersion, hnone]
    rfl
  | some row =>
    have hrow := List.mem_of_find?_eq_some hfind
    have hversion := List.find?_some hfind
    obtain ⟨definition, hdefinition⟩ := Option.isSome_iff_exists.1 (hread row hrow hversion)
    have hfound : s.version? id version = .ok (some (row.withDefinition definition)) :=
      findVersion?_eq_some_iff.2
        ⟨row, hfind, VersionRow.read_eq_ok.2 ⟨definition, hdefinition, rfl⟩⟩
    have hdeleted : (row.withDefinition definition).deleted = true := by
      by_contra hnot
      exact h ⟨row, hrow, hversion, Bool.eq_false_iff.2 hnot⟩
    rw [activateVersion, hfound]
    simp only [bind, Except.bind, hdeleted]
    rfl

theorem Consistent.activateVersion_of_unreadable (h : Consistent s.versions)
    (hrow : row ∈ s.versions) (hversion : row.isVersion id version)
    (hread : Json.read? row.definition = none) :
    activateVersion c id version s = .error .unconvertible := by
  have hfind := h.find?_isVersion hrow hversion
  have hfailed : s.version? id version = .error .unconvertible := by
    rw [version?, findVersion?, hfind, Option.mapM_some, VersionRow.read, hread]
    rfl
  rw [activateVersion, hfailed]
  rfl

/-! ## The outcome -/

/-- An undisturbed activation that obeys the rule on tables is carried out. -/
theorem Consistent.activateSchema_eq_ok (h : Consistent s.versions) (hpinned : Pinned s.versions)
    (hc : c.Undisturbed) (hfree : c.locked = false) (hrow : row ∈ s.versions)
    (hversion : row.isVersion id version) (hread : VersionRow.read row = .ok r)
    (hdeleted : row.deleted = false) (htable : (s.tableRule id row.tableName).holds) :
    s.activateSchema c id version = (.ok { r with active := true }, s.activating id version) := by
  rw [activateSchema_eq]
  exact ((h.activate_obeys hpinned hc hrow hversion hread hdeleted).decides hc hfree).of_forall
    (List.forall_mem_singleton.2 htable)

theorem Consistent.activated (h : Consistent s.versions) (hpinned : Pinned s.versions)
    (hc : c.Undisturbed) (hfree : c.locked = false) (hrow : row ∈ s.versions)
    (hversion : row.isVersion id version) (hread : VersionRow.read row = .ok r)
    (hdeleted : row.deleted = false) (htable : (s.tableRule id row.tableName).holds) :
    s.Activated c id version { r with active := true } := by
  have hwork : activateVersion c id version s =
      .ok ({ r with active := true }, s.activating id version) :=
    Decides.of_forall (h.activate_obeys hpinned hc hrow hversion hread hdeleted)
      (List.forall_mem_singleton.2 htable)
  obtain ⟨definition, hdefinition, rfl⟩ := VersionRow.read_eq_ok.1 hread
  refine ⟨h.activateSchema_eq_ok hpinned hc hfree hrow hversion hread hdeleted htable,
    fun i v => ?_, fun c' hc' => ?_, fun c' hc' hfree' => ?_⟩
  · rw [isActive_activate hwork]
    simp only [eq_comm]
  · have hfound := h.version?_of_read hrow hversion hread
    refine (lookup_eq_ok_iff hc').2 ⟨_, version?_activating hfound, ?_⟩
    simp [SchemaVersion.withDefinition, hdeleted]
  · -- The version made active is stored as its own successor, so the same rules hold again.
    have hrow' : { row with active := true } ∈ (s.activating id version).versions := by
      obtain ⟨hid, hnumber⟩ := SchemaVersion.isVersion_iff.1 hversion
      refine List.mem_map.2 ⟨row, hrow, ?_⟩
      rw [if_pos hid, hnumber, beq_self_eq_true]
    have hpinned' : Pinned (s.activating id version).versions := by
      rwa [← pinned_map_lasting, activating_lasting, pinned_map_lasting]
    have htable' : ((s.activating id version).tableRule id row.tableName).holds :=
      fun other hother hlive hschema =>
        htable other (mem_of_mem_activating hother hschema) hlive hschema
    have hagain := (h.activate hwork).activateSchema_eq_ok hpinned' hc' hfree' hrow' hversion
      (VersionRow.read_eq_ok.2 ⟨definition, hdefinition, rfl⟩) hdeleted htable'
    rwa [activating_activating] at hagain

end Space

open Space

/-! ## What it says -/

/-- **The outcome of an activation.** In every reachable space, if nobody disturbs it, the version
has to be stored and not deleted, else it is told not to exist, and no live version of another
schema may have its table, else it is told that the table is held. If so it is carried out: the
record that is answered is the one that is found afterwards, the version is the only active one of
its schema, nothing else has changed, and the same again changes nothing and is answered the same.
A refusal changes nothing either. All this is so if the stored definition of the version can be
read, as it always can if what has been stored can be; else the storage has failed. -/
theorem activation_exact {run : List Step}
    (hrun : Site.fresh.Along (fun site step => step.MintsNew site) run) {c : Circumstances}
    (hc : c.Undisturbed) (hfree : c.locked = false) (id : SchemaId) (version : Version) :
    let s := (Site.fresh.after run).space
    (Site.fresh.Along (fun _ step => step.Asks Request.DefinitionReads) run →
      ∀ row ∈ s.versions, (Json.read? row.definition).isSome) ∧
    ((∀ row ∈ s.versions, row.isVersion id version → (Json.read? row.definition).isSome) →
      Decides (fun f => s.activateSchema c id version = (.error f, s))
        (∃ record, s.Activated c id version record) (s.activationRules id version)) ∧
      ∀ row ∈ s.versions, row.isVersion id version → Json.read? row.definition = none →
        s.activateSchema c id version = (.error (.internal "activate schema failed"), s) := by
  intro s
  have hrows : Consistent s.versions := Site.consistent_after run
  have hpinned : Pinned s.versions := Site.pinned_after hrun
  refine ⟨fun hreads row hrow => ?_, fun hread => ?_, fun row hrow hversion hread => ?_⟩
  · exact Option.isSome_iff_exists.2 (Site.readable_of_reads hreads row hrow)
  · refine ⟨fun hunknown => ?_, fun ⟨row, hrow, hversion, hdeleted⟩ => ?_⟩
    · rw [activateSchema_eq]
      exact conduct_of_work_error hc hfree (activateVersion_of_unknown hread hunknown)
    · obtain ⟨definition, hdefinition⟩ := Option.isSome_iff_exists.1 (hread row hrow hversion)
      have hr := VersionRow.read_eq_ok.2 ⟨definition, hdefinition, rfl⟩
      have hdecides := (hrows.activate_obeys hpinned hc hrow hversion hr hdeleted).decides hc hfree
      refine ⟨fun hheld => hdecides.1 fun htable => hheld fun row' hrow' hversion' => ?_,
        fun htable => ⟨_, hrows.activated hpinned hc hfree hrow hversion hr hdeleted
          (htable row hrow hversion)⟩⟩
      obtain ⟨hid, hnumber⟩ := SchemaVersion.isVersion_iff.1 hversion
      obtain ⟨hid', hnumber'⟩ := SchemaVersion.isVersion_iff.1 hversion'
      obtain rfl := hrows.eq_of_key hrow' hrow (hid'.trans hid.symm) (hnumber'.trans hnumber.symm)
      exact htable
  · rw [activateSchema_eq]
    exact conduct_of_work_error hc hfree (hrows.activateVersion_of_unreadable hrow hversion hread)

/-- In the sample run the first version is made active again after the second. -/
theorem activation_exact_sample :
    ∃ record, (Site.fresh.after (Sample.run.take 4)).space.Activated (.calm 3 Sample.second)
      ⟨Sample.first⟩ ⟨1, 0, 0⟩ record := by
  have hrun : Site.fresh.Along (fun site step => step.MintsNew site) (Sample.run.take 4) :=
    ⟨trivial, trivial, fun _ h => (nomatch h), Sample.isNewSchema_three, trivial⟩
  have hc : (Circumstances.calm 3 Sample.second).Undisturbed := Circumstances.calm_undisturbed _ _
  obtain ⟨-, hdecides, -⟩ := activation_exact hrun hc rfl ⟨Sample.first⟩ ⟨1, 0, 0⟩
  rw [Sample.after_four] at hdecides ⊢
  refine (hdecides ?_).of_forall ?_
  · simp only [List.forall_mem_cons]
    decide +kernel
  · refine List.forall_mem_cons.2
      ⟨⟨_, List.mem_cons_self, rfl, rfl⟩, List.forall_mem_singleton.2 ?_⟩
    have honly : ∀ row ∈ [Sample.row ⟨1, 0, 0⟩ 2 false, Sample.row ⟨1, 0, 1⟩ 1 true],
        row.schemaId = ⟨Sample.first⟩ := by
      simp [Sample.row]
    exact fun _ _ _ other hother _ hschema => absurd (honly other hother) hschema

/-- **An activation that breaks no rule can fail.** A version is stored and not deleted, and no
other schema has its table, but its definition is nested deeper than what is read. -/
theorem deep_version_not_activated :
    let s := (Site.fresh.after (Sample.run.take 4 ++ [Sample.deepening])).space
    (∀ rule ∈ s.activationRules ⟨Sample.second⟩ ⟨1, 0, 0⟩, rule.holds) ∧
      s.activateSchema (.calm 5 Sample.first) ⟨Sample.second⟩ ⟨1, 0, 0⟩ =
        (.error (.internal "activate schema failed"), s) := by
  intro s
  have hs : s.versions =
      [Sample.row ⟨1, 0, 0⟩ 2 false, Sample.row ⟨1, 0, 1⟩ 1 true, Sample.deepRow] := by
    rw [show s = _ from Sample.after_deepening]
  have hrow : Sample.deepRow ∈ s.versions := by simp [hs]
  have hversion : Sample.deepRow.isVersion ⟨Sample.second⟩ ⟨1, 0, 0⟩ := by decide
  have hrows : Consistent s.versions := Site.consistent_after _
  constructor
  · refine List.forall_mem_cons.2
      ⟨⟨_, hrow, hversion, rfl⟩, List.forall_mem_singleton.2 fun row hrow hversion => ?_⟩
    have hdeep : ∀ row ∈ s.versions, row.isVersion ⟨Sample.second⟩ ⟨1, 0, 0⟩ →
        row.tableName = "depths" := by
      rw [hs]
      decide
    have hothers : ∀ row ∈ s.versions, row.schemaId ≠ ⟨Sample.second⟩ →
        row.tableName = "notes" := by
      rw [hs]
      decide
    intro other hother _ hschema
    rw [hothers other hother hschema, hdeep row hrow hversion]
    decide
  · rw [activateSchema_eq]
    exact conduct_of_work_error (Circumstances.calm_undisturbed 5 Sample.first) rfl
      (hrows.activateVersion_of_unreadable hrow hversion Sample.read?_deep)

end SchemaVault
