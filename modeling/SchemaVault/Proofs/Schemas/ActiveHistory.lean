import SchemaVault.Proofs.Schemas.SingleActive
import Mathlib.Data.List.Induction

/-!
# The active version is what history says

Which version of a schema is active follows from the answers that have been given. An answer has
an `Effect` on a schema if a version of it has been created or activated, or if its active version
has been deleted; the latest effect decides (`active_by_history`). The proof is a simulation: the
live rows of a schema change as the latest effect does (`Turn.isActive_iff`), so after a run they
are what the latest effect of its history says (`Site.isActive_after`).

A definition that is nested deeper than `Json.depthLimit` can be stored and not read. A version with
such a definition is active as any other, and the question for it fails (`deep_version_not_told`).
-/

namespace SchemaVault

/-! ## Effects -/

/-- What an answered request does to the active version of a schema. -/
inductive Effect
  | activates (version : Version)
  | deactivates
  deriving DecidableEq

theorem Effect.forall_ne_activates_iff {latest : Option Effect} :
    (∀ version, latest ≠ some (.activates version)) ↔
      latest = none ∨ latest = some .deactivates := by
  rcases latest with _ | _ | _ <;> simp

namespace Space

/-- Whether a version is stored and live. -/
def IsActive (rows : List VersionRow) (id : SchemaId) (version : Version) : Prop :=
  ∃ v ∈ rows, v.isVersion id version ∧ v.isLive

instance (rows : List VersionRow) (id : SchemaId) (version : Version) :
    Decidable (IsActive rows id version) :=
  inferInstanceAs (Decidable (∃ v ∈ rows, v.isVersion id version ∧ v.isLive))

end Space

open Space

/-- The effect that an answered request has on a schema. The deletion of a version has one only if
the version was active at that moment. -/
def Moment.effectOn (id : SchemaId) (m : Moment) : Option Effect :=
  match m.request, m.answer with
  | .createSchema _, .schema record =>
    if record.schemaId = id then some (.activates record.version) else none
  | .activateSchema changed version, .schema _ =>
    if changed = id then some (.activates version) else none
  | .deleteSchema changed version, .done =>
    if changed = id ∧ IsActive m.before.versions changed version then some .deactivates else none
  | _, _ => none

/-- The latest effect that a history has on a schema. -/
def latestEffect (id : SchemaId) (history : List Moment) : Option Effect :=
  (history.filterMap (Moment.effectOn id)).getLast?

theorem latestEffect_concat (id : SchemaId) (history : List Moment) (m : Moment) :
    latestEffect id (history ++ [m]) = (m.effectOn id).or (latestEffect id history) := by
  unfold latestEffect
  rw [List.filterMap_append, List.getLast?_append]
  cases h : m.effectOn id <;> simp [h]

theorem effectOn_of_rest {id : SchemaId} {s : Space} {r : Request} {a : Answer}
    (h : r.changesVersions a = false) : Moment.effectOn id ⟨s, r, a⟩ = none := by
  unfold Moment.effectOn
  split <;> simp_all [Request.changesVersions]

namespace Space

variable {s s' : Space} {rows : List VersionRow} {id changed : SchemaId} {version : Version}
variable {target : Version} {c : Circumstances} {record : SchemaRecord}

/-! ## Statements -/

theorem Consistent.isActive_unique (h : Consistent rows) {a b : Version} (ha : IsActive rows id a)
    (hb : IsActive rows id b) : a = b := by
  obtain ⟨u, hu, hisu, hliveu⟩ := ha
  obtain ⟨v, hv, hisv, hlivev⟩ := hb
  obtain ⟨hidu, rfl⟩ := SchemaVersion.isVersion_iff.1 hisu
  obtain ⟨hidv, rfl⟩ := SchemaVersion.isVersion_iff.1 hisv
  rw [h.eq_of_live hu hv hliveu hlivev (hidu.trans hidv.symm)]

/-- A statement that leaves no version live that satisfies a condition, and the others alone. -/
theorem isActive_map {f : VersionRow → VersionRow} {p : SchemaId → Version → Prop}
    (hrest : ∀ v, ¬p v.schemaId v.version → f v = v)
    (hnone : ∀ v, p v.schemaId v.version → ¬(f v).isLive) :
    IsActive (rows.map f) id version ↔ IsActive rows id version ∧ ¬p id version := by
  constructor
  · rintro ⟨_, hv, his, hlive⟩
    obtain ⟨u, hu, rfl⟩ := List.mem_map.1 hv
    have hp : ¬p u.schemaId u.version := fun hp => hnone u hp hlive
    rw [hrest u hp] at his hlive
    obtain ⟨rfl, rfl⟩ := SchemaVersion.isVersion_iff.1 his
    exact ⟨⟨u, hu, his, hlive⟩, hp⟩
  · rintro ⟨⟨v, hv, his, hlive⟩, hp⟩
    obtain ⟨rfl, rfl⟩ := SchemaVersion.isVersion_iff.1 his
    exact ⟨v, List.mem_map.2 ⟨v, hv, hrest v hp⟩, his, hlive⟩

theorem isActive_deactivate (s : Space) (changed : SchemaId) (p : Version → Bool)
    (id : SchemaId) (version : Version) :
    IsActive (s.deactivate changed fun v => p v.version).versions id version ↔
      IsActive s.versions id version ∧ ¬(id = changed ∧ p version = true) := by
  refine isActive_map (p := fun id version => id = changed ∧ p version = true)
    (fun v hv => if_neg hv) fun v hv hlive => ?_
  rw [if_pos hv] at hlive
  cases hlive

theorem isActive_delete (h : deleteVersion changed target s = .ok ((), s')) :
    IsActive s'.versions id version ↔
      IsActive s.versions id version ∧ ¬(id = changed ∧ version = target) := by
  obtain ⟨-, rfl⟩ := deleteVersion_eq_ok_iff.1 h
  refine isActive_map (p := fun id version => id = changed ∧ version = target)
    (fun v hv => if_neg fun hchosen => ?_) fun v hv hlive => ?_
  · exact hv (SchemaVersion.isVersion_iff.1 (Bool.and_eq_true_iff.1 hchosen).1)
  · cases hdeleted : v.deleted <;>
      simp [SchemaVersion.isVersion_iff.2 hv, hdeleted, SchemaVersion.isLive] at hlive

theorem isActive_store (hlive : record.active = true) (hdeleted : record.deleted = false)
    (h : s.storePlanned record = .ok s') :
    IsActive s'.versions id version ↔
      if record.schemaId = id then record.version = version
      else IsActive s.versions id version := by
  obtain ⟨-, -, -, rfl⟩ := storePlanned_eq_ok_iff.1 h
  have hold := isActive_deactivate s record.schemaId (fun _ => true) id version
  have hrow : (rowOf record).isLive := SchemaVersion.isLive_iff.2 ⟨hlive, hdeleted⟩
  have happend : IsActive ((s.deactivate record.schemaId fun _ => true).versions ++ [rowOf record])
      id version ↔ IsActive (s.deactivate record.schemaId fun _ => true).versions id version ∨
        (rowOf record).isVersion id version := by
    simp only [IsActive, List.mem_append, List.mem_singleton, or_and_right, exists_or,
      exists_eq_left, hrow, and_true]
  rw [happend, hold, SchemaVersion.isVersion_iff]
  change _ ∨ record.schemaId = id ∧ record.version = version ↔ _
  split
  · rename_i hid
    simp [hid]
  · rename_i hid
    simp [hid, Ne.symm hid]

theorem isActive_markActive (h : s.markActive changed target = .ok s') :
    IsActive s'.versions id version ↔
      if changed = id ∧ target = version then
        ∃ v ∈ s.versions, v.isVersion changed target ∧ v.deleted = false
      else IsActive s.versions id version := by
  obtain ⟨-, rfl⟩ := markActive_eq_ok_iff.1 h
  have hmap : IsActive (s.versions.map fun v =>
      if v.isVersion changed target then { v with active := true } else v) id version ↔
        ∃ v ∈ s.versions, v.isVersion id version ∧
          (if v.isVersion changed target then { v with active := true } else v).isLive := by
    simp only [IsActive, List.mem_map, exists_exists_and_eq_and]
    refine exists_congr fun v => and_congr_right fun _ => and_congr_left' ?_
    split <;> rfl
  rw [hmap]
  split
  · rename_i hsame
    obtain ⟨rfl, rfl⟩ := hsame
    refine exists_congr fun v => and_congr_right fun _ => and_congr_right fun his => ?_
    rw [if_pos his, SchemaVersion.isLive_iff, eq_self, true_and]
  · rename_i hother
    refine exists_congr fun v => and_congr_right fun _ => and_congr_right fun his => ?_
    rw [if_neg fun his' => hother ?_]
    obtain ⟨rfl, rfl⟩ := SchemaVersion.isVersion_iff.1 his
    obtain ⟨hid, hversion⟩ := SchemaVersion.isVersion_iff.1 his'
    exact ⟨hid.symm, hversion.symm⟩

theorem isActive_activate (h : activateVersion c changed target s = .ok (record, s')) :
    IsActive s'.versions id version ↔
      if changed = id then target = version else IsActive s.versions id version := by
  obtain ⟨r, hfound, hdeleted, -, hmark, -⟩ := activateVersion_eq_ok_iff.1 h
  obtain ⟨row, hrow, hread⟩ := findVersion?_eq_some_iff.1 hfound
  obtain ⟨definition, -, rfl⟩ := VersionRow.read_eq_ok.1 hread
  have hnamed := List.find?_some hrow
  rw [isActive_markActive hmark]
  have hold := isActive_deactivate s changed (fun v => v != target) id version
  by_cases hid : changed = id
  · subst hid
    by_cases hversion : target = version
    · -- The row that was found keeps its number and its mark, so it becomes live.
      have hkept : row ∈ (s.deactivate changed fun v => v.version != target).versions :=
        List.mem_map.2 ⟨row, List.mem_of_find?_eq_some hrow,
          if_neg fun hother => bne_iff_ne.1 hother.2 (SchemaVersion.isVersion_iff.1 hnamed).2⟩
      rw [if_pos ⟨rfl, hversion⟩, if_pos rfl]
      exact iff_of_true ⟨row, hkept, hnamed, hdeleted⟩ hversion
    · rw [if_neg fun hsame => hversion hsame.2, if_pos rfl, hold]
      exact iff_of_false (fun hactive => hactive.2 ⟨rfl, bne_iff_ne.2 (Ne.symm hversion)⟩) hversion
  · rw [if_neg fun hsame => hid hsame.1, if_neg hid, hold]
    exact and_iff_left fun hsame => hid hsame.1.symm

/-! ## Moves -/

/-- **The live version of a schema changes as the effect of a move says**, and not at all if the
move has no effect on the schema. -/
theorem Turn.isActive_iff (hrows : Consistent s.versions) {r : Request} {a : Answer}
    (h : Turn c s r a s') :
    IsActive s'.versions id version ↔
      match Moment.effectOn id ⟨s, r, a⟩ with
      | some effect => effect = .activates version
      | none => IsActive s.versions id version := by
  cases h with
  | rest hversions hr => rw [effectOn_of_rest hr, hversions]
  | create _ hplan hstore =>
    have hrecord := record_of_planBy hplan
    rw [isActive_store (by rw [hrecord]; rfl) (by rw [hrecord]; rfl) hstore]
    simp only [Moment.effectOn]
    split <;> simp
  | activate hactivate =>
    rw [isActive_activate hactivate]
    simp only [Moment.effectOn]
    split <;> simp
  | @delete changed target _ hdelete =>
    rw [isActive_delete hdelete]
    simp only [Moment.effectOn]
    split
    · rename_i effect heffect
      split at heffect
      · rename_i hlive
        obtain ⟨rfl, hlive⟩ := hlive
        obtain rfl := Option.some.inj heffect
        refine iff_of_false (fun hactive => ?_) Effect.noConfusion
        exact hactive.2 ⟨rfl, hrows.isActive_unique hactive.1 hlive⟩
      · cases heffect
    · rename_i heffect
      split at heffect
      · cases heffect
      · rename_i hdead
        refine and_iff_left_of_imp fun hactive hsame => hdead ?_
        obtain ⟨rfl, rfl⟩ := hsame
        exact ⟨rfl, hactive⟩

end Space

/-! ## Runs -/

/-- A step that has no effect on a schema leaves the live version of the schema as it is. -/
theorem Site.isActive_next {site : Site} {step : Step} {id : SchemaId} {version : Version}
    (hrows : Consistent site.space.versions)
    (h : (site.moment? step).bind (Moment.effectOn id) = none) :
    IsActive (site.next step).space.versions id version ↔
      IsActive site.space.versions id version := by
  rcases site.next_cases step with ⟨-, migrations, hs⟩ | ⟨_, _, _, r, a, -, hmoment, hmove⟩
  · rw [hs]
  · rw [hmoment, Option.bind_some] at h
    rw [hmove.turn.isActive_iff hrows, h]

/-- **After a run a version is live if its activation is the latest effect on its schema.** -/
theorem Site.isActive_after (run : List Step) (id : SchemaId) (version : Version) :
    IsActive (fresh.after run).space.versions id version ↔
      latestEffect id (fresh.history run) = some (.activates version) := by
  -- By the last step: its effect comes after all others, so it is the latest if there is one.
  induction run using List.reverseRecOn with
  | nil =>
    refine iff_of_false ?_ ?_
    · rintro ⟨v, hv, -⟩
      cases hv
    · exact fun h => nomatch h
  | append_singleton run step ih =>
    rw [after_concat, history_concat]
    rcases (fresh.after run).next_cases step with
      ⟨hmoment, migrations, hs⟩ | ⟨_, c, limits, r, a, -, hmoment, hmove⟩
    · rw [hmoment, hs, Option.toList_none, List.append_nil]
      exact ih
    · rw [hmoment, Option.toList_some, latestEffect_concat,
        hmove.turn.isActive_iff (consistent_after run)]
      cases Moment.effectOn id ⟨(fresh.after run).space, r, a⟩ with
      | none => exact ih
      | some effect => simp

/-! ## What can be read -/

/-- A request that stores a definition stores one that reads back. -/
def Request.DefinitionReadsBack : Request → Prop
  | .createSchema d => d.definition.ReadsBack
  | _ => True

/-- A request that stores a definition stores one whose text can be read. -/
def Request.DefinitionReads : Request → Prop
  | .createSchema d => (Json.read? d.definition.print).isSome
  | _ => True

/-- Whether the definitions of some rows are texts of documents. -/
def Space.Readable (rows : List VersionRow) : Prop :=
  ∀ row ∈ rows, ∃ definition, Json.read? row.definition = some definition

/-- Whether the definition of a version is the text of a document, if the version is stored. -/
def Space.ReadsVersion (s : Space) (id : SchemaId) (version : Version) : Prop :=
  ∀ row ∈ s.versions, row.isVersion id version → (Json.read? row.definition).isSome

theorem Space.Readable.readsVersion {s : Space} (h : Readable s.versions) (id : SchemaId)
    (version : Version) : s.ReadsVersion id version :=
  fun row hrow _ => Option.isSome_iff_exists.2 (h row hrow)

theorem Space.readable_map_lasting {rows : List VersionRow} :
    Readable (rows.map SchemaVersion.lasting) ↔ Readable rows := List.forall_mem_map

theorem Site.readable_next (site : Site) (step : Step)
    (hstep : step.Asks Request.DefinitionReads) (h : Readable site.space.versions) :
    Readable (site.next step).space.versions := by
  rw [← readable_map_lasting]
  rcases site.lasting_cases step with hsame | ⟨_, _, _, d, _, _, rfl, -, hplan, hsame⟩ <;>
    rw [hsame, readable_map_lasting]
  · exact h
  · refine List.forall_mem_append.2 ⟨h, List.forall_mem_singleton.2 ?_⟩
    rw [record_of_planBy hplan]
    exact Option.isSome_iff_exists.1 hstep

/-- **Every stored definition can be read**, if every definition that is stored can be. -/
theorem Site.readable_of_reads {run : List Step}
    (hrun : fresh.Along (fun _ step => step.Asks Request.DefinitionReads) run) :
    Readable (fresh.after run).space.versions :=
  after_of_step (I := fun site => Readable site.space.versions) readable_next hrun
    fun _ h => nomatch h

/-! ## What is answered -/

namespace Space

variable {s s' : Space} {id : SchemaId} {c : Circumstances} {r : SchemaRecord}
variable {version : Version} {row : VersionRow}

/-- What is told about a schema without an active version. -/
def noActive (id : SchemaId) : Failure := .notFound ("active version of schema " ++ id.text)

/-- **The question for the active version**, if nobody disturbs it: there is none, or its row is
read. -/
theorem getActive_cases (hc : c.Undisturbed) (s : Space) (id : SchemaId) :
    (∀ version, ¬IsActive s.versions id version) ∧ s.getActive c id = .error (noActive id) ∨
      ∃ row ∈ s.versions, (∃ version, row.isVersion id version) ∧ row.isLive ∧
        s.getActive c id = (VersionRow.read row).mapError (·.toFailure "get active schema") := by
  unfold getActive
  rw [Transaction.query_of_undisturbed hc]
  unfold activeForSchema? findVersion?
  cases hfind : s.versions.find? fun v => v.schemaId == id && v.isLive with
  | none =>
    refine .inl ⟨fun version ⟨v, hv, hversion, hlive⟩ => List.find?_eq_none.1 hfind v hv ?_, rfl⟩
    rw [Bool.and_eq_true, beq_iff_eq]
    exact ⟨(SchemaVersion.isVersion_iff.1 hversion).1, hlive⟩
  | some row =>
    have hlive := List.find?_some hfind
    rw [Bool.and_eq_true, beq_iff_eq] at hlive
    refine .inr ⟨row, List.mem_of_find?_eq_some hfind,
      ⟨row.version, SchemaVersion.isVersion_iff.2 ⟨hlive.1, rfl⟩⟩, hlive.2, ?_⟩
    rw [Option.mapM_some]
    cases VersionRow.read row <;> rfl

theorem Consistent.readsVersion_iff (h : Consistent s.versions) (hrow : row ∈ s.versions)
    (hversion : row.isVersion id version) :
    s.ReadsVersion id version ↔ (Json.read? row.definition).isSome := by
  refine ⟨fun hreads => hreads row hrow hversion, fun hread other hother hsame => ?_⟩
  obtain ⟨hid, hnumber⟩ := SchemaVersion.isVersion_iff.1 hversion
  obtain ⟨hid', hnumber'⟩ := SchemaVersion.isVersion_iff.1 hsame
  rwa [h.eq_of_key hother hrow (hid'.trans hid.symm) (hnumber'.trans hnumber.symm)]

/-- Which version is active, if there is one. -/
theorem Consistent.isActive_iff (h : Consistent s.versions) (hrow : row ∈ s.versions)
    (hversion : row.isVersion id version) (hlive : row.isLive) {other : Version} :
    IsActive s.versions id other ↔ other = version := by
  have hactive : IsActive s.versions id version := ⟨row, hrow, hversion, hlive⟩
  exact ⟨fun h' => h.isActive_unique h' hactive, fun h' => h' ▸ hactive⟩

/-- **A version is answered** exactly if it is the active one and can be read. -/
theorem getActive_eq_ok_iff (hc : c.Undisturbed) (hrows : Consistent s.versions) :
    (∃ r, s.getActive c id = .ok r ∧ r.schemaId = id ∧ r.version = version) ↔
      IsActive s.versions id version ∧ s.ReadsVersion id version := by
  rcases getActive_cases hc s id with ⟨hnone, hanswer⟩ | ⟨row, hrow, ⟨v, hv⟩, hlive, hanswer⟩
  · simp [hanswer, hnone version]
  simp only [hrows.isActive_iff hrow hv hlive, hanswer, Transaction.mapError_eq_ok,
    VersionRow.read_eq_ok]
  obtain ⟨rfl, rfl⟩ := SchemaVersion.isVersion_iff.1 hv
  constructor
  · rintro ⟨_, ⟨definition, hread, rfl⟩, -, rfl⟩
    exact ⟨rfl, (hrows.readsVersion_iff hrow hv).2 (Option.isSome_iff_exists.2 ⟨_, hread⟩)⟩
  · rintro ⟨rfl, hreads⟩
    obtain ⟨definition, hread⟩ :=
      Option.isSome_iff_exists.1 ((hrows.readsVersion_iff hrow hv).1 hreads)
    exact ⟨_, ⟨definition, hread, rfl⟩, rfl, rfl⟩

/-- A schema is said to have no active version exactly if it has none. -/
theorem getActive_eq_noActive_iff (hc : c.Undisturbed) :
    s.getActive c id = .error (noActive id) ↔ ∀ version, ¬IsActive s.versions id version := by
  rcases getActive_cases hc s id with ⟨hnone, hanswer⟩ | ⟨row, hrow, ⟨v, hv⟩, hlive, hanswer⟩
  · exact iff_of_true hanswer hnone
  · refine iff_of_false (fun h => ?_) fun hnone => hnone v ⟨row, hrow, hv, hlive⟩
    obtain ⟨e, he, htold⟩ := Transaction.mapError_eq_error.1 (hanswer.symm.trans h)
    rw [VersionRow.read_eq_error he] at htold
    cases htold

/-- **The storage is said to have failed** exactly if the active version cannot be read. -/
theorem getActive_eq_internal_iff (hc : c.Undisturbed) (hrows : Consistent s.versions) :
    s.getActive c id = .error (.internal "get active schema failed") ↔
      ∃ version, IsActive s.versions id version ∧ ¬s.ReadsVersion id version := by
  rcases getActive_cases hc s id with ⟨hnone, hanswer⟩ | ⟨row, hrow, ⟨v, hv⟩, hlive, hanswer⟩
  · rw [hanswer]
    exact iff_of_false (fun h => nomatch h) fun ⟨version, h, _⟩ => hnone version h
  simp only [hrows.isActive_iff hrow hv hlive, exists_eq_left, hrows.readsVersion_iff hrow hv,
    hanswer, VersionRow.read]
  cases Json.read? row.definition with
  | none => exact iff_of_true rfl Bool.false_ne_true
  | some definition => simp [Except.mapError]

/-- While the same version stays live, the same is answered, even if its definition does not
read. -/
theorem getActive_congr (hc : c.Undisturbed) (hrows' : Consistent s'.versions)
    (hactive : ∀ version, IsActive s'.versions id version ↔ IsActive s.versions id version)
    (hlasting : ∀ row ∈ s.versions, ∃ row' ∈ s'.versions, row'.lasting = row.lasting) :
    (s'.getActive c id).map (·.version) = (s.getActive c id).map (·.version) := by
  rcases getActive_cases hc s id with ⟨hnone, hanswer⟩ | ⟨row, hrow, ⟨v, hv⟩, hlive, hanswer⟩
  · rw [hanswer, (getActive_eq_noActive_iff hc).2 fun version h =>
      hnone version ((hactive version).1 h)]
  have hstays : IsActive s'.versions id v := (hactive v).2 ⟨row, hrow, hv, hlive⟩
  rcases getActive_cases hc s' id with ⟨hnone', -⟩ | ⟨row', hrow', ⟨v', hv'⟩, hlive', hanswer'⟩
  · exact absurd hstays (hnone' v)
  · -- The live row after the step is the one before it, as it has lasted.
    obtain rfl := (hrows'.isActive_iff hrow' hv' hlive').1 hstays
    obtain ⟨kept, hkept, hsame⟩ := hlasting row hrow
    obtain ⟨hid, hversion⟩ := SchemaVersion.isVersion_iff.1 hv
    obtain ⟨hid', hversion'⟩ := SchemaVersion.isVersion_iff.1 hv'
    obtain ⟨hsameId, hsameVersion, hdefinition, -⟩ := SchemaVersion.lasting_eq_iff.1 hsame
    obtain rfl := hrows'.eq_of_key hkept hrow' (hsameId.trans (hid.trans hid'.symm))
      (hsameVersion.trans (hversion.trans hversion'.symm))
    rw [hanswer, hanswer']
    unfold VersionRow.read
    rw [hdefinition]
    cases Json.read? row.definition with
    | none => rfl
    | some definition => exact congrArg Except.ok hsameVersion

end Space

/-! ## What it says -/

/-- **The active version is determined by history.** After a run, a version of a schema is active
exactly if its creation or activation is the latest effect on the schema. An undisturbed question
for the active version is answered with it exactly if its definition can be read, and the storage
has failed if it cannot be; and with a failure to find one exactly if there has been no effect or
the latest is the deletion of the active version. All definitions can be read if those that have
been stored can be. A step that has no effect on the schema, be it refused, called off, a deletion
of another version or a change of another schema, leaves the active version as it is. -/
theorem active_by_history (run : List Step) (id : SchemaId) {c : Circumstances}
    (hc : c.Undisturbed) :
    let site := Site.fresh.after run
    let s := site.space
    let latest := latestEffect id (Site.fresh.history run)
    (∀ version, IsActive s.versions id version ↔ latest = some (.activates version)) ∧
      (∀ version, (∃ r, s.getActive c id = .ok r ∧ r.schemaId = id ∧ r.version = version) ↔
        latest = some (.activates version) ∧ s.ReadsVersion id version) ∧
      (s.getActive c id = .error (noActive id) ↔ latest = none ∨ latest = some .deactivates) ∧
      (s.getActive c id = .error (.internal "get active schema failed") ↔
        ∃ version, latest = some (.activates version) ∧ ¬s.ReadsVersion id version) ∧
      (Site.fresh.Along (fun _ step => step.Asks Request.DefinitionReads) run →
        ∀ version, s.ReadsVersion id version) ∧
      ∀ step, (site.moment? step).bind (Moment.effectOn id) = none →
        ((site.next step).space.getActive c id).map (·.version) =
          (s.getActive c id).map (·.version) := by
  intro site s latest
  have hactive : ∀ version, IsActive s.versions id version ↔ latest = some (.activates version) :=
    Site.isActive_after run id
  have hrows : Consistent s.versions := Site.consistent_after run
  refine ⟨hactive, fun version => ?_, ?_, ?_, fun hreads =>
    (Site.readable_of_reads hreads).readsVersion id, fun step heffect => ?_⟩
  · rw [← hactive]
    exact getActive_eq_ok_iff hc hrows
  · rw [getActive_eq_noActive_iff hc, forall_congr' fun version => not_congr (hactive version)]
    exact Effect.forall_ne_activates_iff
  · simp only [← hactive]
    exact getActive_eq_internal_iff hc hrows
  · exact getActive_congr hc (Site.consistent_next _ step hrows)
      (fun version => Site.isActive_next hrows heffect)
        fun row hrow => Site.lasting_next _ step hrow

/-- After the second version has been created it is the active one, though the clock has gone
back. -/
theorem active_by_history_sample :
    Circumstances.Undisturbed (.calm 4 Sample.second) ∧
      Site.fresh.Along (fun _ step => step.Asks Request.DefinitionReads) (Sample.run.take 4) ∧
      ∃ r, (Site.fresh.after (Sample.run.take 4)).space.getActive (.calm 4 Sample.second)
          ⟨Sample.first⟩ = .ok r ∧ r.schemaId = ⟨Sample.first⟩ ∧ r.version = ⟨1, 0, 1⟩ := by
  have hdefinition : (Json.read? Sample.draft.definition.print).isSome := by decide +kernel
  have hrun : Site.fresh.Along (fun _ step => step.Asks Request.DefinitionReads)
      (Sample.run.take 4) :=
    ⟨trivial, trivial, hdefinition, hdefinition, trivial⟩
  have hlatest : latestEffect ⟨Sample.first⟩ (Site.fresh.history (Sample.run.take 4)) =
      some (.activates ⟨1, 0, 1⟩) := by
    simp only [Sample.run, List.take, Site.history, Site.moment?, Site.next, Space.answer,
      Space.createSchema, Sample.check_draft]
    decide +kernel
  have hc := Circumstances.calm_undisturbed 4 Sample.second
  obtain ⟨-, hanswer, -, -, hreads, -⟩ :=
    active_by_history (Sample.run.take 4) ⟨Sample.first⟩ hc
  exact ⟨hc, hrun, (hanswer ⟨1, 0, 1⟩).2 ⟨hlatest, hreads hrun _⟩⟩

/-- **A version can be active and not be told.** The latest effect on a schema is the creation of a
version whose definition is nested deeper than what is read. The question for the active version is
answered with a failure of the storage. -/
theorem deep_version_not_told :
    let run := Sample.run.take 4 ++ [Sample.deepening]
    latestEffect ⟨Sample.second⟩ (Site.fresh.history run) = some (.activates ⟨1, 0, 0⟩) ∧
      (Site.fresh.after run).space.getActive (.calm 5 Sample.first) ⟨Sample.second⟩ =
        .error (.internal "get active schema failed") := by
  intro run
  have hc := Circumstances.calm_undisturbed 5 Sample.first
  have hrow : Sample.deepRow ∈ (Site.fresh.after run).space.versions := by
    rw [Sample.after_deepening]
    simp
  have hversion : Sample.deepRow.isVersion ⟨Sample.second⟩ ⟨1, 0, 0⟩ := by decide
  have hactive : IsActive (Site.fresh.after run).space.versions ⟨Sample.second⟩ ⟨1, 0, 0⟩ :=
    ⟨_, hrow, hversion, rfl⟩
  refine ⟨(Site.isActive_after run _ _).1 hactive,
    (getActive_eq_internal_iff hc (Site.consistent_after run)).2 ⟨_, hactive, fun hreads => ?_⟩⟩
  rw [(Site.consistent_after run).readsVersion_iff hrow hversion, Sample.read?_deep] at hreads
  cases hreads

end SchemaVault
