import SchemaVault.Proofs.Schemas.Lookup
import SchemaVault.Schemas.Changes

/-!
# The statements on schema versions

When each statement goes through, what it leaves behind, and which violation it meets otherwise.
Apart from the insertion of a row, no statement changes anything but flags:
`deactivate_lasting` and its companions say so through `SchemaVersion.lasting`.
-/

namespace SchemaVault.Space

variable {s s' : Space} {id : SchemaId} {version : Version} {e : StorageError}

/-! ## Unique indices -/

/-- Two rows that no unique index keeps apart. -/
structure Apart (a b : VersionRow) : Prop where
  slug : a.slug ≠ b.slug
  table : a.tableName ≠ b.tableName
  schema : a.schemaId ≠ b.schemaId

theorem any_live_iff {others : List VersionRow} {p : VersionRow → Bool} :
    (others.filter SchemaVersion.isLive).any p = true ↔ ∃ o ∈ others, o.isLive ∧ p o = true := by
  constructor
  · intro h
    obtain ⟨o, ho, hp⟩ := List.any_eq_true.1 h
    obtain ⟨ho, hlive⟩ := List.mem_filter.1 ho
    exact ⟨o, ho, hlive, hp⟩
  · rintro ⟨o, ho, hlive, hp⟩
    exact List.any_eq_true.2 ⟨o, List.mem_filter.2 ⟨ho, hlive⟩, hp⟩

/-- A violated index names what a live row shares with another live row. -/
theorem checkLive_eq_error {others : List VersionRow} {row : VersionRow}
    (h : checkLive others row = .error e) :
    ∃ o ∈ others, o.isLive ∧
      (e = uniqueViolation ["slug"] ∧ o.slug = row.slug ∨
        e = uniqueViolation ["table_name"] ∧ o.tableName = row.tableName ∨
        e = uniqueViolation ["schema_id"] ∧ o.schemaId = row.schemaId) := by
  simp only [checkLive] at h
  split at h
  · simp at h
  · split at h
    · rename_i hslug
      obtain ⟨o, ho, hlive, hp⟩ := any_live_iff.1 hslug
      exact ⟨o, ho, hlive, .inl ⟨(Except.error.inj h).symm, by simpa using hp⟩⟩
    · split at h
      · rename_i htable
        obtain ⟨o, ho, hlive, hp⟩ := any_live_iff.1 htable
        exact ⟨o, ho, hlive, .inr (.inl ⟨(Except.error.inj h).symm, by simpa using hp⟩)⟩
      · split at h
        · rename_i hschema
          obtain ⟨o, ho, hlive, hp⟩ := any_live_iff.1 hschema
          exact ⟨o, ho, hlive, .inr (.inr ⟨(Except.error.inj h).symm, by simpa using hp⟩)⟩
        · simp at h

/-- **A row may be live if no other live row shares anything unique with it.** -/
theorem checkLive_eq_ok_iff {others : List VersionRow} {row : VersionRow} :
    checkLive others row = .ok () ↔ (row.isLive → ∀ o ∈ others, o.isLive → Apart o row) := by
  constructor
  · intro h hrow o ho hlive
    simp only [checkLive, hrow, Bool.not_true, Bool.false_eq_true, if_false] at h
    split at h
    · simp at h
    · rename_i hslug
      split at h
      · simp at h
      · rename_i htable
        split at h
        · simp at h
        · rename_i hschema
          simp only [any_live_iff, beq_iff_eq, not_exists, not_and] at hslug htable hschema
          exact ⟨hslug o ho hlive, htable o ho hlive, hschema o ho hlive⟩
  · intro h
    cases hc : checkLive others row with
    | ok u => rfl
    | error e =>
      exfalso
      have hrow : row.isLive := by
        cases hrow : row.isLive with
        | true => rfl
        | false => simp [checkLive, hrow] at hc
      obtain ⟨o, ho, hlive, ⟨-, hs⟩ | ⟨-, hs⟩ | ⟨-, hs⟩⟩ := checkLive_eq_error hc
      · exact (h hrow o ho hlive).slug hs
      · exact (h hrow o ho hlive).table hs
      · exact (h hrow o ho hlive).schema hs

/-! ## Insertion -/

theorem insertVersion_eq_ok_iff {row : VersionRow} :
    s.insertVersion row = .ok s' ↔
      canStore row.version ∧ checkLive s.versions row = .ok () ∧
        (∀ v ∈ s.versions, ¬v.isVersion row.schemaId row.version) ∧
        { s with versions := s.versions ++ [row] } = s' := by
  unfold insertVersion
  simp only [Transaction.refusal_eq_ok, Transaction.bind_eq_ok, Transaction.pure_eq_ok,
    List.any_eq_true, Bool.not_eq_true', Bool.not_eq_false]
  constructor
  · rintro ⟨hstore, _, hlive, hkey, rfl⟩
    exact ⟨hstore, hlive, fun v hv h => hkey ⟨v, hv, h⟩, rfl⟩
  · rintro ⟨hstore, hlive, hkey, rfl⟩
    exact ⟨hstore, (), hlive, fun ⟨v, hv, h⟩ => hkey v hv h, rfl⟩

theorem insertVersion_eq_error {row : VersionRow} (h : s.insertVersion row = .error e) :
    e = .unconvertible ∨ checkLive s.versions row = .error e ∨
      e = versionStored ∧ ∃ v ∈ s.versions, v.isVersion row.schemaId row.version := by
  unfold insertVersion at h
  rcases Transaction.refusal_eq_error.1 h with ⟨-, h⟩ | ⟨-, h⟩
  · exact .inl h.symm
  · rcases Transaction.bind_eq_error.1 h with h | ⟨_, _, h⟩
    · exact .inr (.inl h)
    · rcases Transaction.refusal_eq_error.1 h with ⟨hkey, h⟩ | ⟨-, h⟩
      · exact .inr (.inr ⟨h.symm, List.any_eq_true.1 hkey⟩)
      · simp [pure, Except.pure] at h

/-- A row whose numbers cannot be stored is refused. -/
theorem insertVersion_of_not_canStore {row : VersionRow} (h : canStore row.version = false) :
    s.insertVersion row = .error .unconvertible := by
  rw [insertVersion, h]
  rfl

/-- A row of a new number that can be stored has only the unique indices before it. -/
theorem insertVersion_of_new {row : VersionRow} (hstore : canStore row.version = true)
    (hkeys : ∀ v ∈ s.versions, ¬v.isVersion row.schemaId row.version) :
    s.insertVersion row =
      checkLive s.versions row >>= fun _ => pure { s with versions := s.versions ++ [row] } := by
  have hnone : s.versions.any (·.isVersion row.schemaId row.version) = false :=
    List.any_eq_false.2 hkeys
  rw [insertVersion, hstore, hnone]
  rfl

/-! ## Flags -/

theorem mem_deactivate {p : VersionRow → Bool} {v : VersionRow}
    (h : v ∈ (s.deactivate id p).versions) :
    ∃ u ∈ s.versions, v.lasting = u.lasting ∧ v.deleted = u.deleted ∧
      (v.isLive → v = u ∧ ¬(u.schemaId = id ∧ p u)) := by
  obtain ⟨u, hu, rfl⟩ := List.mem_map.1 h
  refine ⟨u, hu, ?_⟩
  by_cases hp : u.schemaId = id ∧ p u
  · simp [hp, SchemaVersion.lasting, SchemaVersion.isLive]
  · simp [hp]

/-- The live rows that remain when some rows of a schema are made inactive. -/
theorem mem_live_deactivate_iff {p : VersionRow → Bool} {v : VersionRow} (hlive : v.isLive) :
    v ∈ (s.deactivate id p).versions ↔ v ∈ s.versions ∧ ¬(v.schemaId = id ∧ p v) := by
  constructor
  · intro hv
    obtain ⟨u, hu, -, -, hrest⟩ := mem_deactivate hv
    obtain ⟨rfl, hother⟩ := hrest hlive
    exact ⟨hu, hother⟩
  · rintro ⟨hv, hother⟩
    exact List.mem_map.2 ⟨v, hv, if_neg hother⟩

/-- No number comes or goes when some rows are made inactive. -/
theorem forall_not_isVersion_deactivate {p : VersionRow → Bool} {changed : SchemaId} :
    (∀ v ∈ (s.deactivate changed p).versions, ¬v.isVersion id version) ↔
      ∀ v ∈ s.versions, ¬v.isVersion id version := by
  simp only [deactivate, List.forall_mem_map]
  refine forall₂_congr fun v _ => ?_
  split <;> rfl

/-- Changing flags of some rows leaves all that lasts. -/
theorem map_lasting {f : VersionRow → VersionRow} (hf : ∀ v, (f v).lasting = v.lasting)
    (rows : List VersionRow) :
    (rows.map f).map SchemaVersion.lasting = rows.map SchemaVersion.lasting := by
  rw [List.map_map]
  exact List.map_congr_left fun v _ => hf v

theorem deactivate_lasting (s : Space) (id : SchemaId) (p : VersionRow → Bool) :
    (s.deactivate id p).versions.map SchemaVersion.lasting =
      s.versions.map SchemaVersion.lasting :=
  map_lasting (fun v => by split <;> rfl) s.versions

/-- The rows that compete with a version that is made active. -/
def rivals (s : Space) (id : SchemaId) (version : Version) : List VersionRow :=
  s.versions.filter fun o => !o.isVersion id version

theorem markActive_eq_ok_iff :
    s.markActive id version = .ok s' ↔
      (∀ v ∈ s.versions, v.isVersion id version →
        checkLive (s.rivals id version) { v with active := true } = .ok ()) ∧
        { s with
          versions := s.versions.map fun v =>
            if v.isVersion id version then { v with active := true } else v } = s' := by
  simp only [markActive, Transaction.bind_eq_ok, Transaction.pure_eq_ok]
  constructor
  · rintro ⟨_, h, hs⟩
    exact ⟨fun v hv hc => Transaction.forM_eq_ok.1 h v (List.mem_filter.2 ⟨hv, hc⟩), hs⟩
  · rintro ⟨h, hs⟩
    refine ⟨(), Transaction.forM_eq_ok.2 fun v hv => ?_, hs⟩
    obtain ⟨hv, hc⟩ := List.mem_filter.1 hv
    exact h v hv hc

theorem markActive_eq_error (h : s.markActive id version = .error e) :
    ∃ v ∈ s.versions, v.isVersion id version ∧
      checkLive (s.rivals id version) { v with active := true } = .error e := by
  rcases Transaction.bind_eq_error.1 h with h | ⟨_, _, h⟩
  · obtain ⟨v, hv, h⟩ := Transaction.forM_eq_error h
    obtain ⟨hv, hc⟩ := List.mem_filter.1 hv
    exact ⟨v, hv, hc, h⟩
  · simp [pure, Except.pure] at h

end SchemaVault.Space
