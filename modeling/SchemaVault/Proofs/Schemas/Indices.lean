import SchemaVault.Proofs.Entities.Changes
import SchemaVault.Proofs.Schemas.Statements
import SchemaVault.Proofs.Space.Constraints

/-!
# Violated indices

Four unique indices guard the stored schema versions (`VersionIndex`): no number of a schema is
stored twice, and no two live versions share their schema, their table or their slug. A statement
that would violate one is refused with a message in which the columns of that index are told, and
read back from there (`constraint?_violation`). What the caller is told depends on these columns
only, and tells the four indices apart (`toSchemaFailure_of_constraint`, `told_injective`).
-/

namespace SchemaVault

open StorageError (ColumnName IsListable listing)

/-- The unique indices of the stored schema versions. -/
inductive VersionIndex
  /-- The number of a version within its schema. -/
  | key
  /-- The schema of a live version. -/
  | schema
  /-- The table of a live version. -/
  | table
  /-- The slug of a live version. -/
  | slug
  deriving DecidableEq

namespace VersionIndex

variable {i j : VersionIndex} {a b row : VersionRow} {e : StorageError}

/-- The columns of an index. -/
def columns : VersionIndex → List String
  | key => ["schema_id", "version"]
  | schema => ["schema_id"]
  | table => ["table_name"]
  | slug => ["slug"]

/-- The constraint that an index stands for. -/
def constraint (i : VersionIndex) : Constraint :=
  match i with
  | key => .primaryKey i.columns
  | schema | table | slug => .unique i.columns

/-- Whether two rows cannot both be stored because of an index. -/
def IsViolatedBy (i : VersionIndex) (a b : VersionRow) : Prop :=
  match i with
  | key => a.schemaId = b.schemaId ∧ a.version = b.version
  | schema => a.isLive ∧ b.isLive ∧ a.schemaId = b.schemaId
  | table => a.isLive ∧ b.isLive ∧ a.tableName = b.tableName
  | slug => a.isLive ∧ b.isLive ∧ a.slug = b.slug

/-- The refusal of a row that violates an index. -/
def violation (i : VersionIndex) : StorageError :=
  match i with
  | key => Space.versionStored
  | schema | table | slug => Space.uniqueViolation i.columns

/-- What the caller is told of a row that violates an index. -/
def told : VersionIndex → Failure
  | key => .conflict "a version with this schema id and version already exists"
  | schema => .conflict "another writer activated a version of this schema first, retry"
  | table => .conflict "table name is held by the active version of another schema"
  | slug => .conflict "slug is held by the active version of another schema"

/-! ## From an index to what is told -/

/-- The columns of an index with their table. -/
def names (i : VersionIndex) : List ColumnName := i.columns.map (⟨"entity_schemas", ·⟩)

theorem isListable_names : ∀ n ∈ i.names, n.IsListable := by
  cases i <;> decide +kernel

theorem failedColumns_names (i : VersionIndex) :
    StorageError.failedColumns (listing "UNIQUE constraint failed" i.names) = i.columns := by
  have hlead : ¬[':', ' '] <:+: "UNIQUE constraint failed".toList := by decide +kernel
  have hne : i.names ≠ [] := by cases i <;> exact List.cons_ne_nil _ _
  rw [StorageError.failedColumns_listing hlead hne isListable_names, names, List.map_map]
  exact List.map_id _

/-- The result code of a violated index. -/
def code : VersionIndex → Int
  | key => StorageError.primaryKeyCode
  | schema | table | slug => StorageError.uniqueCode

theorem violation_eq (i : VersionIndex) :
    i.violation = .refused i.code (some (listing "UNIQUE constraint failed" i.names)) := by
  cases i <;> decide +kernel

/-- **The constraint behind a refusal has the columns of the violated index.** -/
theorem constraint?_violation (i : VersionIndex) : i.violation.constraint? = some i.constraint := by
  rw [violation_eq]
  cases i with
  | key => exact (StorageError.constraint?_primaryKey _).trans (by rw [failedColumns_names]; rfl)
  | schema | table | slug =>
    exact (StorageError.constraint?_unique _).trans (by rw [failedColumns_names]; rfl)

theorem toSchemaFailure_of_constraint (h : e.constraint? = some i.constraint)
    (operation : String) : e.toSchemaFailure operation = i.told := by
  rw [StorageError.toSchemaFailure, h]
  cases i <;> rfl

/-- The four indices are told apart. -/
theorem told_injective : Function.Injective told := by
  intro i j h
  cases i <;> cases j <;> simp [told] at h ⊢

/-! ## From a statement to an index -/

theorem isLive_of_checkLive {others : List VersionRow}
    (h : Space.checkLive others row = .error e) : row.isLive := by
  cases hrow : row.isLive with
  | true => rfl
  | false => simp [Space.checkLive, hrow] at h

theorem violated_of_checkLive {others : List VersionRow}
    (h : Space.checkLive others row = .error e) :
    ∃ i : VersionIndex, e = i.violation ∧ ∃ o ∈ others, i.IsViolatedBy o row := by
  have hrow := isLive_of_checkLive h
  obtain ⟨o, ho, hlive, ⟨rfl, hslug⟩ | ⟨rfl, htable⟩ | ⟨rfl, hschema⟩⟩ :=
    Space.checkLive_eq_error h
  · exact ⟨slug, rfl, o, ho, hlive, hrow, hslug⟩
  · exact ⟨table, rfl, o, ho, hlive, hrow, htable⟩
  · exact ⟨schema, rfl, o, ho, hlive, hrow, hschema⟩

end VersionIndex

namespace Space

variable {s : Space} {row : VersionRow} {id : SchemaId} {version : Version} {e : StorageError}
variable {k : Constraint}

/-- A row that is not inserted for a constraint violates an index. -/
theorem violated_of_insertVersion (h : s.insertVersion row = .error e)
    (hk : e.constraint? = some k) :
    ∃ i : VersionIndex, e = i.violation ∧ ∃ o ∈ s.versions, i.IsViolatedBy o row := by
  rcases insertVersion_eq_error h with rfl | h | ⟨rfl, o, ho, hkey⟩
  · cases hk
  · exact VersionIndex.violated_of_checkLive h
  · exact ⟨.key, rfl, o, ho, SchemaVersion.isVersion_iff.1 hkey⟩

/-- A row is inserted if its number can be stored and it violates no index. -/
theorem exists_insertVersion_iff : (∃ s', s.insertVersion row = .ok s') ↔
    canStore row.version ∧ ∀ i : VersionIndex, ∀ o ∈ s.versions, ¬i.IsViolatedBy o row := by
  simp only [insertVersion_eq_ok_iff, exists_and_left, exists_eq', and_true]
  refine and_congr_right fun _ => ?_
  constructor
  · rintro ⟨hlive, hkeys⟩ (_ | _ | _ | _) o ho hviolated
    · exact hkeys o ho (SchemaVersion.isVersion_iff.2 hviolated)
    all_goals
      obtain ⟨hold, hrow, hsame⟩ := hviolated
      have hapart := checkLive_eq_ok_iff.1 hlive hrow o ho hold
    · exact hapart.schema hsame
    · exact hapart.table hsame
    · exact hapart.slug hsame
  · intro h
    refine ⟨checkLive_eq_ok_iff.2 fun hrow o ho hold => ?_, fun o ho hkey => ?_⟩
    · exact ⟨fun hsame => h .slug o ho ⟨hold, hrow, hsame⟩,
        fun hsame => h .table o ho ⟨hold, hrow, hsame⟩,
        fun hsame => h .schema o ho ⟨hold, hrow, hsame⟩⟩
    · exact h .key o ho (SchemaVersion.isVersion_iff.1 hkey)

/-- A version that is not made active violates an index with another version. -/
theorem violated_of_markActive (h : s.markActive id version = .error e) :
    ∃ i : VersionIndex, e = i.violation ∧ ∃ v ∈ s.versions, v.isVersion id version ∧
      ∃ o ∈ s.rivals id version, i.IsViolatedBy o { v with active := true } := by
  obtain ⟨v, hv, hchosen, h⟩ := markActive_eq_error h
  obtain ⟨i, he, ho⟩ := VersionIndex.violated_of_checkLive h
  exact ⟨i, he, v, hv, hchosen, ho⟩

theorem constraint?_entityStored :
    entityStored.constraint? = some (.primaryKey ["entity_id"]) := by
  decide +kernel

end Space

/-! ## What it says -/

/-- **The columns of a violated index are read back from the message.** From a list of columns with
their tables behind a lead that ends in `: `, the columns are read in their order, whatever the
lead is, and without such a lead there are none. So the constraint behind a statement that fails
has the columns of an index that the row violates, and the failure that the caller is told is that
of the index. -/
theorem columns_read_back :
    (∀ (text : String) (names : List ColumnName), ¬[':', ' '] <:+: text.toList → names ≠ [] →
      (∀ n ∈ names, n.IsListable) →
      let message := listing text names
      let columns := names.map (·.column)
      StorageError.failedColumns message = columns ∧
        (StorageError.refused StorageError.uniqueCode (some message)).constraint? =
          some (.unique columns) ∧
        (StorageError.refused StorageError.primaryKeyCode (some message)).constraint? =
          some (.primaryKey columns)) ∧
    (∀ message : String, ¬[':', ' '] <:+: message.toList →
      StorageError.failedColumns message = []) ∧
    (∀ (s : Space) row, (∃ s', s.insertVersion row = .ok s') ↔
      Space.canStore row.version ∧ ∀ i : VersionIndex, ∀ o ∈ s.versions, ¬i.IsViolatedBy o row) ∧
    (∀ (s : Space) row e k, s.insertVersion row = .error e → e.constraint? = some k →
      ∃ i : VersionIndex, (∃ o ∈ s.versions, i.IsViolatedBy o row) ∧ k = i.constraint ∧
        ∀ operation, e.toSchemaFailure operation = i.told) ∧
    (∀ (s : Space) id version e, s.markActive id version = .error e →
      ∃ i : VersionIndex, (∃ v ∈ s.versions, v.isVersion id version ∧
        ∃ o ∈ s.rivals id version, i.IsViolatedBy o { v with active := true }) ∧
        e.constraint? = some i.constraint ∧ ∀ operation, e.toSchemaFailure operation = i.told) ∧
    (∀ (s : Space) row e, s.insertEntity row = .error e →
      (∃ o ∈ s.entities, o.id = row.id) ∧ e.constraint? = some (.primaryKey ["entity_id"])) ∧
    Function.Injective VersionIndex.told := by
  refine ⟨fun text names htext hne hnames => ?_,
    fun message => StorageError.failedColumns_of_not_infix,
    fun s row => Space.exists_insertVersion_iff, fun s row e k h hk => ?_,
    fun s id version e h => ?_, fun s row e h => ?_, VersionIndex.told_injective⟩
  · have hread := StorageError.failedColumns_listing htext hne hnames
    refine ⟨hread, (StorageError.constraint?_unique _).trans ?_,
      (StorageError.constraint?_primaryKey _).trans ?_⟩ <;> rw [hread]
  · obtain ⟨i, rfl, hviolated⟩ := Space.violated_of_insertVersion h hk
    have hconstraint := i.constraint?_violation
    exact ⟨i, hviolated, Option.some.inj (hk.symm.trans hconstraint),
      VersionIndex.toSchemaFailure_of_constraint hconstraint⟩
  · obtain ⟨i, rfl, hviolated⟩ := Space.violated_of_markActive h
    have hconstraint := i.constraint?_violation
    exact ⟨i, hviolated, hconstraint, VersionIndex.toSchemaFailure_of_constraint hconstraint⟩
  · obtain ⟨rfl, htaken⟩ := Space.taken_of_insertEntity h
    exact ⟨htaken, Space.constraint?_entityStored⟩

/-- The lead may have colons, and the tables points. -/
theorem columns_read_back_sample :
    let names : List ColumnName :=
      [⟨"main.entity_schemas", "schema_id"⟩, ⟨"main.entity_schemas", "version"⟩]
    listing "line 1:UNIQUE" names =
        "line 1:UNIQUE: main.entity_schemas.schema_id, main.entity_schemas.version" ∧
      StorageError.failedColumns (listing "line 1:UNIQUE" names) = ["schema_id", "version"] := by
  intro names
  have hread := columns_read_back.1 "line 1:UNIQUE" names (by decide +kernel)
    (List.cons_ne_nil _ _) (by decide +kernel)
  exact ⟨by decide +kernel, hread.1⟩

end SchemaVault
