import SchemaVault.Proofs.Entities.Ungoverned
import SchemaVault.Proofs.Schemas.ActiveHistory
import SchemaVault.Proofs.Schemas.Identity
import SchemaVault.Proofs.Version

/-!
# The queries are views of one list

All stored versions, each of them once and in strict order by table, number and schema, are one
list, and what every query on schema versions answers is a part of it (`Space.Views`,
`registry_views`). The queries filter and sort in different ways, and a look-up of a single version
takes the first row that will do. They agree because of what is stored: no two versions of a schema
share a number and no two live versions anything unique (`Consistent`), and a schema keeps its table
(`Pinned`), so that the versions of a schema stand in the order of their numbers in the list of all
versions.

A query reads the definitions of its own part. One that cannot be read fails the lists that it is
on, and no other query (`deep_version_spoils_list`).
-/

namespace SchemaVault

theorem SchemaId.value_inj {i j : SchemaId} : i.id.value = j.id.value ↔ i = j := by
  obtain ⟨⟨m, hm⟩⟩ := i
  obtain ⟨⟨n, hn⟩⟩ := j
  simp

/-! ## The order of versions -/

namespace SchemaVersion

variable {Document : Type} {a b : SchemaVersion Document}

/-- The order of the versions of one schema. -/
def versionOrder (a b : SchemaVersion Document) : Ordering := a.version.compare b.version

/-- The order of the versions of all schemas. -/
def tableOrder (a b : SchemaVersion Document) : Ordering :=
  (Ord.compare a.tableName b.tableName).then
    ((a.version.compare b.version).then (Ord.compare a.schemaId.id.value b.schemaId.id.value))

/-- Whether a version comes before another among the versions of all schemas: by table, then by
number, then by schema. -/
def Precedes (a b : SchemaVersion Document) : Prop :=
  a.tableName < b.tableName ∨ a.tableName = b.tableName ∧
    (a.version < b.version ∨ a.version = b.version ∧ a.schemaId.id.value < b.schemaId.id.value)

instance : Std.TransCmp (@versionOrder Document) where
  eq_swap {a b} :=
    (Std.OrientedCmp.eq_swap : a.version.compare b.version = (b.version.compare a.version).swap)
  isLE_trans {a _ c} hab hbc :=
    (Std.TransCmp.isLE_trans hab hbc : (a.version.compare c.version).isLE)

instance : Std.TransCmp (@tableOrder Document) :=
  inferInstanceAs <| Std.TransCmp <|
    compareLex (compareOn fun a : SchemaVersion Document => a.tableName)
      (compareLex versionOrder (compareOn fun a => a.schemaId.id.value))

theorem tableOrder_eq_lt : tableOrder a b = .lt ↔ a.Precedes b := by
  have htable : Ord.compare a.tableName b.tableName = .lt ↔ a.tableName < b.tableName :=
    compareOfLessAndEq_eq_lt
  have hversion : a.version.compare b.version = .lt ↔ a.version < b.version := Iff.rfl
  simp only [tableOrder, Ordering.then_eq_lt, htable, hversion, Nat.compare_eq_lt, Precedes,
    Std.LawfulEqCmp.compare_eq_iff_eq]

theorem key_of_tableOrder_eq (h : tableOrder a b = .eq) :
    a.schemaId = b.schemaId ∧ a.version = b.version := by
  obtain ⟨-, h⟩ := Ordering.then_eq_eq.1 h
  obtain ⟨hversion, hschema⟩ := Ordering.then_eq_eq.1 h
  exact ⟨SchemaId.value_inj.1 (Nat.compare_eq_eq.1 hschema),
    Std.LawfulEqCmp.eq_of_compare hversion⟩

/-- In one table the versions of one schema stand in the order of their numbers. -/
theorem Precedes.version_lt (h : a.Precedes b) (htable : a.tableName = b.tableName)
    (hschema : a.schemaId = b.schemaId) : a.version < b.version := by
  rcases h with hlt | ⟨-, hlt | ⟨-, hlt⟩⟩
  · exact absurd (htable ▸ hlt) (String.lt_irrefl _)
  · exact hlt
  · exact absurd (hschema ▸ hlt) (Nat.lt_irrefl _)

/-! ### Parts of a list -/

/-- The versions of a schema. -/
def ofSchema (id : SchemaId) (all : List (SchemaVersion Document)) :
    List (SchemaVersion Document) := all.filter (·.schemaId == id)

/-- The versions that are not deleted. -/
def undeleted (all : List (SchemaVersion Document)) : List (SchemaVersion Document) :=
  all.filter (!·.deleted)

/-- The live versions. -/
def live (all : List (SchemaVersion Document)) : List (SchemaVersion Document) :=
  all.filter isLive

end SchemaVersion

open SchemaVersion

/-! ## Rows -/

/-- A version as it is read, if it can be. -/
def VersionRow.shown (row : VersionRow) : SchemaRecord :=
  row.withDefinition ((Json.read? row.definition).getD .null)

namespace Space

variable {rows : List VersionRow} {s : Space} {c : Circumstances} {r : SchemaRecord}
variable {records : List SchemaRecord}

theorem Readable.read (h : Readable rows) {row : VersionRow} (hrow : row ∈ rows) :
    VersionRow.read row = .ok row.shown := by
  obtain ⟨definition, hdefinition⟩ := h row hrow
  rw [VersionRow.read, VersionRow.shown, hdefinition]
  rfl

theorem Readable.mapM_read (h : Readable rows) :
    rows.mapM VersionRow.read = .ok (rows.map VersionRow.shown) :=
  Transaction.mapM_eq_map fun _ hrow => h.read hrow

theorem readable_of_mapM_read (h : rows.mapM VersionRow.read = .ok records) : Readable rows := by
  intro row hrow
  obtain ⟨r, -, hread⟩ := Transaction.forall₂_left_of_mem (Transaction.mapM_eq_ok.1 h) hrow
  obtain ⟨definition, hdefinition, -⟩ := VersionRow.read_eq_ok.1 hread
  exact ⟨definition, hdefinition⟩

/-- One row that cannot be read is enough that not all of them are. -/
theorem mapM_read_of_not_readable (h : ¬Readable rows) :
    rows.mapM VersionRow.read = .error .unconvertible := by
  cases hread : rows.mapM VersionRow.read with
  | error e =>
    obtain ⟨_, -, he⟩ := Transaction.mapM_eq_error hread
    rw [VersionRow.read_eq_error he]
  | ok records => exact absurd (readable_of_mapM_read hread) h

theorem mapM_read_eq_ok_iff :
    rows.mapM VersionRow.read = .ok records ↔
      Readable rows ∧ rows.map VersionRow.shown = records := by
  constructor
  · intro h
    have hread := readable_of_mapM_read h
    exact ⟨hread, Except.ok.inj (hread.mapM_read.symm.trans h)⟩
  · rintro ⟨hread, rfl⟩
    exact hread.mapM_read

/-- It makes no difference whether versions are read before they are sorted or after. -/
theorem read_sorted {le : VersionRow → VersionRow → Bool} {le' : SchemaRecord → SchemaRecord → Bool}
    (hle : ∀ a b : VersionRow, le' a.shown b.shown = le a b) (rows : List VersionRow) :
    (do
      let records ← rows.mapM VersionRow.read
      return records.mergeSort le' : Except StorageError (List SchemaRecord)) =
      (rows.mergeSort le).mapM VersionRow.read := by
  have hperm : (rows.mergeSort le).Perm rows := List.mergeSort_perm ..
  have hsame : Readable (rows.mergeSort le) ↔ Readable rows :=
    forall_congr' fun row => by rw [hperm.mem_iff]
  by_cases hread : Readable rows
  · have hsort : (rows.map VersionRow.shown).mergeSort le' =
        (rows.mergeSort le).map VersionRow.shown :=
      (List.map_mergeSort fun a _ b _ => (hle a b).symm).symm
    rw [hread.mapM_read, (hsame.2 hread).mapM_read, ← hsort]
    rfl
  · rw [mapM_read_of_not_readable hread, mapM_read_of_not_readable fun h => hread (hsame.1 h)]
    rfl

/-! ### All versions in order -/

/-- The stored versions in the order of the versions of all schemas. -/
def inOrder (rows : List VersionRow) : List VersionRow := rows.mergeSort byTable

theorem inOrder_perm (rows : List VersionRow) : (inOrder rows).Perm rows :=
  List.mergeSort_perm ..

/-- **The order of all versions is strict**, since no two versions of a schema share a number. -/
theorem Consistent.inOrder_precedes (h : Consistent rows) : (inOrder rows).Pairwise Precedes := by
  have hne : rows.Pairwise fun a b => tableOrder a b ≠ .eq := by
    refine h.coexist.imp fun {a b} hab heq => ?_
    obtain ⟨hschema, hversion⟩ := key_of_tableOrder_eq heq
    exact hab.key hschema hversion
  exact (pairwise_mergeSort_lt hne).imp tableOrder_eq_lt.1

/-- Some of the versions, put in order, are a part of all versions in order. -/
theorem Consistent.sort_filter (h : Consistent rows) (p : VersionRow → Bool) :
    (rows.filter p).mergeSort byTable = (inOrder rows).filter p := by
  have hlt : ((inOrder rows).filter p).Pairwise fun a b => tableOrder a b = .lt :=
    (h.inOrder_precedes.filter p).imp tableOrder_eq_lt.2
  have hsort : (rows.filter p).mergeSort (fun a b => (tableOrder a b).isLE) =
      (inOrder rows).filter p := mergeSort_eq_of_perm hlt ((inOrder_perm rows).symm.filter p)
  exact hsort

/-- **The versions of a schema stand in the order of their numbers**, if they are of one table. -/
theorem Consistent.ofSchema_ascending (h : Consistent rows) (hpinned : Pinned rows)
    (id : SchemaId) : (ofSchema id (inOrder rows)).Pairwise fun a b => a.version < b.version := by
  refine (h.inOrder_precedes.filter _).imp_of_mem fun {a b} ha hb hab => ?_
  obtain ⟨ha, hida⟩ := List.mem_filter.1 ha
  obtain ⟨hb, hidb⟩ := List.mem_filter.1 hb
  have hschema : a.schemaId = b.schemaId := (beq_iff_eq.1 hida).trans (beq_iff_eq.1 hidb).symm
  have hkindred := hpinned a ((inOrder_perm rows).subset ha) b ((inOrder_perm rows).subset hb)
  exact hab.version_lt (hkindred.schema hschema).1 hschema

/-- The versions of a schema, put in the order of their numbers, are a part of all versions in
order. -/
theorem Consistent.sort_ofSchema (h : Consistent rows) (hpinned : Pinned rows) (id : SchemaId) :
    (ofSchema id rows).mergeSort byVersion = ofSchema id (inOrder rows) := by
  have hsort : (ofSchema id rows).mergeSort (fun a b => (versionOrder a b).isLE) =
      ofSchema id (inOrder rows) :=
    mergeSort_eq_of_perm (h.ofSchema_ascending hpinned id) ((inOrder_perm rows).symm.filter _)
  exact hsort

/-- The live versions share nothing unique. -/
theorem Consistent.live_apart (h : Consistent rows) : (live (inOrder rows)).Pairwise Apart := by
  have hlive : (live rows).Pairwise Apart := by
    refine (h.coexist.filter _).imp_of_mem fun {a b} ha hb hab => ?_
    exact hab.live (List.mem_filter.1 ha).2 (List.mem_filter.1 hb).2
  exact ((inOrder_perm rows).filter _).symm.pairwise hlive Apart.symm

/-! ## What the queries answer -/

/-- What is answered to a query that lists some versions: what their rows read as, or that the
storage has failed if one of them cannot be read. -/
def listed (operation : String) (rows : List VersionRow) : Except Failure (List SchemaRecord) :=
  (rows.mapM VersionRow.read).mapError (·.toFailure operation)

theorem listed_eq_ok_iff {operation : String} :
    listed operation rows = .ok records ↔ Readable rows ∧ rows.map VersionRow.shown = records := by
  rw [listed, Transaction.mapError_eq_ok, mapM_read_eq_ok_iff]

theorem listed_of_not_readable (h : ¬Readable rows) (operation : String) :
    listed operation rows = .error (.internal (operation ++ " failed")) := by
  rw [listed, mapM_read_of_not_readable h]
  rfl

theorem allVersions_eq (hrows : Consistent s.versions) (includeInactive : Bool) :
    s.allVersions includeInactive =
      ((inOrder s.versions).filter fun v => includeInactive || v.isLive).mapM VersionRow.read := by
  rw [← hrows.sort_filter]
  exact read_sorted (fun _ _ => rfl) _

theorem versionsOf_eq (hrows : Consistent s.versions) (hpinned : Pinned s.versions)
    (id : SchemaId) :
    s.versionsOf id = (ofSchema id (inOrder s.versions)).mapM VersionRow.read := by
  rw [← hrows.sort_ofSchema hpinned]
  exact read_sorted (fun _ _ => rfl) _

theorem listSchemas_eq (hc : c.Undisturbed) (hrows : Consistent s.versions)
    (includeInactive : Bool) :
    s.listSchemas c includeInactive = listed "list schemas"
      ((inOrder s.versions).filter fun v => includeInactive || v.isLive) := by
  unfold listSchemas listed
  rw [Transaction.query_of_undisturbed hc, allVersions_eq hrows]

theorem listVersions_eq (hc : c.Undisturbed) (hrows : Consistent s.versions)
    (hpinned : Pinned s.versions) (id : SchemaId) (includeDeleted : Bool) :
    s.listVersions c id includeDeleted =
      (listed "list schema versions" (ofSchema id (inOrder s.versions))).map fun records =>
        records.filter fun r => includeDeleted || !r.deleted := by
  unfold listVersions listed
  rw [Transaction.query_of_undisturbed hc, versionsOf_eq hrows hpinned]
  cases (ofSchema id (inOrder s.versions)).mapM VersionRow.read <;> rfl

/-- A look-up of a single version finds the version that will do, if there is one at most. -/
theorem findVersion?_eq_some_iff_mem {p : VersionRow → Bool}
    (hone : s.versions.Pairwise fun a b => p a = true → p b ≠ true) :
    s.findVersion? p = .ok (some r) ↔
      ∃ row ∈ inOrder s.versions, p row = true ∧ VersionRow.read row = .ok r := by
  simp only [findVersion?_eq_some_iff, find?_eq_some_iff_mem hone,
    (inOrder_perm s.versions).mem_iff, and_assoc]

/-- A look-up of a single version whose finding is sifted before it is told. -/
theorem lookup_eq_ok_iff (hc : c.Undisturbed) {p : VersionRow → Bool}
    {sift : Option SchemaRecord → Option SchemaRecord} {operation what : String} :
    ((Transaction.query c (·.findVersion? p) s).mapError (·.toFailure operation) >>= fun found =>
        orNotFound (sift found) what) = .ok r ↔
      ∃ found, s.findVersion? p = .ok found ∧ sift found = some r := by
  rw [Transaction.query_of_undisturbed hc, Transaction.bind_eq_ok]
  refine exists_congr fun found => and_congr Transaction.mapError_eq_ok ?_
  cases sift found <;> simp [orNotFound]

/-! ## Views -/

/-- Whether some rows are all stored versions, and every query is answered with a part of them. A
query that lists versions fails if a row of its own part cannot be read, and a look-up finds the
version that it asks for if this can be read. -/
structure Views (s : Space) (c : Circumstances) (all : List VersionRow) : Prop where
  /-- Every stored version is among them, and only once. -/
  stored : all.Perm s.versions
  /-- They stand in strict order by table, number and schema. -/
  ascending : all.Pairwise Precedes
  listSchemas : s.listSchemas c true = listed "list schemas" all
  listVersions : ∀ id, s.listVersions c id true = listed "list schema versions" (ofSchema id all)
  versions_ascending : ∀ id, (ofSchema id all).Pairwise fun a b => a.version < b.version
  listUndeleted : ∀ id, s.listVersions c id false =
    (listed "list schema versions" (ofSchema id all)).map undeleted
  getSchema : ∀ id version r, s.getSchema c id version = .ok r ↔
    ∃ row ∈ undeleted (ofSchema id all), row.version = version ∧ VersionRow.read row = .ok r
  findSchema : ∀ id version r, Transaction.query c (·.version? id version) s = .ok (some r) ↔
    ∃ row ∈ ofSchema id all, row.version = version ∧ VersionRow.read row = .ok r
  listLive : s.listSchemas c false = listed "list schemas" (live all)
  one_of_schema : ((live all).map (·.schemaId)).Nodup
  one_of_table : ((live all).map (·.tableName)).Nodup
  one_of_slug : ((live all).map (·.slug)).Nodup
  getActive : ∀ id r, s.getActive c id = .ok r ↔
    ∃ row ∈ live all, row.schemaId = id ∧ VersionRow.read row = .ok r
  getActiveForTable : ∀ table r, s.getActiveForTable c table = .ok r ↔
    ∃ row ∈ live all, row.tableName = table ∧ VersionRow.read row = .ok r
  /-- A table without a live version is said to have none. -/
  ungoverned : ∀ table, s.getActiveForTable c table = .error (noActiveSchema table) ↔
    ∀ row ∈ live all, row.tableName ≠ table

/-- **The queries are views of the stored versions in order.** -/
theorem views_inOrder (hrows : Consistent s.versions) (hpinned : Pinned s.versions)
    (hc : c.Undisturbed) : s.Views c (inOrder s.versions) where
  stored := inOrder_perm s.versions
  ascending := hrows.inOrder_precedes
  listSchemas := by
    rw [listSchemas_eq hc hrows]
    simp only [Bool.true_or, List.filter_true]
  listVersions id := by
    rw [listVersions_eq hc hrows hpinned]
    simp only [Bool.true_or, List.filter_true]
    cases listed "list schema versions" (ofSchema id (inOrder s.versions)) <;> rfl
  versions_ascending := hrows.ofSchema_ascending hpinned
  listUndeleted id := listVersions_eq hc hrows hpinned id false
  getSchema id version r := by
    have hfound := findVersion?_eq_some_iff_mem (r := r) (hrows.one_version id version)
    simp only [SchemaVersion.isVersion_iff] at hfound
    refine (lookup_eq_ok_iff hc).trans ?_
    constructor
    · rintro ⟨found, hfind, hr⟩
      obtain ⟨rfl, hkept⟩ := Option.filter_eq_some_iff.1 hr
      obtain ⟨row, hrow, ⟨hid, hversion⟩, hread⟩ := hfound.1 hfind
      obtain ⟨definition, -, rfl⟩ := VersionRow.read_eq_ok.1 hread
      exact ⟨row, List.mem_filter.2 ⟨List.mem_filter.2 ⟨hrow, beq_iff_eq.2 hid⟩, hkept⟩, hversion,
        hread⟩
    · rintro ⟨row, hrow, hversion, hread⟩
      obtain ⟨hrow, hkept⟩ := List.mem_filter.1 hrow
      obtain ⟨hrow, hid⟩ := List.mem_filter.1 hrow
      have hfind := hfound.2 ⟨row, hrow, ⟨beq_iff_eq.1 hid, hversion⟩, hread⟩
      obtain ⟨definition, -, rfl⟩ := VersionRow.read_eq_ok.1 hread
      exact ⟨_, hfind, Option.filter_eq_some_iff.2 ⟨rfl, hkept⟩⟩
  findSchema id version r := by
    rw [Transaction.query_of_undisturbed hc]
    refine (findVersion?_eq_some_iff_mem (hrows.one_version id version)).trans ?_
    simp only [SchemaVersion.isVersion_iff, ofSchema, List.mem_filter, beq_iff_eq, and_assoc]
  listLive := listSchemas_eq hc hrows false
  one_of_schema := List.pairwise_map.2 (hrows.live_apart.imp Apart.schema)
  one_of_table := List.pairwise_map.2 (hrows.live_apart.imp Apart.table)
  one_of_slug := List.pairwise_map.2 (hrows.live_apart.imp Apart.slug)
  getActive id r := by
    refine (lookup_eq_ok_iff hc).trans ?_
    rw [exists_eq_right]
    refine (findVersion?_eq_some_iff_mem (hrows.one_of_schema id)).trans ?_
    simp only [Bool.and_eq_true, beq_iff_eq, live, List.mem_filter, and_assoc, and_left_comm]
  getActiveForTable table r := by
    refine (lookup_eq_ok_iff hc).trans ?_
    rw [exists_eq_right]
    refine (findVersion?_eq_some_iff_mem (hrows.one_of_table table)).trans ?_
    simp only [Bool.and_eq_true, beq_iff_eq, live, List.mem_filter, and_assoc, and_left_comm]
  ungoverned table := by
    rw [getActiveForTable_eq_error_iff hc, activeForTable?, findVersion?_eq_none_iff,
      List.find?_eq_none]
    simp only [live, List.mem_filter, (inOrder_perm s.versions).mem_iff, Bool.and_eq_true,
      beq_iff_eq, not_and, and_imp]
    exact forall₂_congr fun row _ => imp_not_comm

/-! ### Views of what is answered -/

/-- Versions that are asked for by what they are, among rows that can be read. -/
theorem Readable.exists_read_iff (h : Readable rows) {q : SchemaRecord → Prop} :
    (∃ row ∈ rows, q row.shown ∧ VersionRow.read row = .ok r) ↔
      r ∈ rows.map VersionRow.shown ∧ q r := by
  rw [List.mem_map]
  constructor
  · rintro ⟨row, hrow, hq, hread⟩
    obtain rfl := Except.ok.inj ((h.read hrow).symm.trans hread)
    exact ⟨⟨row, hrow, rfl⟩, hq⟩
  · rintro ⟨⟨row, hrow, rfl⟩, hq⟩
    exact ⟨row, hrow, hq, h.read hrow⟩

theorem live_map_shown (rows : List VersionRow) :
    live (rows.map VersionRow.shown) = (live rows).map VersionRow.shown := List.filter_map

theorem undeleted_map_shown (rows : List VersionRow) :
    undeleted (rows.map VersionRow.shown) = (undeleted rows).map VersionRow.shown := List.filter_map

theorem ofSchema_map_shown (id : SchemaId) (rows : List VersionRow) :
    ofSchema id (rows.map VersionRow.shown) = (ofSchema id rows).map VersionRow.shown :=
  List.filter_map

theorem Readable.filter (h : Readable rows) (p : VersionRow → Bool) : Readable (rows.filter p) :=
  fun row hrow => h row (List.mem_of_mem_filter hrow)

/-- Whether what is answered about single versions of a schema, and without the deleted ones, is
found in the list of all its versions. -/
structure IsHistory (s : Space) (c : Circumstances) (id : SchemaId) (history : List SchemaRecord) :
    Prop where
  ascending : history.Pairwise fun a b => a.version < b.version
  listUndeleted : s.listVersions c id false = .ok (undeleted history)
  getSchema : ∀ version r, s.getSchema c id version = .ok r ↔
    r ∈ undeleted history ∧ r.version = version
  findSchema : ∀ version r, Transaction.query c (·.version? id version) s = .ok (some r) ↔
    r ∈ history ∧ r.version = version

/-- Whether what is answered about the active versions of schemas and tables is found in the list of
live versions. -/
structure IsDirectory (s : Space) (c : Circumstances) (actives : List SchemaRecord) : Prop where
  one_of_schema : (actives.map (·.schemaId)).Nodup
  one_of_table : (actives.map (·.tableName)).Nodup
  one_of_slug : (actives.map (·.slug)).Nodup
  getActive : ∀ id r, s.getActive c id = .ok r ↔ r ∈ actives ∧ r.schemaId = id
  getActiveForTable : ∀ table r, s.getActiveForTable c table = .ok r ↔
    r ∈ actives ∧ r.tableName = table
  ungoverned : ∀ table, s.getActiveForTable c table = .error (noActiveSchema table) ↔
    ∀ r ∈ actives, r.tableName ≠ table

namespace Views

variable {all : List VersionRow} {id : SchemaId}

/-- **What is answered as the versions of a schema is its history.** -/
theorem isHistory (h : s.Views c all) {history : List SchemaRecord}
    (hlisted : s.listVersions c id true = .ok history) : s.IsHistory c id history := by
  rw [h.listVersions, listed_eq_ok_iff] at hlisted
  obtain ⟨hread, rfl⟩ := hlisted
  refine ⟨List.pairwise_map.2 (h.versions_ascending id), ?_, fun version r => ?_,
    fun version r => ?_⟩
  · rw [h.listUndeleted, listed_eq_ok_iff.2 ⟨hread, rfl⟩]
    rfl
  · rw [h.getSchema, undeleted_map_shown]
    exact (hread.filter _).exists_read_iff (q := fun r => r.version = version)
  · rw [h.findSchema]
    exact hread.exists_read_iff (q := fun r => r.version = version)

/-- **What is answered as the live versions is a directory** of schemas and tables. -/
theorem isDirectory (h : s.Views c all) {actives : List SchemaRecord}
    (hlisted : s.listSchemas c false = .ok actives) : s.IsDirectory c actives := by
  rw [h.listLive, listed_eq_ok_iff] at hlisted
  obtain ⟨hread, rfl⟩ := hlisted
  refine ⟨?_, ?_, ?_, fun id r => ?_, fun table r => ?_, fun table => ?_⟩
  · rw [List.map_map]
    exact h.one_of_schema
  · rw [List.map_map]
    exact h.one_of_table
  · rw [List.map_map]
    exact h.one_of_slug
  · rw [h.getActive]
    exact hread.exists_read_iff (q := fun r => r.schemaId = id)
  · rw [h.getActiveForTable]
    exact hread.exists_read_iff (q := fun r => r.tableName = table)
  · rw [h.ungoverned, List.forall_mem_map]
    rfl

/-- **What is answered as all versions has the other lists as its parts.** -/
theorem parts (h : s.Views c all) {records : List SchemaRecord}
    (hlisted : s.listSchemas c true = .ok records) :
    (∃ rows : List VersionRow, rows.Perm s.versions ∧ rows.mapM VersionRow.read = .ok records) ∧
      records.Pairwise Precedes ∧ s.listSchemas c false = .ok (live records) ∧
        ∀ id, s.listVersions c id true = .ok (ofSchema id records) := by
  rw [h.listSchemas, listed_eq_ok_iff] at hlisted
  obtain ⟨hread, rfl⟩ := hlisted
  refine ⟨⟨all, h.stored, hread.mapM_read⟩, List.pairwise_map.2 h.ascending, ?_, fun id => ?_⟩
  · rw [h.listLive, listed_eq_ok_iff]
    exact ⟨hread.filter _, (live_map_shown all).symm⟩
  · rw [h.listVersions, listed_eq_ok_iff]
    exact ⟨hread.filter _, (ofSchema_map_shown id all).symm⟩

end Views

end Space

open Space

/-! ## What they say -/

/-- **The queries on schema versions are views of one list.** In every reachable space all stored
versions are one list, each of them once and in strict order by table, number and schema, and every
query is answered with a part of it: the versions of a schema, in the order of their numbers, the
same without the deleted ones, the live ones, of which there is one at most of a schema, of a table
and of a slug, and the single versions that are found in these. A query fails only if a definition
in its own part cannot be read; all of them can be read if those that have been stored can be. So
the lists that are answered have all the other answers as their parts: the versions of a schema what
is answered about the schema, the live versions what is answered about active versions, and all
versions the other two lists. An operation on the entities of a table is refused for want of an
active schema exactly if the question for the schema of the table is. -/
theorem registry_views {run : List Step}
    (hrun : Site.fresh.Along (fun site step => step.MintsNew site) run) {c : Circumstances}
    (hc : c.Undisturbed) :
    let s := (Site.fresh.after run).space
    (Site.fresh.Along (fun _ step => step.Asks Request.DefinitionReads) run →
        Readable s.versions) ∧
      (∃ all, s.Views c all) ∧
      (∀ records, s.listSchemas c true = .ok records →
        (∃ rows : List VersionRow, rows.Perm s.versions ∧
          rows.mapM VersionRow.read = .ok records) ∧
        records.Pairwise Precedes ∧ s.listSchemas c false = .ok (live records) ∧
          ∀ id, s.listVersions c id true = .ok (ofSchema id records)) ∧
      (∀ id history, s.listVersions c id true = .ok history → s.IsHistory c id history) ∧
      (∀ actives, s.listSchemas c false = .ok actives → s.IsDirectory c actives) ∧
      ∀ c' limits r kept table, c'.Undisturbed → r.table? = some table →
        (r.changesEntity = true → c'.locked = false) →
          ((s.answer c' limits r kept).1 = .failure (noActiveSchema table) ↔
            s.getActiveForTable c table = .error (noActiveSchema table)) := by
  intro s
  have hviews : s.Views c (inOrder s.versions) :=
    views_inOrder (Site.consistent_after run) (Site.pinned_after hrun) hc
  exact ⟨Site.readable_of_reads, ⟨_, hviews⟩, fun records => hviews.parts,
    fun id history => hviews.isHistory, fun actives => hviews.isDirectory,
    fun c' limits r kept table hc' => answer_eq_noActiveSchema_iff hc' hc⟩

/-- After a run of two creations both versions are listed, only the second as a live one, and a
table without a schema is refused. -/
theorem registry_views_sample :
    let s := (Site.fresh.after Sample.run).space
    let c := Circumstances.calm 4 Sample.first
    Site.fresh.Along (fun site step => step.MintsNew site) Sample.run ∧ c.Undisturbed ∧
      Site.fresh.Along (fun _ step => step.Asks Request.DefinitionReads) Sample.run ∧
      (∃ all history actives, s.Views c all ∧
        s.listVersions c ⟨Sample.first⟩ true = .ok history ∧
        s.IsHistory c ⟨Sample.first⟩ history ∧ history.length = 2 ∧
        s.listSchemas c false = .ok actives ∧ s.IsDirectory c actives ∧
        ∃ r ∈ actives, r.tableName = "notes" ∧ r.version = ⟨1, 0, 1⟩) ∧
      (s.answer (.calm 5 Sample.first) .standard (.createEntity "tasks" Sample.payload none)
        []).1 = .failure (noActiveSchema "tasks") := by
  intro s c
  have hc : c.Undisturbed := Circumstances.calm_undisturbed 4 Sample.first
  have hs : s = Sample.stored Sample.payload := Sample.after_run
  have hfirst : (Site.fresh.after (Sample.run.take 2)).space.IsNewSchema Sample.first :=
    fun _ hv => absurd hv List.not_mem_nil
  have hsecond : (Site.fresh.after (Sample.run.take 3)).space.IsNewSchema Sample.second := by
    rw [Sample.after_three]
    simp only [IsNewSchema, List.forall_mem_singleton]
    decide
  have hrun : Site.fresh.Along (fun site step => step.MintsNew site) Sample.run :=
    ⟨trivial, trivial, hfirst, hsecond, trivial, trivial⟩
  have hdefinition : (Json.read? Sample.draft.definition.print).isSome := by decide +kernel
  have hreads : Site.fresh.Along (fun _ step => step.Asks Request.DefinitionReads) Sample.run :=
    ⟨trivial, trivial, hdefinition, hdefinition, trivial, trivial⟩
  obtain ⟨hreadable, ⟨all, hviews⟩, hparts, hhistory, hdirectory, hrefused⟩ :=
    registry_views hrun hc
  obtain ⟨records, hall⟩ : ∃ records, s.listSchemas c true = .ok records := by
    rw [hviews.listSchemas]
    exact ⟨_, listed_eq_ok_iff.2 ⟨fun row hrow =>
      hreadable hreads row (hviews.stored.subset hrow), rfl⟩⟩
  obtain ⟨⟨rows, hperm, hrows⟩, -, hlive, hlisted⟩ := hparts records hall
  have hgoverning : s.getActiveForTable c "notes" =
      .ok ((Sample.row ⟨1, 0, 1⟩ 1 true).withDefinition Sample.definition) := by
    rw [hs]
    decide +kernel
  have hungoverned : s.getActiveForTable c "tasks" = .error (noActiveSchema "tasks") := by
    rw [hs]
    decide +kernel
  refine ⟨hrun, hc, hreads, ⟨all, _, _, hviews, hlisted _, hhistory _ _ (hlisted _), ?_, hlive,
    hdirectory _ hlive, ?_⟩, ?_⟩
  · obtain ⟨-, rfl⟩ := mapM_read_eq_ok_iff.1 hrows
    rw [ofSchema_map_shown, List.length_map, ofSchema, (hperm.filter _).length_eq,
      Sample.after_run]
    rfl
  · obtain ⟨hmem, htable⟩ := ((hdirectory _ hlive).getActiveForTable _ _).1 hgoverning
    exact ⟨_, hmem, htable, rfl⟩
  · exact (hrefused _ _ _ _ _ (Circumstances.calm_undisturbed 5 Sample.first) rfl
      fun _ => rfl).2 hungoverned

/-- **One stored definition can spoil the list of all versions**, and that of the live ones. The
definition of one schema is nested deeper than what is read. What is asked about the table of
another schema is answered all the same. -/
theorem deep_version_spoils_list :
    let s := (Site.fresh.after (Sample.run.take 4 ++ [Sample.deepening])).space
    let c := Circumstances.calm 5 Sample.first
    s.versions.length = 3 ∧
      s.listSchemas c true = .error (.internal "list schemas failed") ∧
      s.listSchemas c false = .error (.internal "list schemas failed") ∧
      ∃ r, s.getActiveForTable c "notes" = .ok r := by
  intro s c
  have hc : c.Undisturbed := Circumstances.calm_undisturbed 5 Sample.first
  have hs : s = _ := Sample.after_deepening
  have hrows : Consistent s.versions := Site.consistent_after _
  have hdeep : Sample.deepRow ∈ inOrder s.versions := by
    rw [(inOrder_perm s.versions).mem_iff, hs]
    simp
  have hunreadable : ∀ includeInactive,
      ¬Readable ((inOrder s.versions).filter fun v => includeInactive || v.isLive) := by
    intro includeInactive hread
    obtain ⟨definition, hdefinition⟩ := hread Sample.deepRow
      (List.mem_filter.2 ⟨hdeep, Bool.or_eq_true_iff.2 (.inr rfl)⟩)
    rw [Sample.read?_deep] at hdefinition
    cases hdefinition
  refine ⟨by rw [hs]; rfl, ?_, ?_,
    (Sample.row ⟨1, 0, 1⟩ 1 true).withDefinition Sample.definition, ?_⟩
  · exact (listSchemas_eq hc hrows true).trans (listed_of_not_readable (hunreadable true) _)
  · exact (listSchemas_eq hc hrows false).trans (listed_of_not_readable (hunreadable false) _)
  · rw [hs]
    decide +kernel

end SchemaVault
