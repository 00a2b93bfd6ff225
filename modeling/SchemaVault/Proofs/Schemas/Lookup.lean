import SchemaVault.Proofs.Space.Transaction
import SchemaVault.Schemas.Queries

/-!
# What the queries on schema versions find

A query answers with stored rows, read: `findVersion?_eq_some_iff` and `findVersion?_eq_none_iff`
for a single version, `mem_of_versionsOf` and `read_of_versionsOf` for all versions of a schema.
The first version of a history and the latest version with a slug are chosen among the versions
given, whatever their ages (`first?_picks`, `latest?_picks`). What is listed is sorted, and a list
has one strict order at most (`mergeSort_eq_of_perm`).
-/

namespace SchemaVault

/-! ## Rows -/

section Rows

variable {Document : Type}

/-- A version without its flags, which is all of it that lasts. -/
def SchemaVersion.lasting (v : SchemaVersion Document) : SchemaVersion Document :=
  { v with active := false, deleted := false }

theorem SchemaVersion.lasting_eq_iff {a b : SchemaVersion Document} :
    a.lasting = b.lasting ↔
      a.schemaId = b.schemaId ∧ a.version = b.version ∧ a.definition = b.definition ∧
        a.tableName = b.tableName ∧ a.slug = b.slug ∧ a.category = b.category ∧
        a.createdAt = b.createdAt := by
  simp [lasting]

theorem SchemaVersion.isVersion_iff {v : SchemaVersion Document} {id : SchemaId}
    {version : Version} : v.isVersion id version ↔ v.schemaId = id ∧ v.version = version := by
  simp [SchemaVersion.isVersion]

theorem SchemaVersion.isLive_iff {v : SchemaVersion Document} :
    v.isLive ↔ v.active = true ∧ v.deleted = false := by
  simp [SchemaVersion.isLive]

theorem VersionRow.read_eq_ok {row : VersionRow} {r : SchemaRecord} :
    VersionRow.read row = .ok r ↔
      ∃ definition, Json.read? row.definition = some definition ∧
        row.withDefinition definition = r := by
  unfold VersionRow.read
  cases Json.read? row.definition with
  | none => simp
  | some definition => simp

/-- A failure to read a row violates no constraint. -/
theorem VersionRow.read_eq_error {row : VersionRow} {e : StorageError}
    (h : VersionRow.read row = .error e) : e = .unconvertible := by
  unfold VersionRow.read at h
  cases hd : Json.read? row.definition with
  | none =>
    simp only [hd, Except.error.injEq] at h
    exact h.symm
  | some definition => simp [hd] at h

end Rows

/-! ## Choices -/

/-- A way to choose one of some things. -/
structure Picks {α : Type} (pick : List α → Option α) : Prop where
  some_of_mem : ∀ {l a}, a ∈ l → ∃ b, pick l = some b
  mem_of_some : ∀ {l a}, pick l = some a → a ∈ l

/-- Two ways to choose find something in the same lists. -/
theorem Picks.cases {α : Type} {pick pick' : List α → Option α} (h : Picks pick)
    (h' : Picks pick') (l : List α) :
    pick l = none ∧ pick' l = none ∨
      ∃ a ∈ l, ∃ b ∈ l, pick l = some a ∧ pick' l = some b := by
  cases ha : pick l with
  | none =>
    cases hb : pick' l with
    | none => exact .inl ⟨rfl, rfl⟩
    | some b =>
      obtain ⟨a, ha'⟩ := h.some_of_mem (h'.mem_of_some hb)
      cases ha.symm.trans ha'
  | some a =>
    have hmem := h.mem_of_some ha
    obtain ⟨b, hb⟩ := h'.some_of_mem hmem
    exact .inr ⟨a, hmem, b, h'.mem_of_some hb, rfl, hb⟩

theorem foldl_mem_cons {α : Type} {g : α → α → α} (hg : ∀ a b, g a b = a ∨ g a b = b) (a : α)
    (l : List α) : l.foldl g a ∈ a :: l := by
  induction l generalizing a with
  | nil => exact List.mem_singleton_self a
  | cons b l ih =>
    rw [List.foldl_cons]
    rcases List.mem_cons.1 (ih (g a b)) with h | h
    · rw [h]
      rcases hg a b with h' | h' <;> simp [h']
    · exact List.mem_cons_of_mem _ (List.mem_cons_of_mem _ h)

theorem Picks.of_foldl {α : Type} {pick : List α → Option α} {g : α → α → α}
    (hg : ∀ a b, g a b = a ∨ g a b = b) (hnil : pick [] = none)
    (hcons : ∀ a l, pick (a :: l) = some (l.foldl g a)) : Picks pick where
  some_of_mem {l a} ha := by
    cases l with
    | nil => cases ha
    | cons b l => exact ⟨_, hcons b l⟩
  mem_of_some {l a} h := by
    cases l with
    | nil => simp [hnil] at h
    | cons b l =>
      rw [hcons, Option.some.injEq] at h
      exact h ▸ foldl_mem_cons hg b l

theorem SchemaVersion.first?_picks {Document : Type} :
    Picks (SchemaVersion.first? : List (SchemaVersion Document) → _) :=
  .of_foldl (g := fun a b => if a.byAge b then a else b)
    (fun a b => by by_cases h : a.byAge b <;> simp [h]) rfl fun _ _ => rfl

theorem SchemaVersion.latest?_picks {Document : Type} :
    Picks (SchemaVersion.latest? : List (SchemaVersion Document) → _) :=
  .of_foldl (g := fun a b => if a.createdAt ≤ b.createdAt then b else a)
    (fun a b => by by_cases h : a.createdAt ≤ b.createdAt <;> simp [h]) rfl fun _ _ => rfl

/-! ## Sorting -/

section Sorting

variable {α : Type} {cmp : α → α → Ordering} [Std.TransCmp cmp] {l l' : List α}

/-- Sorting puts the members of a list in order. -/
theorem pairwise_mergeSort_isLE (l : List α) :
    (l.mergeSort fun a b => (cmp a b).isLE).Pairwise fun a b => (cmp a b).isLE := by
  refine List.pairwise_mergeSort (fun _ _ _ => Std.TransCmp.isLE_trans) (fun a b => ?_) l
  cases hab : cmp a b with
  | gt => simp [Std.OrientedCmp.lt_of_gt hab]
  | _ => simp

/-- Sorting puts what differs in strict order. -/
theorem pairwise_mergeSort_lt (h : l.Pairwise fun a b => cmp a b ≠ .eq) :
    (l.mergeSort fun a b => (cmp a b).isLE).Pairwise fun a b => cmp a b = .lt := by
  have hne : (l.mergeSort fun a b => (cmp a b).isLE).Pairwise fun a b => cmp a b ≠ .eq :=
    (List.Perm.pairwise_iff (fun hab hba => hab (Std.OrientedCmp.eq_symm hba))
      (List.mergeSort_perm ..)).2 h
  refine ((pairwise_mergeSort_isLE l).and hne).imp fun {a b} hab => ?_
  cases hcmp : cmp a b with
  | lt => rfl
  | eq => exact absurd hcmp hab.2
  | gt =>
    have hle := hab.1
    rw [hcmp] at hle
    cases hle

/-- **Sorting leads to a list in strict order** from whatever order its members had. -/
theorem mergeSort_eq_of_perm (h : l.Pairwise fun a b => cmp a b = .lt) (hperm : l'.Perm l) :
    l'.mergeSort (fun a b => (cmp a b).isLE) = l := by
  have hne : l'.Pairwise fun a b => cmp a b ≠ .eq := by
    refine (List.Perm.pairwise_iff (fun hab hba => hab (Std.OrientedCmp.eq_symm hba)) hperm).2 ?_
    refine h.imp fun {a b} hlt heq => ?_
    cases hlt.symm.trans heq
  refine List.Perm.eq_of_pairwise (fun a b _ _ hab hba => ?_) (pairwise_mergeSort_lt hne) h
    ((List.mergeSort_perm ..).trans hperm)
  have hgt := Std.OrientedCmp.gt_of_lt hab
  cases hgt.symm.trans hba

end Sorting

/-- What satisfies a condition that no two members of a list satisfy is found in it. -/
theorem find?_eq_some_iff_mem {α : Type} {p : α → Bool} {l : List α} {a : α}
    (h : l.Pairwise fun a b => p a = true → p b ≠ true) :
    l.find? p = some a ↔ a ∈ l ∧ p a = true := by
  constructor
  · exact fun hfind => ⟨List.mem_of_find?_eq_some hfind, List.find?_some hfind⟩
  · rintro ⟨ha, hpa⟩
    induction h with
    | nil => cases ha
    | @cons b l hb _ ih =>
      rw [List.find?_cons]
      rcases List.mem_cons.1 ha with rfl | ha
      · rw [hpa]
      · cases hpb : p b with
        | true => exact absurd hpa (hb a ha hpb)
        | false => exact ih ha

/-! ## Queries -/

namespace Space

variable {s : Space} {id : SchemaId}

theorem findVersion?_eq_some_iff {p : VersionRow → Bool} {r : SchemaRecord} :
    s.findVersion? p = .ok (some r) ↔
      ∃ row, s.versions.find? p = some row ∧ VersionRow.read row = .ok r := by
  unfold findVersion?
  cases s.versions.find? p with
  | none => simp [pure, Except.pure]
  | some row => cases h : VersionRow.read row <;> simp [h, Functor.map, Except.map]

theorem findVersion?_eq_none_iff {p : VersionRow → Bool} :
    s.findVersion? p = .ok none ↔ s.versions.find? p = none := by
  unfold findVersion?
  cases s.versions.find? p with
  | none => simp [pure, Except.pure]
  | some row => cases h : VersionRow.read row <;> simp [h, Functor.map, Except.map]

theorem findVersion?_eq_error {p : VersionRow → Bool} {e : StorageError}
    (h : s.findVersion? p = .error e) : e = .unconvertible := by
  unfold findVersion? at h
  cases hp : s.versions.find? p with
  | none => simp [hp, pure, Except.pure] at h
  | some row =>
    cases hr : VersionRow.read row with
    | error e' =>
      simp only [hp, Option.mapM_some, hr, Functor.map, Except.map, Except.error.injEq] at h
      exact h ▸ VersionRow.read_eq_error hr
    | ok r => simp [hp, hr, Functor.map, Except.map] at h

theorem versionsOf_eq_ok {history : List SchemaRecord} (h : s.versionsOf id = .ok history) :
    ∃ records, List.Forall₂ (fun row r => VersionRow.read row = .ok r)
        (s.versions.filter (·.schemaId == id)) records ∧
      records.Perm history := by
  obtain ⟨records, hr, h⟩ := Transaction.bind_eq_ok.1 h
  obtain rfl := Transaction.pure_eq_ok.1 h
  exact ⟨records, Transaction.mapM_eq_ok.1 hr, (List.mergeSort_perm _ _).symm⟩

/-- What a history lists is stored. -/
theorem mem_of_versionsOf {history : List SchemaRecord} (h : s.versionsOf id = .ok history)
    {r : SchemaRecord} (hr : r ∈ history) :
    ∃ row ∈ s.versions, row.schemaId = id ∧ VersionRow.read row = .ok r := by
  obtain ⟨records, hall, hperm⟩ := versionsOf_eq_ok h
  obtain ⟨row, hrow, hread⟩ :=
    Transaction.forall₂_left_of_mem hall.flip (hperm.mem_iff.2 hr)
  obtain ⟨hmem, hid⟩ := List.mem_filter.1 hrow
  exact ⟨row, hmem, by simpa using hid, hread⟩

/-- What is stored of a schema is listed in its history. -/
theorem read_of_versionsOf {history : List SchemaRecord} (h : s.versionsOf id = .ok history)
    {row : VersionRow} (hrow : row ∈ s.versions) (hid : row.schemaId = id) :
    ∃ r ∈ history, VersionRow.read row = .ok r := by
  obtain ⟨records, hall, hperm⟩ := versionsOf_eq_ok h
  obtain ⟨r, hr, hread⟩ :=
    Transaction.forall₂_left_of_mem hall (List.mem_filter.2 ⟨hrow, by simpa using hid⟩)
  exact ⟨r, hperm.mem_iff.1 hr, hread⟩

/-- Whether a schema has a version of a number, deleted or not. -/
def HasVersion (s : Space) (id : SchemaId) (version : Version) : Prop :=
  ∃ row ∈ s.versions, row.isVersion id version

/-- The numbers that a history lists are those of the stored versions of the schema. -/
theorem mem_numbers_of_versionsOf {history : List SchemaRecord} {version : Version}
    (h : s.versionsOf id = .ok history) :
    version ∈ history.map (·.version) ↔ s.HasVersion id version := by
  simp only [List.mem_map, HasVersion, SchemaVersion.isVersion_iff]
  constructor
  · rintro ⟨r, hr, rfl⟩
    obtain ⟨row, hrow, hid, hread⟩ := mem_of_versionsOf h hr
    obtain ⟨_, -, rfl⟩ := VersionRow.read_eq_ok.1 hread
    exact ⟨row, hrow, hid, rfl⟩
  · rintro ⟨row, hrow, hid, rfl⟩
    obtain ⟨r, hr, hread⟩ := read_of_versionsOf h hrow hid
    obtain ⟨_, -, rfl⟩ := VersionRow.read_eq_ok.1 hread
    exact ⟨_, hr, rfl⟩

theorem versionsOf_eq_error {e : StorageError} (h : s.versionsOf id = .error e) :
    e = .unconvertible := by
  rcases Transaction.bind_eq_error.1 h with h | ⟨records, -, h⟩
  · obtain ⟨row, -, h⟩ := Transaction.mapM_eq_error h
    exact VersionRow.read_eq_error h
  · simp [pure, Except.pure] at h

end Space

end SchemaVault
