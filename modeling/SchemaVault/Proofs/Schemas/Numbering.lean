import SchemaVault.Proofs.Schemas.AppendOnly
import Mathlib.Algebra.GroupWithZero.Nat

/-!
# The number of a new version

A draft that asks for a version gets that number, and one that asks for none gets the number after
all stored ones of its schema (`Space.IsNumber`). The numbers of a version have 64 bits, but they
are stored as signed integers, so that only those below `2 ^ 63` are ever stored
(`Site.fitStorage_after`). That is why there always is a number after all stored ones
(`exists_isNumber_iff`): it may be too large to be stored, but it does not overflow.
-/

namespace SchemaVault

namespace Version

variable {v w : Version} {vs : List Version} {P : Version → Prop}

/-- Whether signed integers of 64 bits can hold the numbers of a version. -/
structure FitsStorage (v : Version) : Prop where
  major : v.major.toNat < 2 ^ 63
  minor : v.minor.toNat < 2 ^ 63
  patch : v.patch.toNat < 2 ^ 63

theorem canStore_iff : Space.canStore v ↔ v.FitsStorage := by
  have hmax : Int64.maxValue.toUInt64.toNat = 2 ^ 63 - 1 := rfl
  have hfits : ∀ n : UInt64, n ≤ Int64.maxValue.toUInt64 ↔ n.toNat < 2 ^ 63 := by
    intro n
    rw [UInt64.le_iff_toNat_le, hmax]
    omega
  simp only [Space.canStore, Bool.and_eq_true, decide_eq_true_eq, hfits]
  exact ⟨fun ⟨⟨hmajor, hminor⟩, hpatch⟩ => ⟨hmajor, hminor, hpatch⟩,
    fun h => ⟨⟨h.major, h.minor⟩, h.patch⟩⟩

instance (v : Version) : Decidable v.FitsStorage := decidable_of_iff _ canStore_iff

/-- What can be stored has a next patch. -/
theorem FitsStorage.patch_succ_lt (h : v.FitsStorage) : v.patch.toNat + 1 < UInt64.size := by
  have hpatch := h.patch
  rw [show UInt64.size = 2 ^ 64 from rfl]
  omega

theorem Follows.unique (hv : Follows P v) (hw : Follows P w) : v = w := by
  rcases hv with ⟨hnone, rfl⟩ | ⟨g, hg, hmax, -, rfl⟩ <;>
    rcases hw with ⟨hnone', rfl⟩ | ⟨g', hg', hmax', -, rfl⟩
  · rfl
  · exact absurd hg' (hnone g')
  · exact absurd hg (hnone' g)
  · rw [eq_of_not_lt (hmax g' hg') (hmax' g hg)]

/-- There is a version after some versions if the greatest of them has a next patch. -/
theorem exists_follows (h : ∀ v ∈ vs, v.patch.toNat + 1 < UInt64.size) :
    ∃ v, Follows (· ∈ vs) v := by
  cases hgreatest : greatest? vs with
  | none => exact ⟨first, next_eq_ok_iff.1 (by rw [next, hgreatest])⟩
  | some g =>
    have hpatch := h g (greatest?_eq_some_iff.1 hgreatest).1
    exact ⟨_, next_eq_ok_iff.1 (by rw [next, hgreatest]; exact nextPatch_eq_ok_iff.2 ⟨hpatch, rfl⟩)⟩

end Version

namespace Space

variable {s s' : Space} {d : SchemaDraft} {id : SchemaId} {number version : Version}
variable {history : List SchemaRecord}

/-! ## Numbers of a schema -/

/-- Whether the numbers of all rows can be stored. -/
def FitStorage (rows : List VersionRow) : Prop := ∀ row ∈ rows, row.version.FitsStorage

/-- The numbers of the stored versions of a schema. -/
def numbersOf (s : Space) (id : SchemaId) : List Version :=
  (s.versions.filter (·.schemaId == id)).map (·.version)

theorem mem_numbersOf : version ∈ s.numbersOf id ↔ s.HasVersion id version := by
  simp only [numbersOf, List.mem_map, List.mem_filter, beq_iff_eq, HasVersion,
    SchemaVersion.isVersion_iff, and_assoc]

/-- Whether a draft gives its version a number in a schema: the one that it asks for, else the one
after all stored ones. -/
def IsNumber (s : Space) (d : SchemaDraft) (id : SchemaId) (number : Version) : Prop :=
  match d.version with
  | some text => Version.read text = .ok number
  | none => Version.Follows (s.HasVersion id) number

theorem isNumber_of_some {text : String} (h : d.version = some text) :
    s.IsNumber d id number ↔ Version.read text = .ok number := by
  rw [IsNumber, h]

theorem isNumber_of_none (h : d.version = none) :
    s.IsNumber d id number ↔ Version.Follows (s.HasVersion id) number := by
  rw [IsNumber, h]

theorem IsNumber.unique (h : s.IsNumber d id number) (h' : s.IsNumber d id version) :
    number = version := by
  cases hasked : d.version with
  | some text =>
    rw [isNumber_of_some hasked] at h h'
    exact Except.ok.inj (h.symm.trans h')
  | none =>
    rw [isNumber_of_none hasked] at h h'
    exact h.unique h'

/-- **A draft whose version can be read gives its version exactly one number** in a space that
holds only what can be stored. -/
theorem exists_isNumber_iff (hstored : FitStorage s.versions)
    (hread : ∀ text, d.version = some text → ∃ v, Version.read text = .ok v) (id : SchemaId) :
    ∃ number, ∀ v, s.IsNumber d id v ↔ v = number := by
  have hnumber : ∃ number, s.IsNumber d id number := by
    cases hasked : d.version with
    | some text =>
      obtain ⟨v, hv⟩ := hread text hasked
      exact ⟨v, (isNumber_of_some hasked).2 hv⟩
    | none =>
      have hnext : ∃ v, Version.Follows (· ∈ s.numbersOf id) v :=
        Version.exists_follows fun v hv => by
          obtain ⟨row, hrow, hversion⟩ := mem_numbersOf.1 hv
          rw [← (SchemaVersion.isVersion_iff.1 hversion).2]
          exact (hstored row hrow).patch_succ_lt
      obtain ⟨v, hv⟩ := hnext
      simp only [mem_numbersOf] at hv
      exact ⟨v, (isNumber_of_none hasked).2 hv⟩
  obtain ⟨number, hnumber⟩ := hnumber
  exact ⟨number, fun v => ⟨fun hv => hv.unique hnumber, fun hv => hv ▸ hnumber⟩⟩

/-- The number that a plan takes for a draft is its number. -/
theorem versionFor_of_isNumber {asked : Option Version} (hread : d.readVersion = .ok asked)
    (hhistory : s.versionsOf id = .ok history) (hnumber : s.IsNumber d id number) :
    versionFor asked history = .ok number := by
  cases hasked : d.version with
  | some text =>
    rw [isNumber_of_some hasked] at hnumber
    simp only [SchemaDraft.readVersion, hasked, hnumber] at hread
    obtain rfl := Except.ok.inj hread
    rfl
  | none =>
    rw [isNumber_of_none hasked] at hnumber
    simp only [SchemaDraft.readVersion, hasked] at hread
    obtain rfl := Except.ok.inj hread
    have hnext : Version.next (history.map (·.version)) = .ok number := by
      rw [Version.next_eq_ok_iff]
      simpa only [mem_numbers_of_versionsOf hhistory] using hnumber
    rw [versionFor, hnext]

/-! ## What is stored fits -/

theorem fitStorage_map_lasting {rows : List VersionRow} :
    FitStorage (rows.map SchemaVersion.lasting) ↔ FitStorage rows := List.forall_mem_map

theorem Turn.fitStorage {c : Circumstances} {r : Request} {a : Answer} (h : Turn c s r a s')
    (hrows : FitStorage s.versions) : FitStorage s'.versions := by
  have hsame : s'.versions.map SchemaVersion.lasting = s.versions.map SchemaVersion.lasting →
      FitStorage s'.versions := fun hlasting => by
    rwa [← fitStorage_map_lasting, hlasting, fitStorage_map_lasting]
  cases h with
  | rest hversions => exact hsame (by rw [hversions])
  | create hd hplan hstore =>
    obtain ⟨hfits, -, -, rfl⟩ := storePlanned_eq_ok_iff.1 hstore
    refine List.forall_mem_append.2 ⟨?_, List.forall_mem_singleton.2 (Version.canStore_iff.1 hfits)⟩
    change FitStorage _
    rwa [← fitStorage_map_lasting, deactivate_lasting, fitStorage_map_lasting]
  | activate h =>
    rcases (Turn.activate h).lasting with hlasting | ⟨_, _, _, hr, -⟩
    · exact hsame hlasting
    · cases hr
  | delete h =>
    rcases (Turn.delete (c := c) h).lasting with hlasting | ⟨_, _, _, hr, -⟩
    · exact hsame hlasting
    · cases hr

end Space

open Space

theorem Site.fitStorage_next (site : Site) (step : Step) (h : FitStorage site.space.versions) :
    FitStorage (site.next step).space.versions := by
  rcases site.next_cases step with ⟨-, migrations, hs⟩ | ⟨_, c, _, r, a, -, -, hmove⟩
  · rwa [hs]
  · exact hmove.turn.fitStorage h

/-- **No stored number is too large**, after every run. -/
theorem Site.fitStorage_after (run : List Step) : FitStorage (fresh.after run).space.versions :=
  after_of_step (I := fun site => FitStorage site.space.versions)
    (fun site step _ => fitStorage_next site step) along_true fun _ h => nomatch h

end SchemaVault
