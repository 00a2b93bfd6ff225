import SchemaVault.Proofs.Version
import Mathlib.Order.Cover

/-!
# The version after all others

The next patch of a version covers it: it has the same major and minor number, and no version lies
between the two (`nextPatch_eq_ok_iff_covBy`). So the version after some versions is the least one
above all of them with the first two numbers of the greatest, and there is none only if the patch
number of the greatest is the last of 64 bits (`next_above_all`). Neither the order of the versions
nor how often one of them occurs has a part in it (`next_congr`).
-/

namespace SchemaVault.Version

variable {a b g n u : Version} {vs ws : List Version}

/-! ## The greatest version -/

/-- Whether a version is one of some versions and above all others of them. -/
structure IsGreatestOf (g : Version) (vs : List Version) : Prop where
  mem : g ∈ vs
  above : ∀ v ∈ vs, v = g ∨ v < g

theorem not_lt_iff_eq_or_lt : ¬a < b ↔ b = a ∨ b < a := by
  constructor
  · intro hab
    by_cases hba : b < a
    · exact .inr hba
    · exact .inl (eq_of_not_lt hba hab)
  · rintro (rfl | hba) hab
    · exact not_lt_self b hab
    · exact not_lt_self b (Std.TransCmp.lt_trans hba hab)

theorem greatest?_eq_some_iff_isGreatestOf : greatest? vs = some g ↔ g.IsGreatestOf vs := by
  rw [greatest?_eq_some_iff]
  constructor
  · exact fun ⟨hmem, hmax⟩ => ⟨hmem, fun v hv => not_lt_iff_eq_or_lt.1 (hmax v hv)⟩
  · exact fun h => ⟨h.mem, fun v hv => not_lt_iff_eq_or_lt.2 (h.above v hv)⟩

theorem exists_isGreatestOf (h : vs ≠ []) : ∃ g : Version, g.IsGreatestOf vs := by
  obtain ⟨v, hv⟩ := List.exists_mem_of_ne_nil vs h
  obtain ⟨g, hg⟩ := greatest?_picks.some_of_mem hv
  exact ⟨g, greatest?_eq_some_iff_isGreatestOf.1 hg⟩

/-- Which version is the greatest depends on nothing but which versions there are. -/
theorem IsGreatestOf.congr (h : ∀ v, v ∈ ws ↔ v ∈ vs) :
    g.IsGreatestOf ws ↔ g.IsGreatestOf vs :=
  ⟨fun hg => ⟨(h g).1 hg.mem, fun v hv => hg.above v ((h v).2 hv)⟩,
    fun hg => ⟨(h g).2 hg.mem, fun v hv => hg.above v ((h v).1 hv)⟩⟩

/-! ## The next patch -/

/-- What is below the next patch of a version is not above the version. -/
theorem lt_nextPatch_iff (h : g.patch.toNat + 1 < UInt64.size) :
    u < { g with patch := g.patch + 1 } ↔ ¬g < u := by
  have hpatch : (g.patch + 1).toNat = g.patch.toNat + 1 := by
    rw [UInt64.toNat_add, show (1 : UInt64).toNat = 1 from rfl, Nat.mod_eq_of_lt h]
  simp only [lt_iff, UInt64.lt_iff_toNat_lt, ← UInt64.toNat_inj, hpatch]
  omega

/-- **The next patch of a version** is the version right above it, as long as that has the same
major and minor number. -/
theorem nextPatch_eq_ok_iff_covBy :
    g.nextPatch = .ok n ↔ g ⋖ n ∧ n.major = g.major ∧ n.minor = g.minor := by
  rw [nextPatch_eq_ok_iff]
  constructor
  · rintro ⟨hpatch, rfl⟩
    exact ⟨⟨lt_nextPatch hpatch, fun u hu hlt => (lt_nextPatch_iff hpatch).1 hlt hu⟩, rfl, rfl⟩
  · rintro ⟨⟨hlt, hnone⟩, hmajor, hminor⟩
    have hpatch : g.patch.toNat + 1 < UInt64.size := by
      have hbelow : g.patch.toNat < n.patch.toNat := by
        simpa [lt_iff, hmajor, hminor, UInt64.lt_iff_toNat_lt] using hlt
      exact Nat.lt_of_le_of_lt hbelow n.patch.toNat_lt_size
    refine ⟨hpatch, eq_of_not_lt ?_ (hnone (lt_nextPatch hpatch))⟩
    exact fun hn => (lt_nextPatch_iff hpatch).1 hn hlt

theorem nextPatch_eq_overflow_iff :
    g.nextPatch = .error (.overflow g.text) ↔ g.patch.toNat = UInt64.size - 1 := by
  have hsize := g.patch.toNat_lt_size
  unfold nextPatch
  split
  · rename_i h
    exact iff_of_false nofun (by omega)
  · rename_i h
    exact iff_of_true rfl (by omega)

/-! ## The next version -/

theorem next_of_isGreatestOf (h : g.IsGreatestOf vs) : next vs = g.nextPatch := by
  rw [next, greatest?_eq_some_iff_isGreatestOf.2 h]

/-- **The version after some versions depends on nothing but which versions there are.** -/
theorem next_congr (h : ∀ v, v ∈ ws ↔ v ∈ vs) : next ws = next vs := by
  by_cases hvs : vs = []
  · have hws : ws = [] := List.eq_nil_iff_forall_not_mem.2 fun v hv => by
      rw [h, hvs] at hv
      cases hv
    rw [hws, hvs]
  · obtain ⟨g, hg⟩ := exists_isGreatestOf hvs
    rw [next_of_isGreatestOf hg, next_of_isGreatestOf ((IsGreatestOf.congr h).2 hg)]

/-- **The version after all others.** It depends only on which versions there are, and it is the
first version if there are none. Otherwise there is an overflow exactly if the patch number of the
greatest is the last one, and if not, the version has the first two numbers of the greatest, is
above all, and no version lies between it and the greatest. -/
theorem next_above_all (vs : List Version) :
    (∀ ws : List Version, (∀ v, v ∈ ws ↔ v ∈ vs) → next ws = next vs) ∧
    (vs = [] → next vs = .ok ⟨1, 0, 0⟩) ∧
    (vs ≠ [] → ∃ g, g.IsGreatestOf vs ∧
      (next vs = .error (.overflow g.text) ↔ g.patch.toNat = UInt64.size - 1) ∧
      (g.patch.toNat ≠ UInt64.size - 1 → ∃ n, next vs = .ok n ∧ n.major = g.major ∧
        n.minor = g.minor ∧ (∀ v ∈ vs, v < n) ∧ g ⋖ n)) := by
  refine ⟨fun ws => next_congr, fun hvs => by rw [hvs]; rfl, fun hvs => ?_⟩
  obtain ⟨g, hg⟩ := exists_isGreatestOf hvs
  rw [next_of_isGreatestOf hg]
  refine ⟨g, hg, nextPatch_eq_overflow_iff, fun hpatch => ?_⟩
  have hfits : g.patch.toNat + 1 < UInt64.size := by
    have hsize := g.patch.toNat_lt_size
    omega
  have hok : g.nextPatch = .ok { g with patch := g.patch + 1 } :=
    nextPatch_eq_ok_iff.2 ⟨hfits, rfl⟩
  have hnext : next vs = .ok { g with patch := g.patch + 1 } := (next_of_isGreatestOf hg).trans hok
  obtain ⟨hcovers, hmajor, hminor⟩ := nextPatch_eq_ok_iff_covBy.1 hok
  exact ⟨_, hok, hmajor, hminor, fun v hv => (next_eq_ok_iff.1 hnext).lt hv, hcovers⟩

/-- Numbers are compared by value, and not digit by digit. -/
example : next [⟨1, 9, 9⟩, ⟨1, 10, 0⟩, ⟨1, 2, 30⟩, ⟨1, 10, 0⟩] = .ok ⟨1, 10, 1⟩ := by decide

end SchemaVault.Version
