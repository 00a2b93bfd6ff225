import SchemaVault.Proofs.Schemas.Lookup
import SchemaVault.Proofs.Text
import SchemaVault.Version

/-!
# Versions: texts and order

The text of a version reads as the version (`read_text`).

Versions are ordered by their numbers, and not by their texts (`lt_iff`). The greatest of some
versions is one of them above which there is none (`greatest?_eq_some_iff`), and the version after
some versions, the first version or the patch after the greatest (`next_eq_ok_iff`), is above all
of them (`Follows.lt`).
-/

namespace SchemaVault.Version

variable {a b c g u v : Version} {vs : List Version} {P : Version → Prop}

/-! ## Texts -/

theorem component_toString (whole : String) (n : UInt64) :
    component whole (toString n.toNat).toList = .ok n := by
  have hdigits : (toString n.toNat).toList.all Char.isDigit = true :=
    List.all_eq_true.2 fun _ hc => isDigit_of_mem_toString _ hc
  have hempty : (toString n.toNat).toList.isEmpty = false :=
    Bool.eq_false_iff.2 fun h => toString_ne_nil _ (List.isEmpty_iff.1 h)
  rw [component, hdigits, hempty, Literal.digitsValue_toString]
  simp [n.toNat_lt_size]

/-- **The text of a version reads as the version.** -/
theorem read_text (v : Version) : read v.text = .ok v := by
  have hpoint : ∀ n : Nat, '.' ∉ (toString n).toList := fun n h =>
    absurd (isDigit_of_mem_toString n h) (by decide)
  have hpieces : Text.pieces '.' v.text.toList = [(toString v.major.toNat).toList,
      (toString v.minor.toNat).toList, (toString v.patch.toNat).toList] := by
    have hpoints : ".".toList = ['.'] := rfl
    simp only [text, String.toList_append, hpoints, List.append_assoc, List.cons_append,
      List.nil_append]
    rw [Text.pieces_append (hpoint _), Text.pieces_append (hpoint _),
      Text.pieces_of_notMem (hpoint _)]
  rw [read, hpieces]
  simp only [component_toString]
  rfl

/-! ## A total order -/

theorem compare_eq_lex :
    compare = compareLex (compareOn (·.major))
      (compareLex (compareOn (·.minor)) (compareOn (·.patch))) := rfl

instance : Std.TransCmp compare := by
  rw [compare_eq_lex]
  infer_instance

theorem lt_iff :
    a < b ↔ a.major < b.major ∨ a.major = b.major ∧
      (a.minor < b.minor ∨ a.minor = b.minor ∧ a.patch < b.patch) := by
  have hnumber : ∀ x y : UInt64, Ord.compare x y = .lt ↔ x < y := fun x y =>
    compareOfLessAndEq_eq_lt
  change compare a b = .lt ↔ _
  simp only [compare, Ordering.then_eq_lt, hnumber, Std.LawfulEqOrd.compare_eq_iff_eq]

instance : Std.LawfulEqCmp compare where
  eq_of_compare {a b} h := by
    simp only [compare, Ordering.then_eq_eq, Std.LawfulEqOrd.compare_eq_iff_eq] at h
    obtain ⟨major, minor, patch⟩ := a
    obtain ⟨rfl, rfl, rfl⟩ := h
    rfl

theorem not_lt_self (a : Version) : ¬a < a := by
  intro h
  have hself : compare a a = .eq := Std.ReflCmp.compare_self
  cases hself.symm.trans h

theorem not_lt_iff : ¬a < b ↔ (compare b a).isLE := by
  have hswap : compare a b = (compare b a).swap := Std.OrientedCmp.eq_swap
  change ¬compare a b = .lt ↔ _
  rw [hswap]
  cases compare b a <;> decide

theorem not_lt_trans (hab : ¬a < b) (hbc : ¬b < c) : ¬a < c := by
  rw [not_lt_iff] at *
  exact Std.TransCmp.isLE_trans hbc hab

theorem lt_of_not_lt_of_lt (hab : ¬b < a) (hbc : b < c) : a < c := by
  rw [not_lt_iff] at hab
  exact Std.TransCmp.lt_of_isLE_of_lt hab hbc

theorem eq_of_not_lt (hab : ¬a < b) (hba : ¬b < a) : a = b := by
  rw [not_lt_iff] at hab hba
  exact Std.LawfulEqCmp.eq_of_compare (Std.OrientedCmp.isLE_antisymm hba hab)

/-! ## The greatest version -/

theorem greater_cases (a b : Version) : greater a b = a ∨ greater a b = b := by
  unfold greater
  split
  · exact .inr rfl
  · exact .inl rfl

theorem not_greater_lt (a b : Version) : ¬greater a b < a ∧ ¬greater a b < b := by
  unfold greater
  split
  · rename_i hab
    exact ⟨fun hba => not_lt_self a (Std.TransCmp.lt_trans hab hba), not_lt_self b⟩
  · rename_i hab
    exact ⟨not_lt_self a, hab⟩

theorem greatest?_picks : Picks greatest? :=
  .of_foldl (g := greater) greater_cases rfl fun _ _ => rfl

theorem not_foldl_greater_lt (v : Version) (vs : List Version) :
    ∀ u ∈ v :: vs, ¬vs.foldl greater v < u := by
  induction vs generalizing v with
  | nil => simpa using not_lt_self v
  | cons w vs ih =>
    have hstart := ih (greater v w) (greater v w) List.mem_cons_self
    obtain ⟨hv, hw⟩ := not_greater_lt v w
    intro u hu
    simp only [List.mem_cons] at hu
    rcases hu with rfl | rfl | hu
    · exact not_lt_trans hstart hv
    · exact not_lt_trans hstart hw
    · exact ih (greater v w) u (List.mem_cons_of_mem _ hu)

theorem greatest?_eq_some_iff : greatest? vs = some g ↔ g ∈ vs ∧ ∀ v ∈ vs, ¬g < v := by
  have htop : ∀ {m}, greatest? vs = some m → ∀ v ∈ vs, ¬m < v := by
    intro m hm
    cases vs with
    | nil => cases hm
    | cons v vs =>
      obtain rfl := Option.some.inj hm
      exact not_foldl_greater_lt v vs
  constructor
  · exact fun h => ⟨greatest?_picks.mem_of_some h, htop h⟩
  · rintro ⟨hg, hmax⟩
    obtain ⟨m, hm⟩ := greatest?_picks.some_of_mem hg
    rw [hm, eq_of_not_lt (htop hm g hg) (hmax m (greatest?_picks.mem_of_some hm))]

/-! ## The next version -/

/-- Whether a version is the one after all those that satisfy a condition: the first version if
there are none, otherwise the patch after the greatest. -/
def Follows (P : Version → Prop) (v : Version) : Prop :=
  (∀ u, ¬P u) ∧ v = first ∨
    ∃ g, P g ∧ (∀ u, P u → ¬g < u) ∧ g.patch.toNat + 1 < UInt64.size ∧
      v = { g with patch := g.patch + 1 }

theorem lt_nextPatch (h : g.patch.toNat + 1 < UInt64.size) :
    g < { g with patch := g.patch + 1 } := by
  refine lt_iff.2 (.inr ⟨rfl, .inr ⟨rfl, UInt64.lt_iff_toNat_lt.2 ?_⟩⟩)
  rw [UInt64.toNat_add, show (1 : UInt64).toNat = 1 from rfl, Nat.mod_eq_of_lt h]
  exact Nat.lt_succ_self _

theorem nextPatch_eq_ok_iff :
    g.nextPatch = .ok v ↔
      g.patch.toNat + 1 < UInt64.size ∧ v = { g with patch := g.patch + 1 } := by
  unfold nextPatch
  split
  · rename_i h
    simp [h, eq_comm]
  · rename_i h
    simp [h]

/-- **The version after some versions is above all of them.** -/
theorem Follows.lt (h : Follows P v) (hu : P u) : u < v := by
  rcases h with ⟨hnone, -⟩ | ⟨g, -, hmax, hpatch, rfl⟩
  · exact absurd hu (hnone u)
  · exact lt_of_not_lt_of_lt (hmax u hu) (lt_nextPatch hpatch)

theorem next_eq_ok_iff : next vs = .ok v ↔ Follows (· ∈ vs) v := by
  unfold next Follows
  cases hg : greatest? vs with
  | none =>
    have hnone : ∀ u, u ∉ vs := fun u hu => by
      obtain ⟨m, hm⟩ := greatest?_picks.some_of_mem hu
      cases hg.symm.trans hm
    simp [hnone, eq_comm]
  | some g =>
    obtain ⟨hmem, hmax⟩ := greatest?_eq_some_iff.1 hg
    rw [nextPatch_eq_ok_iff]
    constructor
    · exact fun ⟨hpatch, hv⟩ => .inr ⟨g, hmem, hmax, hpatch, hv⟩
    · rintro (⟨hnone, -⟩ | ⟨m, hm, htop, hpatch, rfl⟩)
      · exact absurd hmem (hnone g)
      · obtain rfl := eq_of_not_lt (hmax m hm) (htop g hmem)
        exact ⟨hpatch, rfl⟩

end SchemaVault.Version
