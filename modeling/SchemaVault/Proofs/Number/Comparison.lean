import Mathlib.Algebra.Group.Nat.Defs
import SchemaVault.Proofs.Number.Sign

/-!
# Comparing numbers

Two integers compare by their values, and any two numbers that count as the same round to the same
double (`units_eq_of_same`). So a number that is the same as two others makes these the same,
unless they are different integers and it is a double, which both of them round to
(`same_iff_not_blurs`). Integers below `2 ^ 53` round to themselves, so that such a double is not
below `2 ^ 53` (`Blurs.not_isFine`).
-/

namespace SchemaVault

namespace Double

/-! ## Rounding integers -/

/-- The exponent is left open, since powers of that size are not to be evaluated. -/
theorem unitsPerOne_eq {k : Nat} (h : k = 1074) : unitsPerOne = Nat.pow 2 k := by
  unfold unitsPerOne
  exact congrArg _ h.symm

theorem unitsPerOne_pos : 0 < unitsPerOne := by
  obtain ⟨k, hk⟩ : ∃ k, k = 1074 := ⟨_, rfl⟩
  rw [unitsPerOne_eq hk]
  exact Nat.two_pow_pos k

/-- An integer below `2 ^ 53` has all its bits in a double. -/
theorem ofRatio?_short {n : Nat} (hpos : 0 < n) (hlt : n < 2 ^ 53) (negative : Bool) :
    ∃ d, ofRatio? negative n 1 = some d ∧ d.negative = negative ∧
      d.magnitude = n * unitsPerOne := by
  have hne : n ≠ 0 := by omega
  have hlog : n.log2 < 53 := (Nat.log2_lt hne).2 hlt
  obtain ⟨k, hk⟩ : ∃ k, n.log2 + k = 52 := ⟨52 - n.log2, by omega⟩
  have hexponent : max (binaryOrder n 1 - 52) (-1074) = -(k : Int) := by
    rw [binaryOrder_natural hne]
    omega
  have hscaled : scaled n 1 (-(k : Int)) = (n * 2 ^ k, 1) := by
    unfold scaled
    split
    · have hzero : k = 0 := by omega
      simp [hzero]
    · simp
  have hexact :
      nearestEven (scaled n 1 (-(k : Int))).1 (scaled n 1 (-(k : Int))).2 = n * 2 ^ k := by
    rw [hscaled]
    simp [nearestEven, Nat.mod_one]
  obtain ⟨hfull, hshort⟩ := scaled_natural hne
  have hsame : (n.log2 : Int) - 52 = -(k : Int) := by omega
  rw [hsame, hscaled, Nat.div_one] at hfull hshort
  have hnot : n * 2 ^ k ≠ 2 * leadingBit := by omega
  rw [ofRatio?_eq hne negative 1 hexponent hexact, if_neg hnot]
  refine ⟨⟨negative, n * 2 ^ k, -(k : Int), hshort, by omega, by omega, .inl hfull⟩,
    ofParts?_eq_some_iff.2 ⟨rfl, rfl, rfl⟩, rfl, ?_⟩
  have hsum : k + (-(k : Int) + 1074).toNat = 1074 := by omega
  show n * 2 ^ k * Nat.pow 2 (-(k : Int) + 1074).toNat = n * unitsPerOne
  rw [unitsPerOne_eq hsum, Nat.pow_eq, Nat.pow_eq, Nat.mul_assoc, ← Nat.pow_add]

/-- **An integer below `2 ^ 53` rounds to itself.** -/
theorem units_ofInt_of_lt {i : Int} (h : i.natAbs < 2 ^ 53) :
    (ofInt i).units = i * (unitsPerOne : Nat) := by
  by_cases hzero : i = 0
  · subst hzero
    have hunits : (ofInt 0).units = 0 := by decide
    exact hunits.trans (Int.zero_mul _).symm
  · obtain ⟨d, hd, hnegative, hmagnitude⟩ :=
      ofRatio?_short (show 0 < i.natAbs by omega) h (decide (i < 0))
    rw [ofInt, hd, Option.getD_some, units, hnegative, hmagnitude, Int.natCast_mul]
    by_cases hsign : i < 0
    · have hvalue : -(i.natAbs : Int) = i := by omega
      rw [decide_eq_true hsign, if_pos rfl, ← Int.neg_mul, hvalue]
    · have hvalue : (i.natAbs : Int) = i := by omega
      rw [decide_eq_false hsign, if_neg Bool.false_ne_true, hvalue]

/-- An integer from `2 ^ 53` on rounds to a double from `2 ^ 53` on. -/
theorem le_magnitude_ofInt {i : Int} (h : 2 ^ 53 ≤ i.natAbs)
    (hrange : -0x8000000000000000 ≤ i ∧ i < 0x10000000000000000) :
    2 ^ 53 * unitsPerOne ≤ (ofInt i).magnitude := by
  obtain ⟨d, hd, -, hfull, hexponent⟩ :=
    ofRatio?_natural (show 0 < i.natAbs by omega) (by omega) (decide (i < 0))
  have hlog : 53 ≤ i.natAbs.log2 := (Nat.le_log2 (by omega)).2 h
  obtain ⟨k, hk⟩ : ∃ k : Nat, k + 1 ≤ (d.exponent + 1074).toNat ∧ k = 1074 :=
    ⟨1074, by omega, rfl⟩
  have hbit : leadingBit = 2 ^ 52 := by decide
  rw [ofInt, hd, Option.getD_some, magnitude, unitsPerOne_eq hk.2, Nat.pow_eq, Nat.pow_eq]
  calc 2 ^ 53 * 2 ^ k = leadingBit * 2 ^ (k + 1) := by
        rw [hbit, ← Nat.pow_add, ← Nat.pow_add, Nat.add_comm k, ← Nat.add_assoc]
    _ ≤ d.significand * 2 ^ (d.exponent + 1074).toNat :=
        Nat.mul_le_mul hfull (Nat.pow_le_pow_right (by omega) hk.1)

theorem natAbs_units (d : Double) : d.units.natAbs = d.magnitude := by
  unfold units
  split <;> omega

end Double

namespace Number

/-! ## Integers -/

section Integers

variable {i k : Int} {hi : -0x8000000000000000 ≤ i ∧ i < 0x10000000000000000}
variable {hk : -0x8000000000000000 ≤ k ∧ k < 0x10000000000000000}

theorem compare_isLT_iff : ((integer i hi).compare (integer k hk)).isLT ↔ i < k := by
  show (Ord.compare i k).isLT ↔ i < k
  rw [Ordering.isLT_iff_eq_lt, Int.compare_eq_lt]

theorem compare_isGT_iff : ((integer i hi).compare (integer k hk)).isGT ↔ k < i := by
  show (Ord.compare i k).isGT ↔ k < i
  rw [Ordering.isGT_iff_eq_gt, Int.compare_eq_gt]

theorem same_integer_iff : (integer i hi).same (integer k hk) ↔ i = k := by
  show (Ord.compare i k).isEq ↔ i = k
  rw [Ordering.isEq_iff_eq_eq, Int.compare_eq_eq]

/-- An integer is a multiple of another exactly if it is divisible by it. -/
theorem isMultiple_integer_iff : (integer i hi).isMultiple (integer k hk) ↔ k ∣ i := by
  show (i % k == 0) ↔ k ∣ i
  rw [beq_iff_eq, Int.dvd_iff_emod_eq_zero]

end Integers

/-! ## Numbers that count as the same -/

variable {a b c : Number}

theorem exists_integer (h : a.toInt? ≠ none) : ∃ i hi, a = integer i hi := by
  cases a with
  | integer i hi => exact ⟨i, hi, rfl⟩
  | double d => exact absurd rfl h

/-- Numbers that are not both kept as integers compare as doubles. -/
theorem same_iff_units (h : a.toInt? = none ∨ b.toInt? = none) :
    a.same b ↔ a.toDouble.units = b.toDouble.units := by
  have hcompare : a.compare b = Ord.compare a.toDouble.units b.toDouble.units := by
    cases a with
    | integer i hi =>
      cases b with
      | integer k hk => simp [toInt?] at h
      | double d => rfl
    | double d => rfl
  unfold same
  rw [hcompare, Ordering.isEq_iff_eq_eq, Int.compare_eq_eq]

/-- **Without doubles, only equal numbers are the same.** -/
theorem same_iff_eq (ha : a.toInt? ≠ none) (hb : b.toInt? ≠ none) : a.same b ↔ a = b := by
  obtain ⟨i, hi, rfl⟩ := exists_integer ha
  obtain ⟨k, hk, rfl⟩ := exists_integer hb
  rw [same_integer_iff, integer.injEq]

/-- Numbers that are the same round to the same double. -/
theorem units_eq_of_same (h : a.same b) : a.toDouble.units = b.toDouble.units := by
  by_cases hkept : a.toInt? = none ∨ b.toInt? = none
  · exact (same_iff_units hkept).1 h
  · obtain ⟨ha, hb⟩ := not_or.1 hkept
    rw [(same_iff_eq ha hb).1 h]

theorem same_refl (a : Number) : a.same a := by
  by_cases ha : a.toInt? = none
  · exact (same_iff_units (.inl ha)).2 rfl
  · exact (same_iff_eq ha ha).2 rfl

theorem same_symm (h : a.same b) : b.same a := by
  by_cases hkept : a.toInt? = none ∨ b.toInt? = none
  · exact (same_iff_units hkept.symm).2 (units_eq_of_same h).symm
  · obtain ⟨ha, hb⟩ := not_or.1 hkept
    exact (same_iff_eq hb ha).2 ((same_iff_eq ha hb).1 h).symm

/-- **A double between two different integers.** When it is the same as both of them, both round to
it. -/
inductive Blurs : (a b c : Number) → Prop
  | intro {i k : Int} {hi hk} {d : Double} (h : i ≠ k) :
      Blurs (integer i hi) (double d) (integer k hk)

/-- **Numbers that are the same as a third are the same**, unless the third is a double and they are
different integers. -/
theorem same_iff_not_blurs (hab : a.same b) (hbc : b.same c) : a.same c ↔ ¬Blurs a b c := by
  have hunits := (units_eq_of_same hab).trans (units_eq_of_same hbc)
  by_cases hkept : a.toInt? = none ∨ c.toInt? = none
  · refine iff_of_true ((same_iff_units hkept).2 hunits) ?_
    rintro ⟨-⟩
    simp [toInt?] at hkept
  · obtain ⟨ha, hc⟩ := not_or.1 hkept
    obtain ⟨i, hi, rfl⟩ := exists_integer ha
    obtain ⟨k, hk, rfl⟩ := exists_integer hc
    rw [same_integer_iff]
    cases b with
    | integer j hj =>
      have hij := same_integer_iff.1 hab
      have hjk := same_integer_iff.1 hbc
      refine iff_of_true (hij.trans hjk) ?_
      rintro ⟨⟩
    | double d =>
      constructor
      · rintro hik ⟨hne⟩
        exact hne hik
      · intro hnot
        exact Decidable.byContradiction fun hne => hnot ⟨hne⟩

/-- Whether a number is an integer or a double below `2 ^ 53`, which only one integer rounds to. -/
def IsFine : Number → Prop
  | integer _ _ => True
  | double d => d.magnitude < 2 ^ 53 * Double.unitsPerOne

/-- **A double that blurs integers is not below `2 ^ 53`.** -/
theorem Blurs.not_isFine (h : Blurs a b c) (hab : a.same b) (hbc : b.same c) : ¬b.IsFine := by
  intro hfine
  cases h with
  | @intro i k hi hk d hne =>
    have hsmall : ∀ {j : Int}, (-0x8000000000000000 ≤ j ∧ j < 0x10000000000000000) →
        (Double.ofInt j).units = d.units → j * (Double.unitsPerOne : Nat) = d.units := by
      intro j hj hunits
      have hmagnitude : (Double.ofInt j).magnitude = d.magnitude := by
        rw [← Double.natAbs_units, hunits, Double.natAbs_units]
      have hlt : j.natAbs < 2 ^ 53 := by
        refine Nat.lt_of_not_le fun hle => ?_
        have hlarge := Double.le_magnitude_ofInt hle hj
        rw [hmagnitude] at hlarge
        exact absurd hfine (Nat.not_lt.2 hlarge)
      rw [← Double.units_ofInt_of_lt hlt, hunits]
    have hi' := hsmall hi (units_eq_of_same hab)
    have hk' := hsmall hk (units_eq_of_same hbc).symm
    have hpos : (Double.unitsPerOne : Int) ≠ 0 :=
      Int.natCast_ne_zero.2 (Nat.pos_iff_ne_zero.1 Double.unitsPerOne_pos)
    exact hne (Int.eq_of_mul_eq_mul_right hpos (hi'.trans hk'.symm))

end Number

end SchemaVault
