import SchemaVault.Number.Basic

/-!
# The sign of a number

Whether a number is above zero is decided on the double nearest to it. Rounding an integer of 64
bits gives a double of full length (`ofRatio?_natural`), so the answer is that for the number
itself (`isPositive_iff`).
-/

namespace SchemaVault

namespace Double

theorem nearestEven_eq_or (num den : Nat) :
    nearestEven num den = num / den ∨ nearestEven num den = num / den + 1 := by
  unfold nearestEven
  dsimp only
  split
  · exact .inl rfl
  · split
    · exact .inr rfl
    · split
      · exact .inl rfl
      · exact .inr rfl

/-- The order of a natural number is its binary logarithm. -/
theorem binaryOrder_natural {n : Nat} (h : n ≠ 0) : binaryOrder n 1 = n.log2 := by
  have hle := Nat.log2_self_le h
  have hlog : Nat.log2 1 = 0 := by decide
  have hscaled : scaled n 1 n.log2 = (n, 2 ^ n.log2) := by
    unfold scaled
    rw [if_pos (Int.natCast_nonneg _), Int.toNat_natCast, Nat.pow_eq, Nat.one_mul]
  unfold binaryOrder
  simp only [hlog, Int.natCast_zero, Int.sub_zero, hscaled]
  exact if_neg (by omega)

/-- A natural number, scaled to its order, has a quotient of full length. -/
theorem scaled_natural {n : Nat} (h : n ≠ 0) :
    leadingBit ≤ (scaled n 1 (n.log2 - 52)).1 / (scaled n 1 (n.log2 - 52)).2 ∧
      (scaled n 1 (n.log2 - 52)).1 / (scaled n 1 (n.log2 - 52)).2 < 2 * leadingBit := by
  have hle := Nat.log2_self_le h
  have hlt := Nat.lt_log2_self (n := n)
  have hbit : leadingBit = 2 ^ 52 := by decide
  unfold scaled
  split
  · rename_i hlong
    obtain ⟨k, hk⟩ : ∃ k, n.log2 = k + 52 := ⟨n.log2 - 52, by omega⟩
    have hexponent : ((n.log2 : Int) - 52).toNat = k := by omega
    have hpos : 0 < 2 ^ k := Nat.two_pow_pos k
    rw [hk, Nat.pow_add] at hle
    rw [hk, Nat.pow_succ, Nat.pow_add] at hlt
    simp only [hexponent, Nat.pow_eq, Nat.one_mul]
    rw [Nat.le_div_iff_mul_le hpos, Nat.div_lt_iff_lt_mul hpos, hbit]
    constructor
    · rwa [Nat.mul_comm]
    · rwa [Nat.mul_comm, Nat.mul_comm 2, ← Nat.mul_assoc]
  · rename_i hshort
    obtain ⟨k, hk⟩ : ∃ k, n.log2 + k = 52 := ⟨52 - n.log2, by omega⟩
    have hexponent : (-((n.log2 : Int) - 52)).toNat = k := by omega
    have hpos : 0 < 2 ^ k := Nat.two_pow_pos k
    simp only [hexponent, Nat.pow_eq, Nat.div_one]
    rw [hbit, ← hk, Nat.pow_add]
    constructor
    · exact Nat.mul_le_mul_right _ hle
    · rw [← Nat.mul_assoc, ← Nat.pow_succ']
      exact Nat.mul_lt_mul_of_pos_right hlt hpos

/-- The double of a sign, a significand and an exponent, if there is one. -/
def ofParts? (negative : Bool) (significand : Nat) (exponent : Int) : Option Double :=
  if h : Canonical significand exponent then some ⟨negative, significand, exponent, h⟩ else none

/-- Rounding a ratio that is not zero, after its exponent is found. -/
theorem ofRatio?_eq {num : Nat} (h : num ≠ 0) (negative : Bool) (den : Nat) {exponent : Int}
    (hexponent : max (binaryOrder num den - 52) (-1074) = exponent) {significand : Nat}
    (hsignificand :
      nearestEven (scaled num den exponent).1 (scaled num den exponent).2 = significand) :
    ofRatio? negative num den =
      if significand = 2 * leadingBit then ofParts? negative leadingBit (exponent + 1)
      else ofParts? negative significand exponent := by
  unfold ofRatio? ofParts?
  rw [if_neg h]
  simp only [hexponent, hsignificand]
  by_cases hfull : significand = 2 * leadingBit
  · simp only [if_pos hfull]
  · simp only [if_neg hfull]

theorem ofParts?_eq_some_iff {negative : Bool} {significand : Nat} {exponent : Int} {d : Double} :
    ofParts? negative significand exponent = some d ↔
      d.negative = negative ∧ d.significand = significand ∧ d.exponent = exponent := by
  unfold ofParts?
  split
  · rename_i hcanonical
    rw [Option.some.injEq]
    constructor
    · rintro rfl
      exact ⟨rfl, rfl, rfl⟩
    · rintro ⟨rfl, rfl, rfl⟩
      rfl
  · rename_i hnot
    refine iff_of_false (fun h => nomatch h) ?_
    rintro ⟨-, rfl, rfl⟩
    exact hnot d.canonical

/-- **Rounding a natural number of 64 bits gives a double of full length**, whose exponent is not
below that of the number. -/
theorem ofRatio?_natural {n : Nat} (hpos : 0 < n) (hlt : n < 0x10000000000000000)
    (negative : Bool) :
    ∃ d, ofRatio? negative n 1 = some d ∧ d.negative = negative ∧ leadingBit ≤ d.significand ∧
      (n.log2 : Int) - 52 ≤ d.exponent := by
  have hne : n ≠ 0 := by omega
  have hlog : n.log2 < 64 := (Nat.log2_lt hne).2 hlt
  have hexponent : max (binaryOrder n 1 - 52) (-1074) = (n.log2 : Int) - 52 := by
    rw [binaryOrder_natural hne]
    omega
  obtain ⟨hleast, hmost⟩ := scaled_natural hne
  have hrounded := nearestEven_eq_or (scaled n 1 (n.log2 - 52)).1 (scaled n 1 (n.log2 - 52)).2
  obtain ⟨significand, hsignificand⟩ : ∃ significand,
      nearestEven (scaled n 1 (n.log2 - 52)).1 (scaled n 1 (n.log2 - 52)).2 = significand :=
    ⟨_, rfl⟩
  rw [hsignificand] at hrounded
  rw [ofRatio?_eq hne negative 1 hexponent hsignificand]
  split
  · refine ⟨⟨negative, leadingBit, n.log2 - 52 + 1, ?_⟩, ?_, rfl, Nat.le_refl _,
      Int.le_of_lt (Int.lt_succ _)⟩
    · exact ⟨by decide, by omega, by omega, .inl (Nat.le_refl _)⟩
    · exact ofParts?_eq_some_iff.2 ⟨rfl, rfl, rfl⟩
  · have hfull : leadingBit ≤ significand := by omega
    refine ⟨⟨negative, significand, n.log2 - 52, ?_⟩, ?_, rfl, hfull, Int.le_refl _⟩
    · exact ⟨by omega, by omega, by omega, .inl hfull⟩
    · exact ofParts?_eq_some_iff.2 ⟨rfl, rfl, rfl⟩

/-- Rounding an integer of 64 bits keeps whether it is above zero. -/
theorem units_ofInt_pos_iff {i : Int}
    (h : -0x8000000000000000 ≤ i ∧ i < 0x10000000000000000) : 0 < (ofInt i).units ↔ 0 < i := by
  unfold ofInt units magnitude
  rcases Int.lt_trichotomy i 0 with hneg | rfl | hpos
  · obtain ⟨d, hd, hnegative, -⟩ :=
      ofRatio?_natural (show 0 < i.natAbs by omega) (by omega) (decide (i < 0))
    rw [hd, Option.getD_some, hnegative, decide_eq_true hneg, if_pos rfl]
    omega
  · decide
  · obtain ⟨d, hd, hnegative, hfull, -⟩ :=
      ofRatio?_natural (show 0 < i.natAbs by omega) (by omega) (decide (i < 0))
    have hsign : ¬i < 0 := by omega
    have hmagnitude : 0 < d.significand * Nat.pow 2 (d.exponent + 1074).toNat :=
      Nat.mul_pos (Nat.lt_of_lt_of_le (by decide) hfull) (Nat.two_pow_pos _)
    rw [hd, Option.getD_some, hnegative, decide_eq_false hsign, if_neg Bool.false_ne_true]
    exact iff_of_true (Int.natCast_pos.2 hmagnitude) hpos

end Double

namespace Number

/-- A number above zero, by its exact value. -/
def AboveZero : Number → Prop
  | .integer i _ => 0 < i
  | .double d => 0 < d.units

/-- **A number counts as positive exactly if it is above zero.** -/
theorem isPositive_iff (n : Number) : n.isPositive ↔ n.AboveZero := by
  unfold isPositive
  rw [decide_eq_true_iff]
  cases n with
  | integer i h => exact Double.units_ofInt_pos_iff h
  | double d => rfl

end Number

end SchemaVault
