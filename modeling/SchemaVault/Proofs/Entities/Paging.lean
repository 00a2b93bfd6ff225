import SchemaVault.Entities.Paging
import Mathlib.Algebra.Group.Int.Defs
import Mathlib.Algebra.Group.Nat.Defs
import Mathlib.Data.List.Basic

/-!
# Pages

The arithmetic of paging. The size of a page is never 0 and its greatest size is at most the limit,
so with a limit of `2 ^ 31` the number of entities before a page is below `2 ^ 63`, and it is the
offset of the page (`Listing.exists_offset`). From `2 ^ 63` on there is no offset
(`Listing.offset_of_le`). The pages of a list follow upon each other without gaps (`flatMap_slice`).
-/

namespace SchemaVault

/-! ## Pages of a list -/

/-- How many pages of `n` items there are. -/
def pageCount (n total : Nat) : Nat := (total + n - 1) / n

/-- The items on a page of a list, if there are `n` items on a page. -/
def slice {α : Type} (n page : Nat) (l : List α) : List α := (l.drop ((page - 1) * n)).take n

theorem length_slice {α : Type} (n page : Nat) (l : List α) :
    (slice n page l).length = min n (l.length - (page - 1) * n) := by
  simp [slice]

theorem slice_map {α β : Type} (f : α → β) (n page : Nat) (l : List α) :
    slice n page (l.map f) = (slice n page l).map f := by
  simp [slice]

/-- The first pages, one after the other, are the front of the list. -/
theorem flatMap_slice_eq_take {α : Type} (n pages : Nat) (l : List α) :
    (List.range' 1 pages).flatMap (fun page => slice n page l) = l.take (pages * n) := by
  induction pages with
  | zero => simp
  | succ pages ih =>
    have hpage : slice n (1 + 1 * pages) l = (l.drop (pages * n)).take n := by
      rw [slice, Nat.one_mul, Nat.add_sub_cancel_left]
    rw [List.range'_concat, List.flatMap_append, ih, List.flatMap_singleton, hpage, Nat.succ_mul,
      List.take_add]

theorem le_pageCount_mul {n : Nat} (hn : 0 < n) (total : Nat) : total ≤ pageCount n total * n := by
  have h : total + n - 1 < (total + n - 1) / n * n + n := Nat.lt_div_mul_add hn
  unfold pageCount
  omega

/-- **All pages, one after the other, are the list.** -/
theorem flatMap_slice {α : Type} {n : Nat} (hn : 0 < n) (l : List α) :
    (List.range' 1 (pageCount n l.length)).flatMap (fun page => slice n page l) = l := by
  rw [flatMap_slice_eq_take, List.take_of_length_le (le_pageCount_mul hn l.length)]

/-! ## Clamps -/

namespace PageLimits

/-- A greatest page size, `2 ^ 31`, with which the number of entities before a page of 32 bits fits
63 bits. -/
def safeMax : Nat := 0x80000000

theorem narrow_toNat (i : Int64) : (narrow i).toNat = min i.toInt.toNat greatest :=
  UInt32.toNat_ofNat_of_lt (Nat.lt_of_le_of_lt (Nat.min_le_right ..) (by decide))

theorem narrow_pos {i : Int64} (h : 1 ≤ i) : 0 < (narrow i).toNat := by
  have hone : 1 ≤ i.toInt := Int64.le_iff_toInt_le.1 h
  have hgreatest : 0 < greatest := by decide
  rw [narrow_toNat]
  omega

theorem effectiveMax_pos (l : PageLimits) : 0 < l.effectiveMax.toNat := by
  unfold effectiveMax
  split
  · decide
  · rename_i h
    rw [UInt32.lt_iff_toNat_lt] at h
    exact Nat.not_lt.1 h

theorem effectiveMax_le {l : PageLimits} {n : Nat} (hn : 0 < n) (h : l.max.toNat ≤ n) :
    l.effectiveMax.toNat ≤ n := by
  unfold effectiveMax
  split
  · exact hn
  · exact h

/-- **The size of a page** is at least 1 and at most the greatest size. -/
theorem clampSize_bounds (l : PageLimits) (size : Option Int64) :
    0 < (l.clampSize size).toNat ∧ (l.clampSize size).toNat ≤ l.effectiveMax.toNat := by
  have hmax := l.effectiveMax_pos
  have hdefault : 0 < l.effectiveDefault.toNat ∧
      l.effectiveDefault.toNat ≤ l.effectiveMax.toNat := by
    unfold effectiveDefault
    split
    · exact ⟨by decide, hmax⟩
    · rename_i hone
      rw [UInt32.lt_iff_toNat_lt] at hone
      split
      · exact ⟨hmax, Nat.le_refl _⟩
      · rename_i hle
        rw [UInt32.lt_iff_toNat_lt] at hle
        exact ⟨Nat.not_lt.1 hone, Nat.not_lt.1 hle⟩
  unfold clampSize
  split
  · split
    · rename_i hsize
      split
      · exact ⟨hmax, Nat.le_refl _⟩
      · rename_i hle
        rw [UInt32.lt_iff_toNat_lt] at hle
        exact ⟨narrow_pos hsize, Nat.not_lt.1 hle⟩
    · exact hdefault
  · exact hdefault

theorem clampPage_pos (page : Option Int64) : 0 < (clampPage page).toNat := by
  unfold clampPage
  split
  · split
    · exact narrow_pos ‹_›
    · decide
  · decide

theorem narrow_ofNat {n : Nat} (h : n < UInt32.size) :
    narrow (Int64.ofNat n) = UInt32.ofNat n := by
  have hn : (Int64.ofNat n).toInt = n := Int64.toInt_ofNat_of_lt (Nat.lt_trans h (by decide))
  have hmin : min n greatest = n := Nat.min_eq_left (Nat.le_sub_one_of_lt h)
  rw [narrow, hn, Int.toNat_natCast, hmin]

theorem clampPage_ofNat {p : Nat} (hpos : 0 < p) (hlt : p < UInt32.size) :
    clampPage (some (Int64.ofNat p)) = UInt32.ofNat p := by
  have hone : 1 ≤ Int64.ofNat p := by
    rw [Int64.le_iff_toInt_le, Int64.toInt_ofNat_of_lt (Nat.lt_trans hlt (by decide))]
    exact Int.ofNat_le.2 hpos
  rw [clampPage, if_pos hone, narrow_ofNat hlt]

end PageLimits

/-! ## Offsets -/

namespace Listing

variable {l : Listing}

/-- The number of entities before a page. -/
def before (l : Listing) : Nat := (l.page.toNat - 1) * l.pageSize.toNat

theorem offset_eq_error {f : Failure} (h : l.offset = .error f) : f = overflow := by
  unfold offset product at h
  split at h
  · cases h
  · exact (Except.error.inj h).symm

/-- The factors of an offset are numbers of 32 bits, the first of them less by one. -/
theorem offset_eq (hpage : 0 < l.page.toNat) :
    l.offset = product (Int64.ofNat (l.page.toNat - 1)) (Int64.ofNat l.pageSize.toNat) := by
  have hone : Int64.ofNat l.page.toNat - 1 = Int64.ofNat (l.page.toNat - 1) :=
    (Int64.ofNat_sub _ _ hpage).symm
  rw [offset, hone]

/-- The product of two numbers of 32 bits is had if it is less than `2 ^ 63`. -/
theorem product_ofNat {m n : Nat} (hm : m < UInt32.size) (hn : n < UInt32.size) :
    product (Int64.ofNat m) (Int64.ofNat n) =
      if m * n < 2 ^ 63 then .ok (Int64.ofNat (m * n)) else .error overflow := by
  have hint {i : Nat} (hi : i < UInt32.size) : (Int64.ofNat i).toInt = i :=
    Int64.toInt_ofNat_of_lt (Nat.lt_trans hi (by decide))
  have hproduct : (m : Int) * n = (m * n : Nat) := (Int.natCast_mul m n).symm
  have hleast : Int64.minValue.toInt ≤ (m * n : Nat) :=
    Int.le_trans (by decide) (Int.natCast_nonneg _)
  have hmost : ((m * n : Nat) : Int) ≤ Int64.maxValue.toInt ↔ m * n < 2 ^ 63 := by
    rw [show Int64.maxValue.toInt = (2 ^ 63 - 1 : Nat) from by decide, Int.ofNat_le]
    omega
  rw [product, hint hm, hint hn, hproduct, Int64.ofNat_mul]
  simp only [hleast, hmost, true_and]

/-- **Below `2 ^ 63` the offset of a page is the number of entities before it.** -/
theorem offset_of_lt (hpage : 0 < l.page.toNat) (h : l.before < 2 ^ 63) :
    l.offset = .ok (Int64.ofNat l.before) := by
  rw [offset_eq hpage, product_ofNat (Nat.lt_of_le_of_lt (Nat.sub_le _ 1) l.page.toNat_lt)
    l.pageSize.toNat_lt]
  exact if_pos h

/-- **From `2 ^ 63` on a page has no offset.** -/
theorem offset_of_le (hpage : 0 < l.page.toNat) (h : 2 ^ 63 ≤ l.before) :
    l.offset = .error overflow := by
  rw [offset_eq hpage, product_ofNat (Nat.lt_of_le_of_lt (Nat.sub_le _ 1) l.page.toNat_lt)
    l.pageSize.toNat_lt]
  exact if_neg (Nat.not_lt.2 h)

/-- With pages of `2 ^ 31` entities at most every page has an offset. -/
theorem before_lt_of_safe (hsize : l.pageSize.toNat ≤ PageLimits.safeMax) : l.before < 2 ^ 63 := by
  calc l.before ≤ (UInt32.size - 1) * PageLimits.safeMax :=
        Nat.mul_le_mul (Nat.sub_le_sub_right (Nat.le_of_lt l.page.toNat_lt) 1) hsize
    _ < 2 ^ 63 := by decide

theorem exists_offset (hpage : 0 < l.page.toNat) (h : l.before < 2 ^ 63) :
    ∃ offset, l.offset = .ok offset ∧ offset.toInt = l.before :=
  ⟨_, offset_of_lt hpage h, Int64.toInt_ofNat_of_lt h⟩

end Listing

/-! ## Requests -/

/-- A request whose order is accepted is settled without errors. -/
theorem ListOptions.resolve_eq_ok {o : ListOptions} {declared : List String} {key : SortKey}
    {order : SortOrder} (hkey : o.sortKey declared = (key, [])) (horder : o.direction = (order, []))
    (limits : PageLimits) :
    o.resolve limits declared = .ok ⟨PageLimits.clampPage o.page, limits.clampSize o.pageSize, key,
      order, o.includeDeleted⟩ := by
  unfold resolve
  rw [hkey, horder]
  rfl

/-- What a request is settled as. -/
theorem ListOptions.eq_of_resolve {o : ListOptions} {limits : PageLimits} {declared : List String}
    {l : Listing} (h : o.resolve limits declared = .ok l) :
    l = ⟨PageLimits.clampPage o.page, limits.clampSize o.pageSize, (o.sortKey declared).1,
      o.direction.1, o.includeDeleted⟩ := by
  unfold resolve at h
  dsimp only at h
  cases hcheck : (FieldErrors.ofPairs ((o.sortKey declared).2 ++ o.direction.2)).check with
  | error e =>
    rw [hcheck] at h
    cases h
  | ok u =>
    rw [hcheck] at h
    exact (Except.ok.inj h).symm

end SchemaVault
