import SchemaVault.Proofs.Entities.Listing
import SchemaVault.Vault.Config

/-!
# Offsets of pages

What page a listing answers, under settings that pass their checks, whatever is asked for
(`page_offset`). Page numbers and sizes are clamped to 32 bits, and their product is taken in signed
64 bits. Below `2 ^ 63` the product is the number of entities before the page, and a page past the
end is empty. From there on there is no product, and the listing crashes. The checks of the settings
do not keep page sizes small enough: with at most `2 ^ 31 + 1` entities to a page no request gets
that far, and with more some do (`last_page_crashes`).
-/

namespace SchemaVault

open PageLimits

variable {o : ListOptions} {limits : PageLimits} {declared : List String} {l : Listing}

/-! ## Entities before a page -/

namespace ListOptions

/-- The number of entities before the page that a request asks for. -/
def before (o : ListOptions) (limits : PageLimits) : Nat :=
  ((clampPage o.page).toNat - 1) * (limits.clampSize o.pageSize).toNat

theorem before_of_resolve (h : o.resolve limits declared = .ok l) :
    l.before = o.before limits := by
  rw [eq_of_resolve h]
  rfl

/-- The request for the last page, with as many entities on it as there can be. -/
def lastPage : ListOptions :=
  ⟨some (Int64.ofNat greatest), some (Int64.ofNat greatest), none, none, false⟩

theorem before_lastPage (limits : PageLimits) :
    lastPage.before limits = (greatest - 1) * limits.effectiveMax.toNat := by
  have hnarrow : narrow (Int64.ofNat greatest) = UInt32.ofNat greatest :=
    narrow_ofNat (by decide)
  have hsize : limits.clampSize lastPage.pageSize = limits.effectiveMax := by
    rw [lastPage, clampSize, if_pos (by decide), hnarrow, ite_eq_left_iff]
    intro hnot
    refine UInt32.le_antisymm (UInt32.not_lt.1 hnot) ?_
    exact UInt32.le_iff_toNat_le.2 (Nat.le_of_lt_succ limits.effectiveMax.toNat_lt)
  rw [before, hsize, lastPage, clampPage, if_pos (by decide), hnarrow]
  rfl

/-- No request has more entities before its page. -/
theorem before_le (o : ListOptions) (limits : PageLimits) :
    o.before limits ≤ (greatest - 1) * limits.effectiveMax.toNat :=
  Nat.mul_le_mul (Nat.sub_le_sub_right (Nat.le_of_lt_succ (clampPage o.page).toNat_lt) 1)
    (limits.clampSize_bounds o.pageSize).2

/-- **The offset of every page fits 63 bits exactly if a page has at most `2 ^ 31 + 1` entities.**
-/
theorem forall_before_lt_iff (limits : PageLimits) :
    (∀ o : ListOptions, o.before limits < 2 ^ 63) ↔ limits.effectiveMax.toNat ≤ 2 ^ 31 + 1 := by
  constructor
  · intro h
    have hlast := h lastPage
    rw [before_lastPage] at hlast
    simp only [greatest, UInt32.size] at hlast
    omega
  · intro h o
    have hle := o.before_le limits
    simp only [greatest, UInt32.size] at hle
    omega

/-- Before a page of `2 ^ 31` entities at most there are less than `2 ^ 63`. -/
theorem before_lt_of_safe (h : limits.max.toNat ≤ safeMax) (o : ListOptions) :
    o.before limits < 2 ^ 63 :=
  (forall_before_lt_iff limits).2 ((effectiveMax_le (by decide) h).trans (by decide)) o

end ListOptions

/-- Settings that pass their checks have a greatest page size that is used as it is. -/
theorem Config.effectiveMax_of_validate {c : Config} (h : c.validate = .ok ()) :
    c.pageLimits.effectiveMax = c.maxPageSize := by
  unfold validate at h
  split at h
  · cases h
  · split at h
    · cases h
    · split at h
      · cases h
      · rename_i hmax
        have hpos : ¬c.maxPageSize < 1 := by
          rwa [UInt32.lt_one_iff]
        exact if_neg hpos

/-! ## Pages and their offsets -/

namespace Space

variable {s : Space} {c : Circumstances} {kept : ValidatorCache} {table : String}
variable {page : EntityPage}

/-- A page holds what is left after the entities before it, as far as there is room. -/
theorem length_pageOf (hpage : 0 < l.page.toNat) (h : s.pageOf table l = .ok page) :
    l.before < 2 ^ 63 ∧ page.records.length = min l.pageSize.toNat
      ((s.matchingEntities table l.includeDeleted).length - l.before) := by
  obtain ⟨offset, hoffset, h⟩ := Transaction.bind_eq_ok.1 h
  obtain ⟨sorted, hsorted, h⟩ := Transaction.bind_eq_ok.1 h
  obtain ⟨records, hrecords, h⟩ := Transaction.bind_eq_ok.1 h
  obtain rfl := Transaction.pure_eq_ok.1 h
  have hfits := Transaction.mapError_eq_ok.1 hoffset
  have hlt : l.before < 2 ^ 63 := by
    by_contra hle
    rw [Listing.offset_of_le hpage (not_lt.1 hle)] at hfits
    cases hfits
  obtain ⟨_, hsame, hint⟩ := Listing.exists_offset hpage hlt
  obtain rfl := Except.ok.inj (hsame.symm.trans hfits)
  refine ⟨hlt, ?_⟩
  rw [← (Transaction.mapM_eq_ok.1 hrecords).length_eq, List.length_take, List.length_drop,
    (SortKey.perm_of_sorted hsorted).length_eq, hint, Int.toNat_natCast]

/-- A page without an offset is not looked for. -/
theorem pageOf_of_le (hpage : 0 < l.page.toNat) (hle : 2 ^ 63 ≤ l.before) :
    s.pageOf table l = .error (.failed Listing.overflow) := by
  unfold pageOf
  rw [Listing.offset_of_le hpage hle]
  rfl

/-! ## Listings -/

/-- **The page that a listing answers** has an offset, and holds what is left after the entities
before it. -/
theorem length_listEntities (h : (s.listEntities c limits table o kept).1 = .ok page) :
    o.before limits < 2 ^ 63 ∧ page.records.length = min (limits.clampSize o.pageSize).toNat
      ((s.matchingEntities table o.includeDeleted).length - o.before limits) := by
  obtain ⟨declared, l, hresolve, hpage⟩ := exists_pageOf_of_listEntities h
  have hl := ListOptions.eq_of_resolve hresolve
  have hpos : 0 < l.page.toNat := by
    rw [hl]
    exact clampPage_pos o.page
  have hlength := length_pageOf hpos hpage
  rw [ListOptions.before_of_resolve hresolve] at hlength
  rwa [hl] at hlength

/-- **A listing crashes at a page without an offset**, if it gets as far as the page. -/
theorem listEntities_of_le {r : SchemaRecord} {v : Validator} (hc : c.Undisturbed)
    (hgoverning : s.governingSchema table = .ok r) (hobtain : (kept.obtain r).1 = .ok v)
    (hresolve : o.resolve limits v.schema.propertyNames = .ok l)
    (hle : 2 ^ 63 ≤ o.before limits) :
    (s.listEntities c limits table o kept).1 = .error Listing.overflow := by
  have hpos : 0 < l.page.toNat := by
    rw [ListOptions.eq_of_resolve hresolve]
    exact clampPage_pos o.page
  rw [listEntities_eq_pageOf hc hgoverning hobtain hresolve,
    pageOf_of_le hpos (ListOptions.before_of_resolve hresolve ▸ hle)]
  rfl

end Space

open Space

/-! ## What it says -/

/-- **What a request for a page gets** under settings that pass their checks. The number of the page
is at least 1, and its size at least 1 and at most the greatest one. If fewer than `2 ^ 63` entities
lie before the page, their number is its offset, and a listing that succeeds holds the entities that
are left, so that it is empty past the end. Otherwise there is no offset: no listing succeeds, and
one that gets as far as the page crashes. The offsets of all requests fit exactly if the greatest
page size is at most `2 ^ 31 + 1`. -/
theorem page_offset {settings : Config} (h : settings.validate = .ok ()) :
    let limits := settings.pageLimits
    (∀ o : ListOptions, 1 ≤ (clampPage o.page).toNat ∧ 1 ≤ (limits.clampSize o.pageSize).toNat ∧
      (limits.clampSize o.pageSize).toNat ≤ settings.maxPageSize.toNat ∧
      (∀ declared l, o.resolve limits declared = .ok l →
        l.page = clampPage o.page ∧ l.pageSize = limits.clampSize o.pageSize ∧
        (o.before limits < 2 ^ 63 →
          ∃ offset, l.offset = .ok offset ∧ offset.toInt = o.before limits) ∧
        (2 ^ 63 ≤ o.before limits → l.offset = .error Listing.overflow)) ∧
      ∀ (s : Space) (c : Circumstances) (table : String) (kept : ValidatorCache),
        (∀ page, (s.listEntities c limits table o kept).1 = .ok page →
          o.before limits < 2 ^ 63 ∧ page.records.length = min (limits.clampSize o.pageSize).toNat
            ((s.matchingEntities table o.includeDeleted).length - o.before limits)) ∧
        ∀ r v l, c.Undisturbed → s.governingSchema table = .ok r → (kept.obtain r).1 = .ok v →
          o.resolve limits v.schema.propertyNames = .ok l → 2 ^ 63 ≤ o.before limits →
            (s.listEntities c limits table o kept).1 = .error Listing.overflow) ∧
    ((∀ o : ListOptions, o.before limits < 2 ^ 63) ↔
      settings.maxPageSize.toNat ≤ 2 ^ 31 + 1) := by
  intro limits
  have hmax : limits.effectiveMax = settings.maxPageSize := Config.effectiveMax_of_validate h
  refine ⟨fun o => ?_, hmax ▸ ListOptions.forall_before_lt_iff limits⟩
  have hpage := clampPage_pos o.page
  obtain ⟨hsize, hsizeMax⟩ := limits.clampSize_bounds o.pageSize
  refine ⟨hpage, hsize, hmax ▸ hsizeMax, fun declared l hresolve => ?_, fun s c table kept =>
    ⟨fun page => length_listEntities, fun r v l hc => listEntities_of_le hc⟩⟩
  have hl := ListOptions.eq_of_resolve hresolve
  have hnumber : l.page = clampPage o.page := by rw [hl]
  rw [← ListOptions.before_of_resolve hresolve]
  exact ⟨hnumber, by rw [hl], Listing.exists_offset (hnumber ▸ hpage),
    Listing.offset_of_le (hnumber ▸ hpage)⟩

/-- Settings with the greatest page size of all. -/
def Sample.widest : Config := { Config.standard with maxPageSize := 0xFFFFFFFF }

theorem Sample.validate_widest : widest.validate = .ok () := rfl

/-- The last page is asked for, with as many entities on it as there can be. -/
theorem Sample.resolve_lastPage (declared : List String) :
    ListOptions.lastPage.resolve widest.pageLimits declared =
      .ok ⟨0xFFFFFFFF, 0xFFFFFFFF, .createdAt, .descending, false⟩ := by
  have hkey : ListOptions.lastPage.sortKey declared = (.createdAt, []) := rfl
  rw [ListOptions.resolve_eq_ok hkey rfl]
  rfl

theorem Sample.before_lastPage :
    ListOptions.lastPage.before widest.pageLimits = 18446744060824649730 :=
  (ListOptions.before_lastPage _).trans rfl

/-- Under these settings the last page has no offset, and a page of one entity each has. -/
theorem page_offset_widest :
    Sample.widest.validate = .ok () ∧
      (∃ l, ListOptions.lastPage.resolve Sample.widest.pageLimits [] = .ok l ∧
        l.offset = .error Listing.overflow) ∧
      ∃ l offset, ({ ListOptions.lastPage with pageSize := some 1 } : ListOptions).resolve
          Sample.widest.pageLimits [] = .ok l ∧
        l.offset = .ok offset ∧ offset.toInt = 4294967294 := by
  have hvalid := Sample.validate_widest
  obtain ⟨-, -, -, hlast, -⟩ := (page_offset hvalid).1 .lastPage
  obtain ⟨-, -, -, hsingle, -⟩ :=
    (page_offset hvalid).1 { ListOptions.lastPage with pageSize := some 1 }
  have hbefore : ListOptions.before { ListOptions.lastPage with pageSize := some 1 }
      Sample.widest.pageLimits = 4294967294 := rfl
  have hresolve : ({ ListOptions.lastPage with pageSize := some 1 } : ListOptions).resolve
      Sample.widest.pageLimits [] = .ok ⟨0xFFFFFFFF, 1, .createdAt, .descending, false⟩ := rfl
  obtain ⟨offset, hoffset, hint⟩ := (hsingle _ _ hresolve).2.2.1 (by rw [hbefore]; decide)
  rw [hbefore] at hint
  exact ⟨hvalid, ⟨_, Sample.resolve_lastPage [], (hlast _ _ (Sample.resolve_lastPage [])).2.2.2
    (by rw [Sample.before_lastPage]; decide)⟩, _, offset, hresolve, hoffset, hint⟩

/-- **A page past the end can be a crash.** The last page has far more entities before it than the
one that there is, and the listing answers no page. -/
theorem last_page_crashes :
    let site := Site.fresh.after Sample.run
    Sample.widest.validate = .ok () ∧ (site.space.matchingEntities "notes" false).length = 1 ∧
      (site.space.listEntities (.calm 4 Sample.first) Sample.widest.pageLimits "notes" .lastPage
        (site.kept 0)).1 = .error Listing.overflow := by
  intro site
  have hspace : site.space = Sample.stored Sample.payload := Sample.after_run
  obtain ⟨r, v, hgoverning, hobtain, -⟩ :=
    (hspace ▸ Sample.governed_stored _ : site.space.IsGovernedBy "notes" _).obtain
      (Site.consistent_after Sample.run) (Site.isBacked_after Sample.run 0)
  refine ⟨Sample.validate_widest, by rw [hspace]; rfl, ?_⟩
  exact listEntities_of_le (Circumstances.calm_undisturbed ..) hgoverning hobtain
    (Sample.resolve_lastPage _) (by rw [Sample.before_lastPage]; decide)

end SchemaVault
