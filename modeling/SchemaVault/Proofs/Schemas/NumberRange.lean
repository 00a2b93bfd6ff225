import SchemaVault.Proofs.Schemas.Creation

/-!
# Versions that are too large to be stored

The numbers of a version have 64 bits, and the checks of a draft refuse only what does not fit
these, but signed integers are stored. So a draft can pass all checks and be refused by the storage,
which tells no more than that it failed: exactly if its version, asked for or next in turn, has a
number from `2 ^ 63` on and no other rule of the plan is broken (`too_large_is_internal`). The next
version is too large exactly if the patch number of the greatest one is `2 ^ 63 - 1`, so that such a
schema takes no version any more that is not asked for.
-/

namespace SchemaVault

/-- The next patch of a version that can be stored can be stored, but for the last one. -/
theorem Version.FitsStorage.fitsStorage_nextPatch_iff {g : Version} (h : g.FitsStorage) :
    FitsStorage { g with patch := g.patch + 1 } ↔ g.patch.toNat ≠ 2 ^ 63 - 1 := by
  have hpatch := h.patch
  have hnext : (g.patch + 1).toNat = g.patch.toNat + 1 := by
    rw [UInt64.toNat_add, show (1 : UInt64).toNat = 1 from rfl]
    exact Nat.mod_eq_of_lt h.patch_succ_lt
  constructor
  · intro hfits
    have hlt : (g.patch + 1).toNat < 2 ^ 63 := hfits.patch
    omega
  · exact fun hne => ⟨h.major, h.minor, by change (g.patch + 1).toNat < 2 ^ 63; omega⟩

namespace Space

variable {s s' : Space} {c : Circumstances} {d : SchemaDraft} {id : SchemaId} {number : Version}
variable {g : Version}

/-- A draft that asks for no version gets the patch after the greatest version of its schema. -/
theorem IsNumber.eq_nextPatch (h : s.IsNumber d id number) (hnone : d.version = none)
    (hg : s.HasVersion id g) (hmax : ∀ v, s.HasVersion id v → ¬g < v) :
    number = { g with patch := g.patch + 1 } := by
  rcases (isNumber_of_none hnone).1 h with ⟨hempty, -⟩ | ⟨m, hm, htop, -, rfl⟩
  · exact absurd hg (hempty g)
  · rw [Version.eq_of_not_lt (hmax m hm) (htop g hg)]

/-- **A creation whose draft passes its checks fails internally exactly if** what is stored of the
schema cannot be read or the plan succeeds with a number that is too large. -/
theorem Pinned.createSchema_internal_iff (h : Pinned s.versions) (hc : c.Undisturbed)
    (hfree : c.locked = false) (htarget : s.IsTarget c.fresh d id)
    (hfresh : d.schemaId = none → s.IsNewSchema c.fresh) (hwell : d.WellFormed)
    (hnumber : s.IsNumber d id number) :
    (∃ what, (s.createSchema c d).1 = .error (.internal what)) ↔
      ¬s.Legible id ∨ (∀ rule ∈ s.planRules d id number, rule.holds) ∧ ¬number.FitsStorage := by
  have hdecides := decides_append.1
    ((h.creation_decides hc hfree htarget hfresh fun _ => hnumber).2 hwell)
  constructor
  · rintro ⟨what, hwhat⟩
    rcases hdecides.cases with ⟨hplan, hstore⟩ | ⟨rule, hrule, hbroken, hrefused⟩
    · refine .inr ⟨hplan, fun hfits => ?_⟩
      rcases (hstore.2 hfits).cases with ⟨-, hok⟩ | ⟨rule, hrule, -, hrefused⟩
      · rw [hok] at hwhat
        cases hwhat
      · obtain rfl := List.mem_singleton.1 hrule
        rw [hrefused] at hwhat
        cases hwhat
    · rw [hrefused] at hwhat
      simp only [planRules, List.mem_cons, List.not_mem_nil, or_false] at hrule
      rcases hrule with rfl | rfl | rfl | rfl | rfl
      · cases hwhat
      · exact .inl hbroken
      · cases hwhat
      · cases hwhat
      · cases hwhat
  · rintro (hillegible | ⟨hplan, hlarge⟩)
    · have hstored := isStored_of_not_legible hillegible
      exact ⟨_, congrArg Prod.fst ((hdecides.2 fun _ => hstored).1 hillegible)⟩
    · exact ⟨_, congrArg Prod.fst ((hdecides.of_forall hplan).1 hlarge)⟩

/-- No rule of a creation tells that it has been called off. -/
theorem Pinned.createSchema_ne_cancelled (h : Pinned s.versions) (hc : c.Undisturbed)
    (hfree : c.locked = false) (htarget : s.IsTarget c.fresh d id)
    (hfresh : d.schemaId = none → s.IsNewSchema c.fresh) (hnumber : s.IsNumber d id number) :
    (s.createSchema c d).1 ≠ .error .cancelled := by
  have htold : ∀ rule ∈ s.creationRules d id number, rule.refusal ≠ .cancelled := by
    simp [creationRules, planRules, storeRules, tableRule, versionTaken, tableHeld, storageFailed,
      Failure.invalid]
  intro hcancelled
  rcases (h.creation_decides hc hfree htarget hfresh fun _ => hnumber).cases with
    ⟨-, hok⟩ | ⟨rule, hrule, -, hrefused⟩
  · rw [hok] at hcancelled
    cases hcancelled
  · rw [hrefused] at hcancelled
    exact htold rule hrule (Except.error.inj hcancelled)

/-- What a creation stores has the number of its draft, which can be stored. -/
theorem Pinned.number_of_createSchema (h : Pinned s.versions) (hc : c.Undisturbed)
    (hfree : c.locked = false) (htarget : s.IsTarget c.fresh d id)
    (hfresh : d.schemaId = none → s.IsNewSchema c.fresh) (hnumber : s.IsNumber d id number)
    {record : SchemaRecord} (hcreate : s.createSchema c d = (.ok record, s')) :
    record.version = number ∧ number.FitsStorage := by
  rcases (h.creation_decides hc hfree htarget hfresh fun _ => hnumber).cases with
    ⟨hall, hok⟩ | ⟨rule, -, -, hrefused⟩
  · obtain ⟨hrecord, -⟩ := Prod.mk.inj (hcreate.symm.trans hok)
    rw [Except.ok.inj hrecord]
    refine ⟨rfl, hall ⟨number.FitsStorage, storageFailed "create schema"⟩ ?_⟩
    simp [creationRules, storeRules]
  · rw [hrefused] at hcreate
    cases hcreate

end Space

open Space

/-! ## What it says -/

/-- **Which creations are told that the storage failed.** In every reachable space, if nobody
disturbs it and a minted identifier is new, a draft that passes its checks means one schema and
gives its version one number. The creation fails internally exactly if what is stored of the schema
cannot be read, which it always can if what has been stored can be, or nothing but the size of the
number is in the way of its plan. A version is stored only under a number that is small enough. A
draft that asks for no version gets the patch after the greatest version of its schema, which always
exists, and is too large exactly after the patch `2 ^ 63 - 1`. -/
theorem too_large_is_internal {run : List Step}
    (hrun : Site.fresh.Along (fun site step => step.MintsNew site) run) {c : Circumstances}
    (hc : c.Undisturbed) (hfree : c.locked = false) {d : SchemaDraft}
    {checked : SchemaDraft.Checked} (hd : d.check = .ok checked)
    (hfresh : d.schemaId = none → (Site.fresh.after run).space.IsNewSchema c.fresh) :
    let s := (Site.fresh.after run).space
    ∃ id number, (∀ i, s.IsTarget c.fresh d i ↔ i = id) ∧ (∀ v, s.IsNumber d id v ↔ v = number) ∧
      ((∃ what, (s.createSchema c d).1 = .error (.internal what)) ↔
        ¬s.Legible id ∨ (∀ rule ∈ s.planRules d id number, rule.holds) ∧ ¬number.FitsStorage) ∧
      (Site.fresh.Along (fun _ step => step.Asks Request.DefinitionReads) run → s.Legible id) ∧
      (∀ r s', s.createSchema c d = (.ok r, s') → r.version = number ∧ number.FitsStorage) ∧
      (s.createSchema c d).1 ≠ .error .cancelled ∧
      (d.version = none → ∀ g, s.HasVersion id g → (∀ v, s.HasVersion id v → ¬g < v) →
        number = { g with patch := g.patch + 1 } ∧
          (number.FitsStorage ↔ g.patch.toNat ≠ 2 ^ 63 - 1)) := by
  intro s
  have hpinned : Pinned s.versions := Site.pinned_after hrun
  have hfits : FitStorage s.versions := Site.fitStorage_after run
  have hwell : d.WellFormed :=
    SchemaDraft.wellFormed_iff.2 (SchemaDraft.check_eq_ok_iff.1 hd).1
  obtain ⟨id, hid⟩ := hpinned.exists_isTarget_iff c.fresh d
  obtain ⟨number, hnumbers⟩ := exists_isNumber_iff hfits hwell.version id
  have htarget := (hid id).2 rfl
  have hnumber := (hnumbers number).2 rfl
  refine ⟨id, number, hid, hnumbers, ?_, fun hreads => ?_, ?_, ?_, ?_⟩
  · exact hpinned.createSchema_internal_iff hc hfree htarget hfresh hwell hnumber
  · exact Readable.legible (Site.readable_of_reads hreads) id
  · exact fun r s' => hpinned.number_of_createSchema hc hfree htarget hfresh hnumber
  · exact hpinned.createSchema_ne_cancelled hc hfree htarget hfresh hnumber
  · intro hnone g hg hmax
    obtain ⟨row, hrow, hversion⟩ := hg
    have hnext := hnumber.eq_nextPatch hnone ⟨row, hrow, hversion⟩ hmax
    have hstored := hfits row hrow
    rw [(SchemaVersion.isVersion_iff.1 hversion).2] at hstored
    exact ⟨hnext, hnext ▸ hstored.fitsStorage_nextPatch_iff⟩

/-- The first version of a schema is asked for with a number that is too large. -/
theorem too_large_is_internal_sample :
    let s := (Site.fresh.after (Sample.run.take 2)).space
    (∃ what, (s.createSchema (.calm 2 Sample.first) (Sample.oversized "c")).1 =
        .error (.internal what)) ∧
      ∃ id number, s.IsNumber (Sample.oversized "c") id number ∧
        (∀ rule ∈ s.planRules (Sample.oversized "c") id number, rule.holds) ∧
        ¬number.FitsStorage := by
  intro s
  have hs : s = ⟨[⟨"c", "C", false⟩], [], [], [1, 2]⟩ := Sample.after_two
  have hcheck : (Sample.oversized "c").check = _ :=
    Sample.check_draftOf (by decide +kernel) (Sample.readVersion_oversized "c")
  have hinternal : ∃ what, (s.createSchema (.calm 2 Sample.first) (Sample.oversized "c")).1 =
      .error (.internal what) := by
    refine ⟨"create schema failed", ?_⟩
    rw [hs]
    simp only [createSchema, hcheck]
    decide +kernel
  have hempty : ∀ row, row ∉ s.versions := by
    rw [hs]
    exact fun _ hrow => nomatch hrow
  have hrun : Site.fresh.Along (fun site step => step.MintsNew site) (Sample.run.take 2) :=
    ⟨trivial, trivial, trivial⟩
  obtain ⟨id, number, -, hnumber, hiff, -⟩ :=
    too_large_is_internal hrun (Circumstances.calm_undisturbed 2 Sample.first) rfl hcheck
      fun _ row hrow => absurd hrow (hempty row)
  refine ⟨hinternal, id, number, (hnumber number).2 rfl, ?_⟩
  exact (hiff.1 hinternal).resolve_left fun hillegible =>
    hillegible fun row hrow => absurd hrow (hempty row)

/-- A run whose last step stores the last patch of a version that can be stored. -/
def Sample.lastPatchRun : List Step :=
  Sample.run.take 2 ++ [.asking 0 (.calm 2 first) .standard
    (.createSchema (draftOf (some "1.0.9223372036854775807") "c"))]

theorem Sample.after_lastPatchRun :
    (Site.fresh.after lastPatchRun).space =
      ⟨[⟨"c", "C", false⟩], [row ⟨1, 0, 9223372036854775807⟩ 2 true], [], [1, 2]⟩ := by
  have hread : (draftOf (some "1.0.9223372036854775807") "c").readVersion =
      .ok (some ⟨1, 0, 9223372036854775807⟩) := by
    change (Version.read "1.0.9223372036854775807").map some = _
    decide +kernel
  have hcheck := check_draftOf (by decide +kernel) hread
  rw [lastPatchRun, Site.after, List.foldl_append]
  simp only [List.foldl, Site.next, Space.answer, createSchema, hcheck]
  decide +kernel

/-- **Not every version that passes the checks can be created**, neither one that is asked for nor
the next one of a schema. -/
theorem passes_checks_but_too_large :
    (∃ checked, (Sample.oversized "c").check = .ok checked) ∧
      ((Site.fresh.after (Sample.run.take 2)).space.createSchema (.calm 2 Sample.first)
        (Sample.oversized "c")).1 = .error (.internal "create schema failed") ∧
      (∃ checked, Sample.draft.check = .ok checked) ∧
      ((Site.fresh.after Sample.lastPatchRun).space.createSchema (.calm 3 Sample.second)
        Sample.draft).1 = .error (.internal "create schema failed") := by
  have hcheck : (Sample.oversized "c").check = _ :=
    Sample.check_draftOf (by decide +kernel) (Sample.readVersion_oversized "c")
  refine ⟨⟨_, hcheck⟩, ?_, ⟨_, Sample.check_draft⟩, ?_⟩
  · rw [Sample.after_two]
    simp only [createSchema, hcheck]
    decide +kernel
  · rw [Sample.after_lastPatchRun]
    simp only [createSchema, Sample.check_draft]
    decide +kernel

end SchemaVault
