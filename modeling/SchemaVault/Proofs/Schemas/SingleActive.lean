import SchemaVault.Proofs.Vault.Run
import Mathlib.Data.List.Pairwise

/-!
# At most one active version

After every step of every run at most one version of a schema is live, at most one version that
governs a table, and at most one version that carries a slug (`single_active`). The invariant,
`Consistent`, also says that no two versions of a schema share a number. It carries the proof: the
activation of a version reads one row of that number and changes all of them, so only with it is
the row that becomes active known not to be deleted.
-/

namespace SchemaVault

namespace Space

/-! ## The invariant -/

/-- Two rows that can be stored together. -/
structure Coexist (a b : VersionRow) : Prop where
  key : a.schemaId = b.schemaId → a.version ≠ b.version
  live : a.isLive → b.isLive → Apart a b

/-- Rows that can be stored together, and none of which is both active and deleted. -/
structure Consistent (rows : List VersionRow) : Prop where
  coexist : rows.Pairwise Coexist
  flags : ∀ v ∈ rows, v.active = true → v.deleted = false

variable {s s' : Space} {rows : List VersionRow} {a b v : VersionRow} {id : SchemaId}
variable {version : Version} {c : Circumstances} {record : SchemaRecord}

theorem Apart.symm (h : Apart a b) : Apart b a := ⟨h.slug.symm, h.table.symm, h.schema.symm⟩

instance : Std.Symm Coexist where
  symm _ _ h := ⟨fun hid => (h.key hid.symm).symm, fun hb ha => (h.live ha hb).symm⟩

theorem Consistent.nil : Consistent [] := ⟨.nil, fun _ h => nomatch h⟩

theorem Consistent.eq_of_key (h : Consistent rows) (ha : a ∈ rows) (hb : b ∈ rows)
    (hid : a.schemaId = b.schemaId) (hversion : a.version = b.version) : a = b := by
  by_contra hne
  exact (h.coexist.forall ha hb hne).key hid hversion

theorem Consistent.eq_of_live (h : Consistent rows) (ha : a ∈ rows) (hb : b ∈ rows)
    (hla : a.isLive) (hlb : b.isLive) (hid : a.schemaId = b.schemaId) : a = b := by
  by_contra hne
  exact ((h.coexist.forall ha hb hne).live hla hlb).schema hid

/-! ### No two rows of a kind -/

theorem Consistent.one_version (h : Consistent rows) (id : SchemaId) (version : Version) :
    rows.Pairwise fun a b => a.isVersion id version = true → b.isVersion id version ≠ true := by
  refine h.coexist.imp fun {a b} hab ha hb => ?_
  obtain ⟨hid, hversion⟩ := SchemaVersion.isVersion_iff.1 ha
  obtain ⟨hid', hversion'⟩ := SchemaVersion.isVersion_iff.1 hb
  exact hab.key (hid.trans hid'.symm) (hversion.trans hversion'.symm)

theorem Consistent.one_of_schema (h : Consistent rows) (id : SchemaId) :
    rows.Pairwise fun a b =>
      (a.schemaId == id && a.isLive) = true → (b.schemaId == id && b.isLive) ≠ true := by
  refine h.coexist.imp fun {a b} hab ha hb => ?_
  simp only [Bool.and_eq_true, beq_iff_eq] at ha hb
  exact (hab.live ha.2 hb.2).schema (ha.1.trans hb.1.symm)

theorem Consistent.one_of_table (h : Consistent rows) (table : String) :
    rows.Pairwise fun a b =>
      (a.tableName == table && a.isLive) = true → (b.tableName == table && b.isLive) ≠ true := by
  refine h.coexist.imp fun {a b} hab ha hb => ?_
  simp only [Bool.and_eq_true, beq_iff_eq] at ha hb
  exact (hab.live ha.2 hb.2).table (ha.1.trans hb.1.symm)

theorem Consistent.one_of_slug (h : Consistent rows) (slug : String) :
    rows.Pairwise fun a b =>
      (a.slug == slug && a.isLive) = true → (b.slug == slug && b.isLive) ≠ true := by
  refine h.coexist.imp fun {a b} hab ha hb => ?_
  simp only [Bool.and_eq_true, beq_iff_eq] at ha hb
  exact (hab.live ha.2 hb.2).slug (ha.1.trans hb.1.symm)

/-! ## Statements -/

/-- A statement that only changes flags keeps the rows consistent if it keeps the live ones
apart. -/
theorem Consistent.map (h : Consistent rows) {f : VersionRow → VersionRow}
    (hlasting : ∀ v, (f v).lasting = v.lasting)
    (hlive : ∀ a ∈ rows, ∀ b ∈ rows, Coexist a b → (f a).isLive → (f b).isLive →
      Apart (f a) (f b))
    (hflags : ∀ v ∈ rows, (f v).active = true → (f v).deleted = false) :
    Consistent (rows.map f) where
  coexist := by
    refine List.pairwise_map.2 (h.coexist.imp_of_mem fun {a b} ha hb hab => ?_)
    obtain ⟨hida, hversiona, -⟩ := SchemaVersion.lasting_eq_iff.1 (hlasting a)
    obtain ⟨hidb, hversionb, -⟩ := SchemaVersion.lasting_eq_iff.1 (hlasting b)
    refine ⟨?_, hlive a ha b hb hab⟩
    rw [hida, hidb, hversiona, hversionb]
    exact hab.key
  flags := by
    intro v hv
    obtain ⟨u, hu, rfl⟩ := List.mem_map.1 hv
    exact hflags u hu

/-- A statement that makes some rows not live and leaves the others alone. -/
theorem Consistent.map_of_rest (h : Consistent rows) {f : VersionRow → VersionRow}
    (hlasting : ∀ v, (f v).lasting = v.lasting) (hrest : ∀ v, f v = v ∨ (f v).active = false) :
    Consistent (rows.map f) := by
  have hlive : ∀ v, (f v).isLive → f v = v := fun v hv =>
    (hrest v).resolve_right (by rw [(SchemaVersion.isLive_iff.1 hv).1]; exact Bool.noConfusion)
  refine h.map hlasting (fun a _ b _ hab ha hb => ?_) fun v hv hactive => ?_
  · have hfa := hlive a ha
    have hfb := hlive b hb
    rw [hfa] at ha ⊢
    rw [hfb] at hb ⊢
    exact hab.live ha hb
  · rcases hrest v with hv' | hv'
    · rw [hv'] at hactive ⊢
      exact h.flags v hv hactive
    · rw [hv'] at hactive
      cases hactive

theorem Consistent.deactivate (h : Consistent s.versions) (id : SchemaId) (p : VersionRow → Bool) :
    Consistent (s.deactivate id p).versions := by
  refine h.map_of_rest (fun v => ?_) fun v => ?_ <;> split
  · rfl
  · rfl
  · exact .inr rfl
  · exact .inl rfl

theorem Consistent.delete (h : Consistent s.versions)
    (hdelete : deleteVersion id version s = .ok ((), s')) : Consistent s'.versions := by
  obtain ⟨-, rfl⟩ := deleteVersion_eq_ok_iff.1 hdelete
  refine h.map_of_rest (fun v => ?_) fun v => ?_ <;> split
  · rfl
  · rfl
  · exact .inr rfl
  · exact .inl rfl

theorem Consistent.store (h : Consistent s.versions) (hdeleted : record.deleted = false)
    (hstore : s.storePlanned record = .ok s') :
    Consistent s'.versions := by
  obtain ⟨-, hcheck, hkeys, rfl⟩ := storePlanned_eq_ok_iff.1 hstore
  have hold := h.deactivate record.schemaId fun _ => true
  refine ⟨List.pairwise_append.2 ⟨hold.coexist, List.pairwise_singleton _ _, ?_⟩, ?_⟩
  · intro v hv row hrow
    obtain rfl := List.mem_singleton.1 hrow
    obtain ⟨u, hu, hsame, -, -⟩ := mem_deactivate hv
    obtain ⟨hsameId, hsameVersion, -⟩ := SchemaVersion.lasting_eq_iff.1 hsame
    refine ⟨fun hid hversion => hkeys u hu (SchemaVersion.isVersion_iff.2 ⟨?_, ?_⟩),
      fun hv' hrow' => checkLive_eq_ok_iff.1 hcheck hrow' v hv hv'⟩
    · exact hsameId.symm.trans hid
    · exact hsameVersion.symm.trans hversion
  · intro v hv
    rcases List.mem_append.1 hv with hv | hv
    · exact hold.flags v hv
    · obtain rfl := List.mem_singleton.1 hv
      exact fun _ => hdeleted

/-- A version may be made active if no row of its number is deleted. -/
theorem Consistent.markActive (h : Consistent s.versions)
    (hdeleted : ∀ v ∈ s.versions, v.isVersion id version → v.deleted = false)
    (hmark : s.markActive id version = .ok s') : Consistent s'.versions := by
  obtain ⟨hcheck, rfl⟩ := markActive_eq_ok_iff.1 hmark
  refine h.map (fun v => ?_) (fun a ha b hb hab hla hlb => ?_) fun v hv hactive => ?_
  · split <;> rfl
  · by_cases hca : a.isVersion id version <;> by_cases hcb : b.isVersion id version
    · obtain ⟨ha₁, ha₂⟩ := SchemaVersion.isVersion_iff.1 hca
      obtain ⟨hb₁, hb₂⟩ := SchemaVersion.isVersion_iff.1 hcb
      exact absurd (ha₂.trans hb₂.symm) (hab.key (ha₁.trans hb₁.symm))
    · simp only [hca, hcb, if_true, Bool.false_eq_true, if_false] at hla hlb ⊢
      exact (checkLive_eq_ok_iff.1 (hcheck a ha hca) hla b
        (List.mem_filter.2 ⟨hb, by simpa using hcb⟩) hlb).symm
    · simp only [hca, hcb, if_true, Bool.false_eq_true, if_false] at hla hlb ⊢
      exact checkLive_eq_ok_iff.1 (hcheck b hb hcb) hlb a
        (List.mem_filter.2 ⟨ha, by simpa using hca⟩) hla
    · simp only [hca, hcb, Bool.false_eq_true, if_false] at hla hlb ⊢
      exact hab.live hla hlb
  · by_cases hc : v.isVersion id version
    · simp only [hc, if_true]
      exact hdeleted v hv hc
    · simp only [hc, Bool.false_eq_true, if_false] at hactive ⊢
      exact h.flags v hv hactive

/-- The version that is found and not deleted is the only row of its number. -/
theorem Consistent.activate (h : Consistent s.versions)
    (hactivate : activateVersion c id version s = .ok (record, s')) : Consistent s'.versions := by
  obtain ⟨r, hfound, hdeleted, -, hmark, -⟩ := activateVersion_eq_ok_iff.1 hactivate
  obtain ⟨row, hrow, hread⟩ := findVersion?_eq_some_iff.1 hfound
  obtain ⟨definition, -, rfl⟩ := VersionRow.read_eq_ok.1 hread
  have hnamed := List.find?_some hrow
  obtain ⟨hid, hversion⟩ := SchemaVersion.isVersion_iff.1 hnamed
  refine (h.deactivate id fun v => v.version != version).markActive (fun v hv hc => ?_) hmark
  obtain ⟨u, hu, hsame, hflag, -⟩ := mem_deactivate hv
  obtain ⟨hsameId, hsameVersion, -⟩ := SchemaVersion.lasting_eq_iff.1 hsame
  obtain ⟨hv₁, hv₂⟩ := SchemaVersion.isVersion_iff.1 hc
  obtain rfl := h.eq_of_key hu (List.mem_of_find?_eq_some hrow)
    (hsameId.symm.trans (hv₁.trans hid.symm)) (hsameVersion.symm.trans (hv₂.trans hversion.symm))
  exact hflag.trans hdeleted

/-! ## Moves and runs -/

theorem Consistent.turn {r : Request} {a : Answer} (h : Consistent s.versions)
    (hturn : Turn c s r a s') : Consistent s'.versions := by
  cases hturn with
  | rest hversions => rwa [hversions]
  | create _ hplan hstore =>
    have hrecord := record_of_planBy hplan
    exact h.store (by rw [hrecord]; rfl) hstore
  | activate hactivate => exact h.activate hactivate
  | delete hdelete => exact h.delete hdelete

end Space

open Space

theorem Site.consistent_next (site : Site) (step : Step) (h : Consistent site.space.versions) :
    Consistent (site.next step).space.versions := by
  rcases site.next_cases step with ⟨-, migrations, hs⟩ | ⟨handle, c, limits, r, a, -, -, hmove⟩
  · rwa [hs]
  · exact h.turn hmove.turn

theorem Site.consistent_after (run : List Step) :
    Consistent (Site.fresh.after run).space.versions :=
  after_of_step (I := fun site => Consistent site.space.versions)
    (fun site step _ => consistent_next site step) along_true .nil

/-! ## What it says -/

/-- At most one live version of a schema, of a table and of a slug, and no version that is both
active and deleted. -/
structure Space.SingleActive (s : Space) : Prop where
  schema : ∀ id, (s.versions.filter fun v => v.schemaId == id && v.isLive).length ≤ 1
  table : ∀ table, (s.versions.filter fun v => v.tableName == table && v.isLive).length ≤ 1
  slug : ∀ slug, (s.versions.filter fun v => v.slug == slug && v.isLive).length ≤ 1
  flags : ∀ v ∈ s.versions, ¬(v.active = true ∧ v.deleted = true)

theorem length_filter_le_one {α : Type} {p : α → Bool} {l : List α}
    (h : l.Pairwise fun a b => p a = true → p b ≠ true) : (l.filter p).length ≤ 1 := by
  have hsome : ∀ a ∈ l.filter p, p a = true := fun a ha => (List.mem_filter.1 ha).2
  have hpairs := h.sublist (l.filter_sublist (p := p))
  match hl : l.filter p with
  | [] => simp
  | [a] => simp
  | a :: b :: rest =>
    rw [hl] at hpairs hsome
    exact absurd (hsome b (by simp))
      ((List.pairwise_cons.1 hpairs).1 b (by simp) (hsome a (by simp)))

/-- No other row has the number of a stored one. -/
theorem Space.Consistent.filter_eq {rows : List VersionRow} {row : VersionRow}
    (h : Consistent rows) (hrow : row ∈ rows) :
    (rows.filter fun v => v.isVersion row.schemaId row.version) = [row] := by
  have hmem : row ∈ rows.filter fun v => v.isVersion row.schemaId row.version :=
    List.mem_filter.2 ⟨hrow, SchemaVersion.isVersion_iff.2 ⟨rfl, rfl⟩⟩
  have hone : (rows.filter fun v => v.isVersion row.schemaId row.version).length ≤ 1 :=
    length_filter_le_one (h.one_version row.schemaId row.version)
  obtain ⟨only, honly⟩ :=
    List.length_eq_one_iff.1 (Nat.le_antisymm hone (List.length_pos_of_mem hmem))
  rw [honly] at hmem ⊢
  rw [List.mem_singleton.1 hmem]

theorem Space.Consistent.singleActive {s : Space} (h : Consistent s.versions) : s.SingleActive where
  schema id := length_filter_le_one (h.one_of_schema id)
  table table := length_filter_le_one (h.one_of_table table)
  slug slug := length_filter_le_one (h.one_of_slug slug)
  flags v hv hflags := by
    rw [h.flags v hv hflags.1] at hflags
    exact Bool.noConfusion hflags.2

/-- **After every step of every run there is at most one active version** of a schema, of a table
and of a slug, whatever the requests, the handles that make them and the circumstances. -/
theorem single_active (run : List Step) (n : ℕ) :
    (Site.fresh.after (run.take n)).space.SingleActive :=
  (Site.consistent_after (run.take n)).singleActive

end SchemaVault
