import SchemaVault.Proofs.Entities.Caching
import SchemaVault.Proofs.Entities.History
import SchemaVault.Proofs.Entities.Order
import SchemaVault.Proofs.Entities.Paging
import SchemaVault.Proofs.Json5.Acceptance
import SchemaVault.Proofs.Schema.Compilation
import Mathlib.Data.List.Nodup

/-!
# Listings

The pages of a listing, one after the other, are the entities of a table, each of them once and in
strict order (`listing_pages`). Each entity has one row at most (`Site.length_rowsOf_le`), and it
makes no difference whether the validator is a kept one (`IsGovernedBy.obtain`).

A listing sorts the rows and then reads the payloads that are on its page. What reads as a document
has values to sort by (`Json5.read?_of_read?`). But a payload that is nested deeper than
`Json.depthLimit` can be stored and not read, and the page that it is on fails
(`deep_payload_spoils_page`). If all payloads that are written can be read, no page fails
(`Site.payloads_read`).
-/

namespace SchemaVault

/-- A request that writes a payload writes one whose text can be read. -/
def Request.PayloadReads : Request → Prop
  | .createEntity _ payload _ => (Json.read? payload.print).isSome
  | .updateEntity _ _ payload _ => (Json.read? payload.print).isSome
  | _ => True

/-! ## Readable rows -/

/-- An entity as it is read, if it can be. -/
def EntityRow.shown (row : EntityRow) : EntityRecord :=
  row.withPayload ((Json.read? row.payload).getD .null)

theorem EntityRow.read_of_isSome {row : EntityRow} (h : (Json.read? row.payload).isSome) :
    EntityRow.read row = .ok row.shown := by
  obtain ⟨payload, hpayload⟩ := Option.isSome_iff_exists.1 h
  rw [EntityRow.read, EntityRow.shown, hpayload]
  rfl

theorem EntityRow.mapM_read {rows : List EntityRow}
    (h : ∀ row ∈ rows, (Json.read? row.payload).isSome) :
    rows.mapM EntityRow.read = .ok (rows.map EntityRow.shown) :=
  Transaction.mapM_eq_map fun row hrow => EntityRow.read_of_isSome (h row hrow)

theorem EntityRow.read_eq_error {row : EntityRow} {e : StorageError}
    (h : EntityRow.read row = .error e) : e = .unconvertible := by
  unfold EntityRow.read at h
  split at h
  · cases h
  · exact (Except.error.inj h).symm

/-- One row that cannot be read is enough that not all of them are. -/
theorem EntityRow.mapM_read_of_unreadable {rows : List EntityRow} {row : EntityRow}
    (hrow : row ∈ rows) (h : Json.read? row.payload = none) :
    rows.mapM EntityRow.read = .error .unconvertible :=
  Transaction.mapM_eq_error_of_mem (fun _ _ => EntityRow.read_eq_error) hrow
    (by rw [EntityRow.read, h])

theorem EntityRow.reads_of_mapM {rows : List EntityRow} {records : List EntityRecord}
    (h : rows.mapM EntityRow.read = .ok records) :
    ∀ row ∈ rows, (Json.read? row.payload).isSome := by
  intro row hrow
  obtain ⟨r, -, hread⟩ := Transaction.forall₂_left_of_mem (Transaction.mapM_eq_ok.1 h) hrow
  exact Option.isSome_iff_exists.2 ⟨_, (EntityRow.read_eq_ok.1 hread).1⟩

/-- A payload that can be read has a value for every key. -/
theorem SortKey.exists_valueOf {e : EntityRow} (h : (Json.read? e.payload).isSome)
    (key : SortKey) : ∃ x, key.valueOf e = .ok x := by
  cases key with
  | property name =>
    obtain ⟨payload, hpayload⟩ := Option.isSome_iff_exists.1 h
    obtain ⟨d, hd, hvalues⟩ := Json5.read?_of_read? hpayload
    obtain ⟨x, hx⟩ := Option.isSome_iff_exists.1 (hvalues name)
    refine ⟨x, ?_⟩
    rw [valueOf, hd, Option.bind_some, hx]
  | createdAt | updatedAt | entityId => exact ⟨_, rfl⟩

namespace Space

variable {s : Space} {c : Circumstances} {kept : ValidatorCache} {table : String}
variable {id : EntityId} {schema : Schema} {includeDeleted : Bool} {r : EntityRecord}

/-! ## Governed tables -/

/-- Whether a live version governs a table, and what its stored definition compiles to. -/
def IsGovernedBy (s : Space) (table : String) (schema : Schema) : Prop :=
  ∃ row ∈ s.versions, row.tableName = table ∧ row.isLive ∧
    ∃ definition, Json.read? row.definition = some definition ∧
      Schema.compile definition = .ok schema

/-- **The validator of a governed table can be had**, and it makes no difference whether one is
kept for it. -/
theorem IsGovernedBy.obtain (h : s.IsGovernedBy table schema) (hrows : Consistent s.versions)
    (hkept : ∀ w ∈ kept, ∃ row ∈ s.versions, Backs row w) :
    ∃ r v, s.governingSchema table = .ok r ∧ (kept.obtain r).1 = .ok v ∧ v.schema = schema := by
  obtain ⟨row, hrow, rfl, hlive, definition, hdefinition, hcompile⟩ := h
  have hgoverning : s.governingSchema row.tableName = .ok (row.withDefinition definition) :=
    governingSchema_eq_ok_iff.2 ⟨row, hrows.find?_live hrow hlive,
      VersionRow.read_eq_ok.2 ⟨definition, hdefinition, rfl⟩⟩
  refine ⟨_, ⟨row.schemaId, row.version, schema⟩, hgoverning, ?_, rfl⟩
  rw [obtain_eq_compiled hrows hkept hgoverning]
  exact compiled_eq_ok_iff.2 ⟨rfl, rfl, hcompile⟩

theorem IsGovernedBy.governingSchema (h : s.IsGovernedBy table schema)
    (hrows : Consistent s.versions) : ∃ r, s.governingSchema table = .ok r := by
  obtain ⟨row, hrow, htable, hlive, definition, hdefinition, -⟩ := h
  exact hrows.isGoverned_iff.1 ⟨row, hrow, htable, hlive, by simp [hdefinition]⟩

/-! ## A listing -/

/-- What a listing answers is what its work comes to, if nobody disturbs it. -/
theorem listEntities_eq_withValidator (hc : c.Undisturbed) (limits : PageLimits)
    (o : ListOptions) :
    (s.listEntities c limits table o kept).1 =
      ((withValidator table (listWork limits table o) s kept).1.map (·.1)).mapError
        (·.toFailure "list entities") := by
  unfold listEntities
  dsimp only
  rw [Transaction.answer_executeKeeping, Transaction.execute_of_undisturbed hc (.inl rfl)]

/-- What a listing of a governed table answers, if nobody disturbs it. -/
theorem listEntities_eq {v : Validator} {schemaRecord : SchemaRecord} {limits : PageLimits}
    {o : ListOptions} (hc : c.Undisturbed)
    (hgoverning : s.governingSchema table = .ok schemaRecord)
    (hobtain : (kept.obtain schemaRecord).1 = .ok v) :
    (s.listEntities c limits table o kept).1 =
      ((listWork limits table o v s).map (·.1)).mapError (·.toFailure "list entities") := by
  rw [listEntities_eq_withValidator hc, withValidator_of_governed hgoverning, hobtain]
  rfl

/-- A request that is settled is answered with its page. -/
theorem listEntities_eq_pageOf {v : Validator} {schemaRecord : SchemaRecord} {limits : PageLimits}
    {o : ListOptions} {l : Listing} (hc : c.Undisturbed)
    (hgoverning : s.governingSchema table = .ok schemaRecord)
    (hobtain : (kept.obtain schemaRecord).1 = .ok v)
    (hresolve : o.resolve limits v.schema.propertyNames = .ok l) :
    (s.listEntities c limits table o kept).1 =
      (s.pageOf table l).mapError (·.toFailure "list entities") := by
  rw [listEntities_eq hc hgoverning hobtain]
  simp only [listWork, hresolve, Except.mapError, bind, Except.bind]
  cases s.pageOf table l <;> rfl

theorem listEntities_eq_error {v : Validator} {schemaRecord : SchemaRecord} {limits : PageLimits}
    {o : ListOptions} {f : Failure} (hc : c.Undisturbed)
    (hgoverning : s.governingSchema table = .ok schemaRecord)
    (hobtain : (kept.obtain schemaRecord).1 = .ok v)
    (hresolve : o.resolve limits v.schema.propertyNames = .error f) :
    (s.listEntities c limits table o kept).1 = .error f := by
  rw [listEntities_eq hc hgoverning hobtain]
  simp only [listWork, hresolve, Except.mapError, bind, Except.bind]
  rfl

/-- Where payloads can be read, there is every page that has an offset. -/
theorem exists_pageOf {l : Listing}
    (h : ∀ row ∈ s.matchingEntities table l.includeDeleted, (Json.read? row.payload).isSome)
    {offset : Int64} (hoffset : l.offset = .ok offset) :
    ∃ page, s.pageOf table l = .ok page := by
  obtain ⟨sorted, hsorted, hperm⟩ :=
    l.key.sorted_perm (fun e he => SortKey.exists_valueOf (h e he) l.key) l.order
  have hpage : ∀ row ∈ (sorted.drop offset.toInt.toNat).take l.pageSize.toNat,
      (Json.read? row.payload).isSome := fun row hrow =>
    h row (hperm.subset (List.mem_of_mem_drop (List.mem_of_mem_take hrow)))
  have hfits : l.offset.mapError StorageError.failed = .ok offset :=
    Transaction.mapError_eq_ok.2 hoffset
  exact ⟨_, Transaction.bind_eq_ok.2 ⟨offset, hfits, Transaction.bind_eq_ok.2
    ⟨sorted, hsorted, Transaction.bind_eq_ok.2 ⟨_, EntityRow.mapM_read hpage, rfl⟩⟩⟩⟩

/-- A page of entities in ascending order, put into the order of the listing and read. -/
theorem pageOf_eq {l : Listing} {rows ascending : List EntityRow}
    (hrows : s.matchingEntities table l.includeDeleted = rows)
    (hsorted : l.key.sorted l.order rows = .ok (l.order.arrange ascending))
    (hpage : 0 < l.page.toNat) (hbefore : l.before < 2 ^ 63) :
    s.pageOf table l =
      ((slice l.pageSize.toNat l.page.toNat (l.order.arrange ascending)).mapM EntityRow.read).map
        fun records => ⟨records, UInt64.ofNat rows.length, l.page, l.pageSize⟩ := by
  obtain ⟨offset, hoffset, hint⟩ := Listing.exists_offset hpage hbefore
  have hdrop : offset.toInt.toNat = (l.page.toNat - 1) * l.pageSize.toNat := by
    rw [hint, Int.toNat_natCast, Listing.before]
  unfold pageOf
  simp only [hrows, hsorted, hoffset, hdrop, Except.mapError, bind, Except.bind, slice]
  split <;> rename_i hread <;> rw [hread] <;> rfl

/-- Where an entity has no value to sort by, there is no page. -/
theorem pageOf_of_no_value {l : Listing} {offset : Int64} (hoffset : l.offset = .ok offset)
    (h : ¬∀ row ∈ s.matchingEntities table l.includeDeleted, ∃ x, l.key.valueOf row = .ok x) :
    s.pageOf table l = .error .malformedDocument := by
  cases hsorted : l.key.sorted l.order (s.matchingEntities table l.includeDeleted) with
  | ok sorted => exact absurd (SortKey.exists_valueOf_of_sorted hsorted) h
  | error e =>
    obtain rfl := SortKey.sorted_eq_error hsorted
    unfold pageOf
    simp only [hoffset, hsorted, Except.mapError, bind, Except.bind]

/-- What the request for a page is settled as. -/
def pageListing (limits : PageLimits) (o : ListOptions) (key : SortKey) (order : SortOrder)
    (p : Nat) : Listing :=
  ⟨UInt32.ofNat p, limits.clampSize o.pageSize, key, order, o.includeDeleted⟩

theorem before_pageListing {limits : PageLimits} (hmax : limits.max.toNat ≤ PageLimits.safeMax)
    (o : ListOptions) (key : SortKey) (order : SortOrder) (p : Nat) :
    (pageListing limits o key order p).before < 2 ^ 63 :=
  Listing.before_lt_of_safe ((limits.clampSize_bounds o.pageSize).2.trans
    (PageLimits.effectiveMax_le (by decide) hmax))

section Pages

variable {limits : PageLimits} {o : ListOptions} {key : SortKey} {order : SortOrder} {p : Nat}

theorem listEntities_eq_pageListing (hc : c.Undisturbed) (hschema : s.IsGovernedBy table schema)
    (hrows : Consistent s.versions) (hkept : ∀ w ∈ kept, ∃ row ∈ s.versions, Backs row w)
    (hkey : o.sortKey schema.propertyNames = (key, [])) (horder : o.direction = (order, []))
    (hpos : 0 < p) (hlt : p < UInt32.size) :
    (s.listEntities c limits table { o with page := some (Int64.ofNat p) } kept).1 =
      (s.pageOf table (pageListing limits o key order p)).mapError
        (·.toFailure "list entities") := by
  obtain ⟨r, v, hgoverning, hobtain, rfl⟩ := hschema.obtain hrows hkept
  refine listEntities_eq_pageOf hc hgoverning hobtain ?_
  rw [ListOptions.resolve_eq_ok (o := { o with page := some (Int64.ofNat p) }) hkey horder,
    PageLimits.clampPage_ofNat hpos hlt]
  rfl

/-- **A page of a listing.** -/
theorem listEntities_page {ascending : List EntityRow} (hc : c.Undisturbed)
    (hschema : s.IsGovernedBy table schema) (hrows : Consistent s.versions)
    (hkept : ∀ w ∈ kept, ∃ row ∈ s.versions, Backs row w)
    (hsorted : key.sorted order (s.matchingEntities table o.includeDeleted) =
      .ok (order.arrange ascending))
    (hmax : limits.max.toNat ≤ PageLimits.safeMax)
    (hkey : o.sortKey schema.propertyNames = (key, [])) (horder : o.direction = (order, []))
    (hpos : 0 < p) (hlt : p < UInt32.size) :
    (s.listEntities c limits table { o with page := some (Int64.ofNat p) } kept).1 =
      (((slice (limits.clampSize o.pageSize).toNat p (order.arrange ascending)).mapM
          EntityRow.read).map fun records =>
        ⟨records, UInt64.ofNat (s.matchingEntities table o.includeDeleted).length, UInt32.ofNat p,
          limits.clampSize o.pageSize⟩).mapError (·.toFailure "list entities") := by
  have hpage : (pageListing limits o key order p).page.toNat = p := UInt32.toNat_ofNat_of_lt hlt
  have hread := pageOf_eq (l := pageListing limits o key order p) rfl hsorted
    (hpos.trans_eq hpage.symm) (before_pageListing hmax ..)
  rw [hpage] at hread
  rw [listEntities_eq_pageListing hc hschema hrows hkept hkey horder hpos hlt, hread]
  rfl

/-- **Without a value for one of the entities there is no page.** -/
theorem listEntities_of_no_value (hc : c.Undisturbed) (hschema : s.IsGovernedBy table schema)
    (hrows : Consistent s.versions) (hkept : ∀ w ∈ kept, ∃ row ∈ s.versions, Backs row w)
    (hnone : ¬∀ row ∈ s.matchingEntities table o.includeDeleted, ∃ x, key.valueOf row = .ok x)
    (hmax : limits.max.toNat ≤ PageLimits.safeMax)
    (hkey : o.sortKey schema.propertyNames = (key, [])) (horder : o.direction = (order, []))
    (hpos : 0 < p) (hlt : p < UInt32.size) :
    (s.listEntities c limits table { o with page := some (Int64.ofNat p) } kept).1 =
      .error (.internal "list entities failed") := by
  have hpage : (pageListing limits o key order p).page.toNat = p := UInt32.toNat_ofNat_of_lt hlt
  obtain ⟨offset, hoffset, -⟩ := Listing.exists_offset (hpos.trans_eq hpage.symm)
    (before_pageListing hmax o key order p)
  rw [listEntities_eq_pageListing hc hschema hrows hkept hkey horder hpos hlt,
    pageOf_of_no_value hoffset hnone]
  rfl

/-- **A table has no page if its live version has no validator**, because the stored definition
cannot be read or does not compile. -/
theorem listEntities_of_no_validator {row : VersionRow} (hc : c.Undisturbed)
    (hrows : Consistent s.versions) (hkept : ∀ w ∈ kept, ∃ row ∈ s.versions, Backs row w)
    (hrow : row ∈ s.versions) (hlive : row.isLive)
    (hnone : ∀ schema, ¬s.IsGovernedBy row.tableName schema) :
    (s.listEntities c limits row.tableName o kept).1 =
      .error (.internal "list entities failed") := by
  rw [listEntities_eq_withValidator hc]
  cases hdefinition : Json.read? row.definition with
  | none =>
    have hunreadable : ¬s.ReadsLive row.tableName := fun hreads => by
      simpa [hdefinition] using hreads row hrow rfl hlive
    rw [withValidator, hrows.governingSchema_of_not_readsLive hunreadable]
    rfl
  | some definition =>
    have hgoverning : s.governingSchema row.tableName = .ok (row.withDefinition definition) :=
      governingSchema_eq_ok_iff.2 ⟨row, hrows.find?_live hrow hlive,
        VersionRow.read_eq_ok.2 ⟨definition, hdefinition, rfl⟩⟩
    -- No validator is kept either, as it would be the one that compiling gives.
    rw [withValidator_of_governed hgoverning, obtain_eq_compiled hrows hkept hgoverning]
    cases hcompiled : ValidatorCache.compiled (row.withDefinition definition) with
    | ok v =>
      exact absurd ⟨row, hrow, rfl, hlive, definition, hdefinition,
        (compiled_eq_ok_iff.1 hcompiled).2.2⟩ (hnone v.schema)
    | error e =>
      obtain ⟨text, rfl⟩ := compiled_eq_error hcompiled
      rfl

end Pages

/-! ## Matching entities -/

theorem mem_matchingEntities {row : EntityRow} :
    row ∈ s.matchingEntities table includeDeleted ↔
      row ∈ s.rowsOf table row.id ∧ (includeDeleted = true ∨ row.deleted = false) := by
  simp [matchingEntities, rowsOf, isEntity, and_assoc]

/-- The entities of a listing have different identifiers, if each entity has one row at most. -/
theorem nodup_matchingEntities (h : ∀ id, (s.rowsOf table id).length ≤ 1)
    (includeDeleted : Bool) : ((s.matchingEntities table includeDeleted).map (·.id)).Nodup := by
  rw [List.nodup_iff_count_le_one]
  intro id
  rw [List.count_eq_countP, List.countP_map, matchingEntities, List.countP_filter]
  refine le_trans (List.countP_mono_left fun e _ he => ?_)
    (List.countP_eq_length_filter.trans_le (h id))
  simp only [Function.comp_apply, Bool.and_eq_true, beq_iff_eq] at he
  exact isEntity_iff.2 ⟨he.1, he.2.1⟩

/-- **The entities of a listing are those that are found**, if each entity has one row at most. -/
theorem getEntity_eq_ok_iff_mem (hc : c.Undisturbed)
    (hgoverning : ∃ r, s.governingSchema table = .ok r)
    (hone : ∀ id, (s.rowsOf table id).length ≤ 1) :
    s.getEntity c table id includeDeleted = .ok r ↔
      ∃ row ∈ s.matchingEntities table includeDeleted,
        row.id = id ∧ EntityRow.read row = .ok r := by
  rw [getEntity_eq_ok_iff hc, and_iff_right hgoverning]
  constructor
  · rintro ⟨⟨row, hhead, hr⟩, hshown⟩
    have hrow := List.mem_of_head? hhead
    obtain ⟨rfl, -⟩ := isEntity_iff.1 (List.mem_filter.1 hrow).2
    rw [← (EntityRow.read_eq_ok.1 hr).2] at hshown
    exact ⟨row, mem_matchingEntities.2 ⟨hrow, hshown⟩, rfl, hr⟩
  · rintro ⟨row, hrow, rfl, hr⟩
    obtain ⟨hrow, hshown⟩ := mem_matchingEntities.1 hrow
    refine ⟨⟨row, ?_, hr⟩, (EntityRow.read_eq_ok.1 hr).2 ▸ hshown⟩
    obtain ⟨found, hfound⟩ := List.length_eq_one_iff.1
      (le_antisymm (hone row.id) (List.length_pos_of_mem hrow))
    rw [hfound, List.mem_singleton] at hrow
    rw [hfound, hrow]
    rfl

end Space

open Space

/-! ## Runs -/

section Runs

variable {table : String} {id : EntityId} {run : List Step}

/-- Whether the payload of an event, if it has one, can be read from its text. -/
def EntityEvent.Reads : EntityEvent → Prop
  | .created w | .updated w => (Json.read? w.payload.print).isSome
  | .deleted _ => True

theorem Space.reads_of_event? {s : Space} {time : Int64} {r : Request} {a : Answer}
    {event : EntityEvent} (h : s.event? time table id r a = some event) (hr : r.PayloadReads) :
    event.Reads := by
  have hwriting : ∀ {t payload author w}, s.writing? t payload author time = some w →
      w.payload = payload := by
    intro t payload author w h
    obtain ⟨v, -, rfl⟩ := Option.map_eq_some_iff.1 h
    rfl
  unfold event? at h
  split at h
  · split at h
    · obtain ⟨w, hw, rfl⟩ := Option.map_eq_some_iff.1 h
      rw [EntityEvent.Reads, hwriting hw]
      exact hr
    · cases h
  · split at h
    · obtain ⟨w, hw, rfl⟩ := Option.map_eq_some_iff.1 h
      rw [EntityEvent.Reads, hwriting hw]
      exact hr
    · cases h
  · split at h
    · obtain rfl := Option.some.inj h
      trivial
    · cases h
  · cases h

theorem Site.eventsOf_read {site : Site}
    (hrun : site.Along (fun _ step => step.Asks Request.PayloadReads) run) :
    ∀ event ∈ site.eventsOf table id run, event.Reads := by
  induction run generalizing site with
  | nil => exact fun _ h => nomatch h
  | cons step run ih =>
    intro event h
    rw [eventsOf, List.mem_append] at h
    rcases h with h | h
    · cases step with
      | opening handle => cases h
      | asking handle c limits r =>
        exact reads_of_event? (Option.mem_toList.1 h) hrun.1
    · exact ih hrun.2 event h

theorem Life.reads_last {l : Life} (h : ∀ event ∈ l.events, event.Reads) :
    (Json.read? l.last.payload.print).isSome := by
  unfold Life.last
  cases hlast : l.updates.getLast? with
  | none => exact h (.created l.creation) List.mem_cons_self
  | some w =>
    refine h (.updated w) ?_
    simp [Life.events, List.mem_of_getLast? hlast]

/-- **Every stored payload can be read**, if every payload that is written can be. -/
theorem Site.payloads_read
    (hrun : fresh.Along (fun _ step => step.Asks Request.PayloadReads) run) :
    ∀ row ∈ (fresh.after run).space.entities, (Json.read? row.payload).isSome := by
  intro row hrow
  obtain ⟨life, hevents, hrows⟩ := Site.tells_after run row.tableName row.id
  have hmem : row ∈ (fresh.after run).space.rowsOf row.tableName row.id :=
    List.mem_filter.2 ⟨hrow, isEntity_iff.2 ⟨rfl, rfl⟩⟩
  rw [hrows] at hmem
  cases life with
  | none => cases hmem
  | some l =>
    have hpayload : row.payload = l.last.payload.print :=
      congrArg Entity.payload (List.mem_singleton.1 hmem)
    have hread : ∀ event ∈ fresh.eventsOf row.tableName row.id run, event.Reads :=
      Site.eventsOf_read hrun
    rw [hevents] at hread
    rw [hpayload]
    exact Life.reads_last hread

theorem Site.length_rowsOf_le (run : List Step) (table : String) (id : EntityId) :
    ((fresh.after run).space.rowsOf table id).length ≤ 1 := by
  obtain ⟨life, -, hrows⟩ := Site.tells_after run table id
  rw [hrows]
  cases life <;> simp

/-! ## What it says -/

/-- Whether a request for a page is answered in one way, whichever handle is asked and in whatever
order the entities happen to be stored. -/
def Site.AnswersPage (site : Site) (limits : PageLimits) (table : String) (o : ListOptions)
    (p : Nat) (answer : Except Failure EntityPage) : Prop :=
  ∀ c handle stored, c.Undisturbed → stored.Perm site.space.entities →
    (({ site.space with entities := stored } : Space).listEntities c limits table
      { o with page := some (Int64.ofNat p) } (site.kept handle)).1 = answer

/-- The number of entities on a full page. -/
def ListOptions.room (o : ListOptions) (limits : PageLimits) : Nat :=
  (limits.clampSize o.pageSize).toNat

/-- The numbers of the pages that are needed for so many entities. -/
def ListOptions.pages (o : ListOptions) (limits : PageLimits) (total : Nat) : List Nat :=
  List.range' 1 (pageCount (o.room limits) total)

/-- Whether a request is served with the pages of some rows, which are in ascending order, in the
order that it asks for. -/
structure Site.ServesPages (site : Site) (limits : PageLimits) (table : String) (o : ListOptions)
    (order : SortOrder) (rows : List EntityRow) : Prop where
  /-- The pages together hold each row once. -/
  complete : (o.pages limits rows.length).flatMap (fun p =>
    slice (o.room limits) p (order.arrange rows)) = order.arrange rows
  /-- A page is full unless the rows come to an end on it. -/
  length_slice : ∀ p, (slice (o.room limits) p (order.arrange rows)).length =
    min (o.room limits) (rows.length - (p - 1) * o.room limits)
  /-- A page is answered if all payloads on it can be read. -/
  answered : ∀ p records, 0 < p → p < UInt32.size →
    (slice (o.room limits) p (order.arrange rows)).mapM EntityRow.read = .ok records → ∃ page,
      site.AnswersPage limits table o p (.ok page) ∧ page.records = records ∧
        page.total.toNat = rows.length ∧ page.page.toNat = p ∧
        page.pageSize = limits.clampSize o.pageSize
  /-- If one of them cannot be read, the storage has failed. -/
  failed : ∀ p, 0 < p → p < UInt32.size →
    (∃ row ∈ slice (o.room limits) p (order.arrange rows), Json.read? row.payload = none) →
      site.AnswersPage limits table o p (.error (.internal "list entities failed"))
  /-- If all payloads can be read, the pages together hold each entity once as it is read. -/
  records : ∀ records, rows.mapM EntityRow.read = .ok records → ∃ onPage : Nat → List EntityRecord,
    (∀ p, (slice (o.room limits) p (order.arrange rows)).mapM EntityRow.read = .ok (onPage p)) ∧
      (o.pages limits rows.length).flatMap onPage = order.arrange records

/-- Whether some rows are what is listed of a table by a key. -/
structure Site.Lists (site : Site) (table : String) (schema : Schema) (key : SortKey)
    (includeDeleted : Bool) (rows : List EntityRow) : Prop where
  matching : rows.Perm (site.space.matchingEntities table includeDeleted)
  /-- They ascend by their values for the key and then by their identifiers. -/
  ascending : rows.Pairwise key.Precedes
  nodup : (rows.map (·.id)).Nodup
  /-- What matches is what can be found. -/
  found : ∀ c id r, c.Undisturbed →
    (site.space.getEntity c table id includeDeleted = .ok r ↔
      ∃ row ∈ rows, row.id = id ∧ EntityRow.read row = .ok r)
  /-- They are the same for all sizes of pages and both directions. -/
  served : ∀ (limits : PageLimits) (o : ListOptions) (order : SortOrder),
    limits.max.toNat ≤ PageLimits.safeMax → o.sortKey schema.propertyNames = (key, []) →
      o.direction = (order, []) → o.includeDeleted = includeDeleted →
        (o.pages limits rows.length).length < UInt32.size →
          site.ServesPages limits table o order rows

/-- **Rows that every order of the matching entities is sorted to are served page by page.** -/
theorem Site.servesPages (run : List Step) {schema : Schema}
    (hschema : (fresh.after run).space.IsGovernedBy table schema) {key : SortKey}
    {limits : PageLimits} {o : ListOptions} {order : SortOrder} {rows : List EntityRow}
    (hperm : rows.Perm ((fresh.after run).space.matchingEntities table o.includeDeleted))
    (hsorted : ∀ rows' : List EntityRow,
      rows'.Perm ((fresh.after run).space.matchingEntities table o.includeDeleted) →
        key.sorted order rows' = .ok (order.arrange rows))
    (hmax : limits.max.toNat ≤ PageLimits.safeMax)
    (hkey : o.sortKey schema.propertyNames = (key, [])) (horder : o.direction = (order, []))
    (hcount : (o.pages limits rows.length).length < UInt32.size) :
    (fresh.after run).ServesPages limits table o order rows := by
  obtain ⟨hpos, hsize⟩ := limits.clampSize_bounds o.pageSize
  have hsize : o.room limits ≤ PageLimits.safeMax :=
    hsize.trans (PageLimits.effectiveMax_le (by decide) hmax)
  have htotal : rows.length < UInt64.size := by
    rw [ListOptions.pages, List.length_range'] at hcount
    calc rows.length ≤ pageCount (o.room limits) rows.length * o.room limits :=
          le_pageCount_mul hpos _
      _ ≤ UInt32.size * PageLimits.safeMax := Nat.mul_le_mul hcount.le hsize
      _ < UInt64.size := by decide
  have hlength : (order.arrange rows).length = rows.length := (order.arrange_perm _).length_eq
  have hcomplete : (o.pages limits rows.length).flatMap (fun p =>
      slice (o.room limits) p (order.arrange rows)) = order.arrange rows := by
    have hslices := flatMap_slice hpos (order.arrange rows)
    rwa [hlength] at hslices
  have hanswer : ∀ p, 0 < p → p < UInt32.size → (fresh.after run).AnswersPage limits table o p
      ((((slice (o.room limits) p (order.arrange rows)).mapM EntityRow.read).map fun records =>
        ⟨records, UInt64.ofNat rows.length, UInt32.ofNat p,
          limits.clampSize o.pageSize⟩).mapError (·.toFailure "list entities")) := by
    intro p hp hlt c handle stored hc hstored
    -- However they are stored, the same entities match, and they are sorted to the same rows.
    have hstill : (({ (fresh.after run).space with entities := stored } : Space).matchingEntities
        table o.includeDeleted).Perm
          ((fresh.after run).space.matchingEntities table o.includeDeleted) := hstored.filter _
    rw [hperm.length_eq, ← hstill.length_eq]
    exact listEntities_page (s := { (fresh.after run).space with entities := stored }) hc hschema
      (consistent_after run) (isBacked_after run handle) (hsorted _ hstill) hmax hkey horder hp hlt
  refine ⟨hcomplete, fun p => ?_, fun p records hp hlt hread => ?_,
    fun p hp hlt ⟨row, hrow, hunreadable⟩ => ?_, fun records hread => ?_⟩
  · rw [SchemaVault.length_slice, hlength]
  · have hpage := hanswer p hp hlt
    rw [hread] at hpage
    exact ⟨_, hpage, rfl, UInt64.toNat_ofNat_of_lt' htotal, UInt32.toNat_ofNat_of_lt hlt, rfl⟩
  · have hpage := hanswer p hp hlt
    rw [EntityRow.mapM_read_of_unreadable hrow hunreadable] at hpage
    exact hpage
  · have hreads := EntityRow.reads_of_mapM hread
    obtain rfl := Except.ok.inj ((EntityRow.mapM_read hreads).symm.trans hread)
    have honPage : ∀ p, ∀ row ∈ slice (o.room limits) p (order.arrange rows),
        (Json.read? row.payload).isSome := fun p row hrow =>
      hreads row ((order.arrange_perm rows).subset
        (List.mem_of_mem_drop (List.mem_of_mem_take hrow)))
    refine ⟨fun p => (slice (o.room limits) p (order.arrange rows)).map EntityRow.shown,
      fun p => EntityRow.mapM_read (honPage p), ?_⟩
    rw [← List.map_flatMap, hcomplete, order.arrange_map]

/-- **What is listed of a table**, if the matching entities have values for the key. -/
theorem Site.exists_lists (run : List Step) {schema : Schema}
    (hschema : (fresh.after run).space.IsGovernedBy table schema) {key : SortKey}
    {includeDeleted : Bool} (hvalues : ∀ row ∈
      (fresh.after run).space.matchingEntities table includeDeleted, ∃ x, key.valueOf row = .ok x) :
    ∃ rows, (fresh.after run).Lists table schema key includeDeleted rows := by
  have hone : ∀ id, ((fresh.after run).space.rowsOf table id).length ≤ 1 :=
    length_rowsOf_le run table
  have hids := nodup_matchingEntities hone includeDeleted
  obtain ⟨rows, hperm, hordered, hsorted⟩ := SortKey.sorted_eq hvalues hids
  refine ⟨rows, hperm, hordered, (hperm.map _).nodup_iff.2 hids, fun c id r hc => ?_,
    fun limits o order hmax hkey horder hdeleted hcount => ?_⟩
  · rw [getEntity_eq_ok_iff_mem hc (hschema.governingSchema (consistent_after run)) hone]
    simp only [hperm.mem_iff]
  · subst hdeleted
    exact servesPages run hschema hperm (hsorted order) hmax hkey horder hcount

/-- **The pages of a listing are the matching entities**, each of them once and in one order,
ascending by their values for the key and then by their identifiers, or in its reverse, whatever the
size of a page is and in whatever order they are stored. This is so for a table whose live version
has a validator, if the matching entities have values for the key. A page is answered exactly if all
payloads on it can be read; else the storage has failed, as it has for every page if an entity has
no value for the key, or if the live version has no validator. All payloads can be read, and have
values for every key, if those that have been written can be read. -/
theorem listing_pages (run : List Step) (table : String) (key : SortKey) (includeDeleted : Bool) :
    let site := Site.fresh.after run
    let s := site.space
    let values := ∀ row ∈ s.matchingEntities table includeDeleted, ∃ x, key.valueOf row = .ok x
    (∀ schema, s.IsGovernedBy table schema →
      (values → ∃ rows, site.Lists table schema key includeDeleted rows) ∧
      (¬values → ∀ (limits : PageLimits) (o : ListOptions) (order : SortOrder) (p : Nat),
        limits.max.toNat ≤ PageLimits.safeMax → o.sortKey schema.propertyNames = (key, []) →
          o.direction = (order, []) → o.includeDeleted = includeDeleted →
            0 < p → p < UInt32.size →
              site.AnswersPage limits table o p (.error (.internal "list entities failed")))) ∧
    (∀ row ∈ s.versions, row.tableName = table → row.isLive →
      (∀ schema, ¬s.IsGovernedBy table schema) → ∀ limits o p,
        site.AnswersPage limits table o p (.error (.internal "list entities failed"))) ∧
    (Site.fresh.Along (fun _ step => step.Asks Request.PayloadReads) run →
      (∀ row ∈ s.entities, (Json.read? row.payload).isSome) ∧ values) := by
  intro site s values
  have hrows : Consistent s.versions := Site.consistent_after run
  refine ⟨fun schema hschema => ⟨Site.exists_lists run hschema, ?_⟩, ?_, fun hrun =>
    ⟨Site.payloads_read hrun, fun row hrow =>
      SortKey.exists_valueOf (Site.payloads_read hrun row (List.mem_of_mem_filter hrow)) key⟩⟩
  · intro hnone limits o order p hmax hkey horder hdeleted hpos hlt c handle stored hc hstored
    subst hdeleted
    have hstill : (({ s with entities := stored } : Space).matchingEntities table
        o.includeDeleted).Perm (s.matchingEntities table o.includeDeleted) := hstored.filter _
    refine listEntities_of_no_value (s := { s with entities := stored }) hc hschema hrows
      (Site.isBacked_after run handle) (fun hsome => hnone fun row hrow => ?_) hmax hkey horder
        hpos hlt
    exact hsome row (hstill.mem_iff.2 hrow)
  · rintro row hrow rfl hlive hnone limits o p c handle stored hc -
    exact listEntities_of_no_validator (s := { s with entities := stored }) hc hrows
      (Site.isBacked_after run handle) hrow hlive hnone

end Runs

/-! ## Two tables -/

namespace Sample

theorem after_run : (Site.fresh.after run).space = stored payload :=
  after_creation rfl

theorem governed_stored (payload : Json) : (stored payload).IsGovernedBy "notes" schema :=
  ⟨row ⟨1, 0, 1⟩ 1 true, by simp [stored], rfl, rfl, definition, rfl, compile_definition⟩

/-- A definition that declares a rank. -/
def ranking : Json := .object [("properties", .object [("rank", .bool true)])]

/-- What the definition compiles to. -/
def rankingSchema : Schema :=
  Schema.ruled
    (Schema.OwnFindings.read [("properties", .object [("rank", .bool true)])] "#").rules
    [("rank", .always true)] none none

theorem compile_ranking : Schema.compile ranking = .ok rankingSchema := by
  let declared : Json.Members := [("rank", .bool true)]
  have hproperties : Schema.compileProperties [("properties", .object declared)] "#" =
      Schema.compileMembers declared (Schema.keywordPointer "#" "properties") := rfl
  have hfound : Schema.compileAt ranking "#" = ⟨rankingSchema, []⟩ := by
    rw [ranking, Schema.compileAt_object, Schema.compilePart_of_none rfl,
      Schema.compilePart_of_none rfl, hproperties, Schema.compileMembers, Schema.compileMembers,
      Schema.compileAt]
    rfl
  rw [Schema.compile, hfound]
  rfl

/-- A schema for another table. -/
def tasksDraft : SchemaDraft :=
  { draft with definition := ranking, tableName := "tasks", slug := "Tasks" }

theorem check_tasksDraft : tasksDraft.check = .ok ⟨"tasks", none⟩ := by
  have herrors : tasksDraft.definitionErrors = [] :=
    SchemaDraft.definitionErrors_eq_nil_iff.2 ⟨_, _, rankingSchema, rfl, compile_ranking⟩
  rw [SchemaDraft.check, SchemaDraft.errors, herrors]
  decide +kernel

/-- A payload with a rank. -/
def ranked (rank : Fin 10) : Json := .object [("rank", .number (.integer rank (by omega)))]

/-- The creation of an entity, asked of a handle that has not been asked before. -/
def creating (handle : Nat) (id : Fin 10) (table : String) (payload : Json) : Step :=
  .asking handle (.calm (Int64.ofNat handle) ⟨id, by omega⟩) .standard
    (.createEntity table payload none)

/-- Two tables with a schema each, entities in both of them, and a question in each table for an
entity of the other. -/
def twoTables : List Step :=
  run.take 2 ++
    [.asking 0 (.calm 2 first) .standard (.createSchema draft),
      .asking 0 (.calm 3 second) .standard (.createSchema tasksDraft),
      creating 4 3 "tasks" (ranked 2),
      creating 5 4 "notes" payload,
      creating 6 5 "tasks" (ranked 1),
      creating 7 6 "tasks" (ranked 1),
      .asking 4 (.calm 8 first) .standard (.getEntity "tasks" ⟨4, by decide⟩ false),
      .asking 5 (.calm 9 first) .standard (.getEntity "notes" ⟨3, by decide⟩ false)]

/-- The version that governs the second table. -/
def tasksRow : VersionRow :=
  { row ⟨1, 0, 0⟩ 3 true with
    schemaId := ⟨second⟩
    definition := ranking.print
    tableName := "tasks"
    slug := "tasks" }

theorem read?_ranking : Json.read? tasksRow.definition = some ranking := rfl

/-- A space with two governed tables and some entities. -/
def tabled (entities : List EntityRow) : Space :=
  ⟨[⟨"c", "C", false⟩], [row ⟨1, 0, 0⟩ 2 true, tasksRow], entities, [1, 2]⟩

/-- The row that a creation stores. -/
def created (handle : Nat) (id : Fin 10) (table : String) (schema : SchemaId) (payload : Json) :
    EntityRow :=
  (newEntity (.calm (Int64.ofNat handle) ⟨id, by omega⟩) table ⟨schema, ⟨1, 0, 0⟩, payload⟩
    none).withPayload payload.print

/-- An entity of the second table. -/
def task (handle : Nat) (id rank : Fin 10) : EntityRow :=
  created handle id "tasks" ⟨second⟩ (ranked rank)

/-- An entity of the first table. -/
def note : EntityRow := created 5 4 "notes" ⟨first⟩ payload

theorem after_tables : (Site.fresh.after (twoTables.take 4)).space = tabled [] := by
  simp only [twoTables, run, List.take, List.cons_append, List.nil_append, Site.after, List.foldl,
    Site.next, Space.answer, Space.createSchema, check_draft, check_tasksDraft]
  decide +kernel

theorem space_next_creating {site : Site} {entities : List EntityRow} {handle : Nat} {id : Fin 10}
    {table : String} {payload definition : Json} {schema : Schema} {row : VersionRow}
    (hspace : site.space = tabled entities) (hkept : site.kept handle = [])
    (hrow : (tabled []).versions.find? (fun v => v.tableName == table && v.isLive) = some row)
    (hversion : row.version = ⟨1, 0, 0⟩) (hread : Json.read? row.definition = some definition)
    (hcompile : Schema.compile definition = .ok schema) (hissues : schema.issues payload = [])
    (hnew : ∀ e ∈ entities, e.id ≠ ⟨⟨id, by omega⟩⟩) :
    (site.next (creating handle id table payload)).space =
      tabled (entities ++ [created handle id table row.schemaId payload]) := by
  have hgoverning : site.space.governingSchema table = .ok (row.withDefinition definition) := by
    rw [hspace]
    exact governingSchema_eq_ok_iff.2 ⟨row, hrow, VersionRow.read_eq_ok.2 ⟨_, hread, rfl⟩⟩
  rw [creating, Site.next, hkept, answer_creating (Circumstances.calm_undisturbed ..) rfl hgoverning
    hcompile hissues (by rwa [hspace]), hspace]
  simp only [tabled, created, newEntityRow, SchemaVersion.withDefinition, hversion]

/-- The space after both tables have got their entities. -/
theorem after_twoTables :
    (Site.fresh.after twoTables).space = tabled [task 4 3 2, note, task 6 5 1, task 7 6 1] := by
  have hranked : ∀ rank : Fin 10, rankingSchema.issues (ranked rank) = [] := fun _ => rfl
  have htasks : (tabled []).versions.find? (fun v => v.tableName == "tasks" && v.isLive) =
      some tasksRow := rfl
  have hnotes : (tabled []).versions.find? (fun v => v.tableName == "notes" && v.isLive) =
      some (row ⟨1, 0, 0⟩ 2 true) := rfl
  have hfirst : (Site.fresh.after (twoTables.take 5)).space = tabled [task 4 3 2] :=
    space_next_creating after_tables rfl htasks rfl read?_ranking compile_ranking (hranked 2)
      (by simp)
  have hnote : (Site.fresh.after (twoTables.take 6)).space = tabled [task 4 3 2, note] :=
    space_next_creating hfirst rfl hnotes rfl rfl compile_definition rfl (by decide)
  have hsecond : (Site.fresh.after (twoTables.take 7)).space =
      tabled [task 4 3 2, note, task 6 5 1] :=
    space_next_creating hnote rfl htasks rfl read?_ranking compile_ranking (hranked 1)
      (by decide)
  have hthird : (Site.fresh.after (twoTables.take 8)).space =
      tabled [task 4 3 2, note, task 6 5 1, task 7 6 1] :=
    space_next_creating hsecond rfl htasks rfl read?_ranking compile_ranking (hranked 1)
      (by decide)
  exact hthird

theorem governed_tasks :
    (Site.fresh.after twoTables).space.IsGovernedBy "tasks" rankingSchema := by
  rw [after_twoTables]
  exact ⟨tasksRow, by simp [tabled], rfl, rfl, ranking, read?_ranking, compile_ranking⟩

theorem matching_tasks : (Site.fresh.after twoTables).space.matchingEntities "tasks" false =
    [task 4 3 2, task 6 5 1, task 7 6 1] := by
  rw [after_twoTables]
  rfl

/-- The tasks in the order of their ranks. -/
def rankedTasks : List EntityRow := [task 6 5 1, task 7 6 1, task 4 3 2]

theorem reads_ranked : ∀ row ∈ rankedTasks, (Json.read? row.payload).isSome := by
  decide

theorem exists_rank : ∀ row ∈ (Site.fresh.after twoTables).space.matchingEntities "tasks" false,
    ∃ x, (SortKey.property "rank").valueOf row = .ok x := by
  rw [matching_tasks]
  exact fun row hrow => SortKey.exists_valueOf
    (reads_ranked row ((List.perm_append_singleton ..).symm.subset hrow)) _

theorem eq_of_ranked {rows : List EntityRow}
    (h : rows.Pairwise (SortKey.property "rank").Precedes)
    (hperm : rows.Perm ((Site.fresh.after twoTables).space.matchingEntities "tasks" false)) :
    rows = rankedTasks := by
  have hthree : (SortKey.property "rank").valueOf (task 4 3 2) = .ok (.ofInt 2) := by
    decide +kernel
  have hfive : (SortKey.property "rank").valueOf (task 6 5 1) = .ok (.ofInt 1) := by
    decide +kernel
  have hsix : (SortKey.property "rank").valueOf (task 7 6 1) = .ok (.ofInt 1) := by
    decide +kernel
  have hless : (SortValue.ofInt 1).compare (.ofInt 2) = .lt := by decide +kernel
  refine SortKey.eq_of_precedes h ?_ (hperm.trans ?_)
  · refine .cons (fun row hrow => ?_) (.cons (fun row hrow => ?_) (List.pairwise_singleton ..))
    · rcases List.mem_pair.1 hrow with rfl | rfl
      · exact ⟨_, _, hfive, hsix, .inr ⟨rfl, by decide⟩⟩
      · exact ⟨_, _, hfive, hthree, .inl hless⟩
    · obtain rfl := List.mem_singleton.1 hrow
      exact ⟨_, _, hsix, hthree, .inl hless⟩
  · rw [matching_tasks]
    exact (List.perm_append_singleton ..).symm

/-- A request for two tasks by their rank. -/
def byRank (order : SortOrder) : ListOptions :=
  ⟨none, some 2, some "rank", some order.text, false⟩

end Sample

/-- Three tasks on two pages. Two of them have the same rank and come one after the other as their
identifiers do. Descending order puts them on different pages. -/
theorem listing_pages_sample :
    let site := Site.fresh.after Sample.twoTables
    let key := SortKey.property "rank"
    site.space.IsGovernedBy "tasks" Sample.rankingSchema ∧
      (∀ row ∈ site.space.matchingEntities "tasks" false, ∃ x, key.valueOf row = .ok x) ∧
      ∀ order p ids, (order, p, ids) ∈ [(SortOrder.ascending, 1, [5, 6]), (.ascending, 2, [3]),
          (.descending, 1, [3, 6]), (.descending, 2, [5])] → ∃ page,
        site.AnswersPage .standard "tasks" (Sample.byRank order) p (.ok page) ∧
          page.records.map (·.id.id.value) = ids ∧ page.total.toNat = 3 := by
  intro site key
  refine ⟨Sample.governed_tasks, Sample.exists_rank, fun order p ids hexpected => ?_⟩
  obtain ⟨rows, hlists⟩ :=
    ((listing_pages Sample.twoTables "tasks" key false).1 _ Sample.governed_tasks).1
      Sample.exists_rank
  obtain rfl := Sample.eq_of_ranked hlists.ascending hlists.matching
  have hkey : (Sample.byRank order).sortKey Sample.rankingSchema.propertyNames = (key, []) := by
    cases order <;> rfl
  have horder : (Sample.byRank order).direction = (order, []) := by
    cases order <;> rfl
  have hserves := hlists.served .standard (Sample.byRank order) order (by decide) hkey horder rfl
    (by cases order <;> decide)
  have hanswer : ∀ p, 0 < p → p < UInt32.size → ∃ page,
      site.AnswersPage .standard "tasks" (Sample.byRank order) p (.ok page) ∧
        page.records.map (·.id.id.value) = slice 2 p (order.arrange [5, 6, 3]) ∧
          page.total.toNat = 3 := by
    intro p hpos hlt
    obtain ⟨page, hpage, hrecords, htotal, -⟩ := hserves.answered p _ hpos hlt
      (EntityRow.mapM_read fun row hrow => Sample.reads_ranked row ((order.arrange_perm _).subset
        (List.mem_of_mem_drop (List.mem_of_mem_take hrow))))
    refine ⟨page, hpage, ?_, htotal⟩
    rw [hrecords, ← slice_map, ← slice_map, ← order.arrange_map, ← order.arrange_map]
    rfl
  simp only [List.mem_cons, List.not_mem_nil, or_false, Prod.mk.injEq] at hexpected
  rcases hexpected with ⟨rfl, rfl, rfl⟩ | ⟨rfl, rfl, rfl⟩ | ⟨rfl, rfl, rfl⟩ | ⟨rfl, rfl, rfl⟩
  · exact hanswer 1 (by decide) (by decide)
  · exact hanswer 2 (by decide) (by decide)
  · exact hanswer 1 (by decide) (by decide)
  · exact hanswer 2 (by decide) (by decide)

/-! ## A payload that cannot be read back -/

/-- **One stored payload can spoil a listing.** An entity is created whose payload is nested deeper
than what is read. It is the only one of its table, and there is no first page. -/
theorem deep_payload_spoils_page :
    let payload : Json := .object [("title", Sample.nested 127)]
    let before := Site.fresh.after (Sample.run.take 4)
    let site := Site.fresh.after (Sample.run.take 4 ++ [Sample.creation payload])
    (∃ r, (before.space.answer (.calm 3 Sample.second) .standard
        (.createEntity "notes" payload none) (before.kept 0)).1 = .entity r) ∧
      site.space.IsGovernedBy "notes" Sample.schema ∧
      (site.space.matchingEntities "notes" false).length = 1 ∧
      site.AnswersPage .standard "notes" default 1
        (.error (.internal "list entities failed")) := by
  intro payload before site
  have hissues : Sample.schema.issues payload = [] := rfl
  have hkept : before.kept 0 = [] := rfl
  have hspace : site.space = Sample.stored payload := Sample.after_creation hissues
  have hschema := Sample.governed_stored payload
  refine ⟨⟨_, by rw [hkept, Sample.answer_creation hissues]⟩, hspace ▸ hschema,
    by rw [hspace]; rfl, fun c handle stored hc hstored => ?_⟩
  have hsame : ({ site.space with entities := stored } : Space) = Sample.stored payload := by
    rw [hspace] at hstored ⊢
    rw [List.perm_singleton.1 hstored]
    rfl
  have hsorted : SortKey.createdAt.sorted .descending
      ((Sample.stored payload).matchingEntities "notes" false) =
        .ok (SortOrder.descending.arrange (Sample.stored payload).entities) := by
    obtain ⟨sorted, hsorted, hperm⟩ : ∃ sorted,
        SortKey.createdAt.sorted .descending (Sample.stored payload).entities = .ok sorted ∧
          sorted.Perm (Sample.stored payload).entities :=
      SortKey.sorted_perm (fun _ _ => ⟨_, rfl⟩) _
    rw [List.perm_singleton.1 hperm] at hsorted
    exact hsorted
  have hunreadable : (Sample.stored payload).entities.mapM EntityRow.read =
      .error .unconvertible := by
    refine EntityRow.mapM_read_of_unreadable List.mem_cons_self ?_
    change Json.read? payload.print = none
    rw [Json.read?, Json.print, String.toList_ofList]
    decide +kernel
  rw [hsame]
  refine (listEntities_page hc hschema (hspace ▸ Site.consistent_after _)
    (hspace ▸ Site.isBacked_after _ handle) hsorted (by decide) rfl rfl (by decide)
      (by decide)).trans ?_
  rw [show slice _ _ _ = (Sample.stored payload).entities from rfl, hunreadable]
  rfl

end SchemaVault
