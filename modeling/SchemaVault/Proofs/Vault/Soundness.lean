import SchemaVault.Proofs.Entities.Caching
import SchemaVault.Proofs.Entities.Offsets
import SchemaVault.Proofs.Identifier
import SchemaVault.Proofs.Schemas.Indices
import SchemaVault.Proofs.Schemas.WellFormed
import SchemaVault.Proofs.Version

/-!
# No state is broken for its readers

Whatever has been asked, what is stored can be read and served: no operation but creation answers
that the storage failed, unless the storage does, and none crashes with pages of the usual sizes
(`reachable_states_serve`). Creation alone can still be refused by the storage, when it is asked for
a version whose numbers do not fit.

A space is sound if its versions are well formed and its payloads can be read (`Space.Sound`). In a
sound space each unit of work fails only with what the caller is told of (`StorageError.IsTold`):
the refusal of a request, a violated index, cancellation or another writer. So do the operations,
and every run leaves a sound space behind.
-/

namespace SchemaVault

/-! ## What the caller is told -/

/-- Whether a failure says no more than that the storage failed, or is a crash although pages are so
small that each of them has an offset. -/
def Failure.isBroken (limits : PageLimits) : Failure → Bool
  | .internal _ => true
  | .crashed _ => limits.max.toNat ≤ PageLimits.safeMax
  | _ => false

namespace StorageError

variable {e : StorageError} {limits : PageLimits}

/-- Whether the caller of any operation is told what has happened. -/
def IsTold (limits : PageLimits) (e : StorageError) : Prop :=
  ∀ operation, (e.toFailure operation).isBroken limits = false

theorem isTold_cancelled : IsTold limits .cancelled := fun _ => rfl

theorem isTold_failed {f : Failure} (h : f.isBroken limits = false) :
    IsTold limits (.failed f) := fun _ => h

theorem isTold_of_busy (h : e.constraint? = some .busy) : e.IsTold limits := by
  intro operation
  cases e with
  | refused code text =>
    simp only [toFailure, h, if_true]
    rfl
  | _ => cases h

theorem isTold_heldByWriter : IsTold limits Transaction.heldByWriter := isTold_of_busy (by decide)

/-- Of a change of versions the caller is also told which constraint it violates. -/
theorem toSchemaFailure_isBroken (h : e.IsTold limits ∨ ∃ k, e.constraint? = some k)
    (operation : String) : (e.toSchemaFailure operation).isBroken limits = false := by
  have htold : e.constraint? = some .busy ∨ e.constraint? = none → e.IsTold limits := by
    rintro (hbusy | hnone)
    · exact isTold_of_busy hbusy
    · refine h.resolve_right ?_
      rintro ⟨k, hk⟩
      cases hnone.symm.trans hk
  unfold toSchemaFailure
  split
  · rfl
  · rfl
  · rfl
  · rfl
  · rfl
  · rfl
  · rename_i hbusy
    exact htold (.inl hbusy) operation
  · rename_i hnone
    exact htold (.inr hnone) operation

end StorageError

open StorageError Transaction

namespace Space

/-- A space whose versions are well formed and whose payloads can be read. -/
structure Sound (s : Space) : Prop where
  versions : WellFormed s.versions
  payloads : ∀ row ∈ s.entities, (Json.read? row.payload).isSome

variable {s : Space} {c : Circumstances} {kept : ValidatorCache} {table : String}
variable {id : SchemaId} {version : Version} {entity : EntityId} {payload : Json}
variable {author : Option String} {v : Validator} {e : StorageError} {α : Type}
variable {limits : PageLimits}

/-! ## Queries -/

namespace Sound

theorem read_row (h : s.Sound) {row : VersionRow} (hrow : row ∈ s.versions) :
    ∃ r, VersionRow.read row = .ok r := by
  obtain ⟨member, members, -, hdefinition, -⟩ := (h.versions row hrow).definition
  exact ⟨_, VersionRow.read_eq_ok.2 ⟨_, hdefinition, rfl⟩⟩

theorem findVersion? (h : s.Sound) (p : VersionRow → Bool) :
    ∃ found, s.findVersion? p = .ok found := by
  cases hfind : s.versions.find? p with
  | none => exact ⟨none, findVersion?_eq_none_iff.2 hfind⟩
  | some row =>
    obtain ⟨r, hr⟩ := h.read_row (List.mem_of_find?_eq_some hfind)
    exact ⟨some r, findVersion?_eq_some_iff.2 ⟨row, hfind, hr⟩⟩

theorem versionsOf (h : s.Sound) (id : SchemaId) : ∃ records, s.versionsOf id = .ok records := by
  have hrows : ∀ row ∈ s.versions.filter (·.schemaId == id), ∃ r, VersionRow.read row = .ok r :=
    fun row hrow => h.read_row (List.mem_of_mem_filter hrow)
  obtain ⟨records, hrecords⟩ := exists_mapM_eq_ok hrows
  exact ⟨_, bind_eq_ok.2 ⟨records, hrecords, rfl⟩⟩

theorem allVersions (h : s.Sound) (includeInactive : Bool) :
    ∃ records, s.allVersions includeInactive = .ok records := by
  have hrows : ∀ row ∈ s.versions.filter (fun v => includeInactive || v.isLive),
      ∃ r, VersionRow.read row = .ok r := fun row hrow => h.read_row (List.mem_of_mem_filter hrow)
  obtain ⟨records, hrecords⟩ := exists_mapM_eq_ok hrows
  exact ⟨_, bind_eq_ok.2 ⟨records, hrecords, rfl⟩⟩

theorem entity? (h : s.Sound) (table : String) (entity : EntityId) :
    ∃ found, s.entity? table entity = .ok found := by
  unfold Space.entity?
  cases hfind : s.entities.find? fun e => e.id == entity && e.tableName == table with
  | none => exact ⟨none, rfl⟩
  | some row =>
    rw [Option.mapM_some, EntityRow.read_of_isSome
      (h.payloads row (List.mem_of_find?_eq_some hfind))]
    exact ⟨some row.shown, rfl⟩

/-- An entity that has a row is found. -/
theorem entity?_of_mem (h : s.Sound) {row : EntityRow} (hrow : row ∈ s.rowsOf table entity) :
    ∃ record, s.entity? table entity = .ok (some record) := by
  cases hhead : (s.rowsOf table entity).head? with
  | none =>
    rw [List.head?_eq_none_iff.1 hhead] at hrow
    cases hrow
  | some found =>
    have hfound : found ∈ s.entities := List.mem_of_mem_filter (List.mem_of_head? hhead)
    exact ⟨found.shown, entity?_eq_some_iff.2
      ⟨found, hhead, EntityRow.read_of_isSome (h.payloads found hfound)⟩⟩

/-- **The version that governs a table compiles.** -/
theorem compiled (h : s.Sound) {r : SchemaRecord} (hr : s.governingSchema table = .ok r) :
    ∃ v, ValidatorCache.compiled r = .ok v := by
  obtain ⟨row, hrow, -, hread⟩ := row_of_governingSchema hr
  obtain ⟨member, members, schema, hdefinition, hcompile⟩ := (h.versions row hrow).definition
  obtain ⟨definition, hdefinition', rfl⟩ := VersionRow.read_eq_ok.1 hread
  obtain rfl := Option.some.inj (hdefinition.symm.trans hdefinition')
  exact ⟨⟨row.schemaId, row.version, schema⟩, compiled_eq_ok_iff.2 ⟨rfl, rfl, hcompile⟩⟩

theorem governingSchema_eq_error (h : s.Sound) (he : s.governingSchema table = .error e) :
    e = .failed (noActiveSchema table) := by
  have hreads : s.ReadsLive table := fun row hrow _ _ => by
    obtain ⟨member, members, -, hdefinition, -⟩ := (h.versions row hrow).definition
    exact Option.isSome_iff_exists.2 ⟨_, hdefinition⟩
  rcases hreads.governingSchema_cases with ⟨r, hr⟩ | hnone
  · cases hr.symm.trans he
  · exact Except.error.inj (he.symm.trans hnone)

/-- An operation that needs a validator fails only if the table is not governed, or if the rest of
its work does. -/
theorem withValidator_eq_error (h : s.Sound)
    {rest : Validator → Space → Except StorageError (α × Space)}
    (he : (withValidator table rest s kept).1 = .error e) :
    e = .failed (noActiveSchema table) ∨ ∃ v, rest v s = .error e := by
  unfold withValidator at he
  cases hr : s.governingSchema table with
  | error e' =>
    rw [hr] at he
    obtain rfl := Except.error.inj he
    exact .inl (h.governingSchema_eq_error hr)
  | ok r =>
    rw [hr] at he
    obtain ⟨w, hw⟩ := h.compiled hr
    rcases hobtain : kept.obtain r with ⟨_ | v, kept'⟩
    · unfold ValidatorCache.obtain at hobtain
      rw [hw] at hobtain
      split at hobtain <;> cases hobtain
    · simp only [hobtain] at he
      exact .inr ⟨v, he⟩

end Sound

/-! ## Units of work -/

theorem validated_eq_error (he : validated v payload = .error e) :
    ∃ errors, e = .failed (.validation errors) := by
  obtain ⟨issues, -, rfl⟩ := mapError_eq_error.1 he
  exact ⟨_, rfl⟩

theorem changeEntity_eq_error {f : EntityRow → EntityRow}
    (he : s.changeEntity table entity f = .error e) : e = .failed (noEntity table entity) := by
  unfold changeEntity at he
  dsimp only at he
  split at he
  · cases he
  · exact (Except.error.inj he).symm

theorem createWork_eq_error (he : createWork c table payload author v s = .error e) :
    (∃ errors, e = .failed (.validation errors)) ∨ e = .cancelled ∨ e = entityStored := by
  rcases bind_eq_error.1 he with h | ⟨p, -, h⟩
  · exact .inl (validated_eq_error h)
  · rcases bind_eq_error.1 h with h | ⟨_, -, h⟩
    · exact .inr (.inl (check_eq_error h))
    · rcases bind_eq_error.1 h with h | ⟨_, -, h⟩
      · exact .inr (.inr (taken_of_insertEntity h).1)
      · cases h

theorem Sound.deleteWork_eq_error (h : s.Sound) (he : deleteWork c table entity s = .error e) :
    e = .failed (noActiveSchema table) ∨ e = .failed (noEntity table entity) := by
  rcases bind_eq_error.1 he with he | ⟨r, -, he⟩
  · exact .inl (h.governingSchema_eq_error he)
  · rcases bind_eq_error.1 he with he | ⟨_, -, he⟩
    · exact .inr (changeEntity_eq_error he)
    · cases he

theorem Sound.fetch_eq_error (h : s.Sound) (he : fetch table entity s = .error e) :
    e = .failed (noActiveSchema table) := by
  rcases bind_eq_error.1 he with he | ⟨r, -, he⟩
  · exact h.governingSchema_eq_error he
  · obtain ⟨found, hfound⟩ := h.entity? table entity
    cases hfound.symm.trans he

theorem resolve_eq_error {o : ListOptions} {limits : PageLimits} {declared : List String}
    {f : Failure} (hf : o.resolve limits declared = .error f) :
    ∃ errors, f = .validation errors := by
  unfold ListOptions.resolve at hf
  rcases bind_eq_error.1 hf with hf | ⟨_, -, hf⟩
  · exact ⟨_, FieldErrors.check_eq_error hf⟩
  · cases hf

namespace Sound

/-- A change of an entity that leaves it a payload that can be read. -/
theorem changeEntity (h : s.Sound) {s' : Space} {f : EntityRow → EntityRow}
    (hf : ∀ row, (Json.read? row.payload).isSome → (Json.read? (f row).payload).isSome)
    (hchange : s.changeEntity table entity f = .ok s') : s'.Sound := by
  obtain ⟨-, rfl⟩ := changeEntity_eq_ok_iff.1 hchange
  refine ⟨h.versions, List.forall_mem_map.2 fun row hrow => ?_⟩
  split
  · exact hf row (h.payloads row hrow)
  · exact h.payloads row hrow

/-- **An entity never vanishes when it is updated.** An update fails only if the payload is refused,
the operation is called off or there is no such entity. -/
theorem updateWork_eq_error (h : s.Sound) (hpayload : (Json.read? payload.print).isSome)
    (he : updateWork c table entity payload author v s = .error e) :
    (∃ errors, e = .failed (.validation errors)) ∨ e = .cancelled ∨
      e = .failed (noEntity table entity) := by
  rcases bind_eq_error.1 he with he | ⟨p, hp, he⟩
  · exact .inl (validated_eq_error he)
  obtain ⟨-, rfl⟩ := validated_eq_ok_iff.1 hp
  rcases bind_eq_error.1 he with he | ⟨_, -, he⟩
  · exact .inr (.inl (check_eq_error he))
  rcases bind_eq_error.1 he with he | ⟨s', hchange, he⟩
  · exact .inr (.inr (changeEntity_eq_error he))
  -- The row that has been changed is there still, and can be read.
  have hsound : s'.Sound :=
    h.changeEntity (f := updatedRow c author v payload) (fun _ _ => hpayload) hchange
  obtain ⟨⟨row, hrow, -⟩, hrows⟩ :=
    (rowsOf_changeEntity (f := updatedRow c author v payload) (fun _ => ⟨rfl, rfl⟩) hchange table
      entity).1 ⟨rfl, rfl⟩
  obtain ⟨record, hrecord⟩ := hsound.entity?_of_mem (hrows ▸ List.mem_map_of_mem hrow)
  rw [hrecord] at he
  cases he

/-- **A page can be had if it has an offset.** -/
theorem pageOf_eq_error {l : Listing} (h : s.Sound) (hpage : 0 < l.page.toNat)
    (he : s.pageOf table l = .error e) : e = .failed Listing.overflow ∧ 2 ^ 63 ≤ l.before := by
  rcases Nat.lt_or_ge l.before (2 ^ 63) with hlt | hle
  · obtain ⟨offset, hoffset, -⟩ := Listing.exists_offset hpage hlt
    have hread : ∀ row ∈ s.matchingEntities table l.includeDeleted,
        (Json.read? row.payload).isSome :=
      fun row hrow => h.payloads row (List.mem_of_mem_filter hrow)
    obtain ⟨page, hfound⟩ := exists_pageOf hread hoffset
    cases hfound.symm.trans he
  · rw [pageOf_of_le hpage hle] at he
    exact ⟨(Except.error.inj he).symm, hle⟩

theorem listWork_eq_error (h : s.Sound) {o : ListOptions}
    (he : listWork limits table o v s = .error e) :
    (∃ errors, e = .failed (.validation errors)) ∨
      e = .failed Listing.overflow ∧ 2 ^ 63 ≤ o.before limits := by
  rcases bind_eq_error.1 he with he | ⟨l, hresolve, he⟩
  · obtain ⟨f, hf, rfl⟩ := mapError_eq_error.1 he
    obtain ⟨errors, rfl⟩ := resolve_eq_error hf
    exact .inl ⟨errors, rfl⟩
  · have hresolve := mapError_eq_ok.1 hresolve
    rcases bind_eq_error.1 he with he | ⟨page, -, he⟩
    · have hpos : 0 < l.page.toNat := by
        rw [ListOptions.eq_of_resolve hresolve]
        exact PageLimits.clampPage_pos o.page
      exact .inr (ListOptions.before_of_resolve hresolve ▸ h.pageOf_eq_error hpos he)
    · cases he

theorem activateVersion_eq_error (h : s.Sound) (he : activateVersion c id version s = .error e) :
    e.IsTold limits ∨ ∃ k, e.constraint? = some k := by
  rcases bind_eq_error.1 he with he | ⟨found, -, he⟩
  · obtain ⟨found, hfound⟩ := h.findVersion? fun v => v.isVersion id version
    cases hfound.symm.trans he
  cases found with
  | none =>
    obtain rfl := Except.error.inj he
    exact .inl (isTold_failed rfl)
  | some record =>
    rcases refusal_eq_error.1 he with ⟨-, rfl⟩ | ⟨-, he⟩
    · exact .inl (isTold_failed rfl)
    rcases bind_eq_error.1 he with he | ⟨_, -, he⟩
    · exact .inl (check_eq_error he ▸ isTold_cancelled)
    rcases bind_eq_error.1 he with he | ⟨_, -, he⟩
    · obtain ⟨i, rfl, -⟩ := violated_of_markActive he
      exact .inr ⟨i.constraint, i.constraint?_violation⟩
    · cases he

end Sound

theorem deleteVersion_eq_error (he : deleteVersion id version s = .error e) :
    e = .failed (noVersion id version) := by
  unfold deleteVersion at he
  dsimp only at he
  split at he
  · cases he
  · exact (Except.error.inj he).symm

/-! ## Operations -/

/-- **What is told of a transaction** that the storage does not spoil is what its wording makes of
why its work fails, of a cancellation, or of another writer. -/
theorem told_of_execute (limits : PageLimits) (hfault : c.fault = none) {a : Access}
    {work : Work α} {wording : StorageError → Failure} {f : Failure}
    (h : (execute c a work s).1.mapError wording = .error f) :
    ∃ e, wording e = f ∧ (work s = .error e ∨ e.IsTold limits) := by
  obtain ⟨e, he, rfl⟩ := mapError_eq_error.1 h
  refine ⟨e, rfl, ?_⟩
  rcases execute_eq_error he with rfl | rfl | hwork | hspoilt
  · exact .inr isTold_cancelled
  · exact .inr isTold_heldByWriter
  · exact .inl hwork
  · cases hfault.symm.trans hspoilt

theorem told_of_query (hfault : c.fault = none) {q : Space → Except StorageError α}
    {operation : String} {f : Failure} (hq : ∀ e, q s = .error e → e.IsTold limits)
    (h : (query c q s).mapError (·.toFailure operation) = .error f) :
    f.isBroken limits = false := by
  obtain ⟨e, rfl, hwork | htold⟩ := told_of_execute limits hfault h
  · unfold reading at hwork
    cases hread : q s with
    | error e' =>
      rw [hread] at hwork
      exact hq e (hread.trans (congrArg Except.error (Except.error.inj hwork))) operation
    | ok a =>
      rw [hread] at hwork
      cases hwork
  · exact htold operation

theorem isTold_of_ok {x : Except StorageError α} (hx : ∃ a, x = .ok a) (e : StorageError)
    (he : x = .error e) : e.IsTold limits := by
  obtain ⟨a, ha⟩ := hx
  cases ha.symm.trans he

theorem orNotFound_isBroken {found : Option α} {what : String} {f : Failure}
    (hf : orNotFound found what = .error f) : f.isBroken limits = false := by
  cases found with
  | some a => cases hf
  | none =>
    obtain rfl := Except.error.inj hf
    rfl

/-- A look-up of a single version whose finding is sifted before it is told. -/
theorem Sound.told_of_lookup (h : s.Sound) (hfault : c.fault = none) {p : VersionRow → Bool}
    {sift : Option SchemaRecord → Option SchemaRecord} {operation what : String} {f : Failure}
    (hf : ((query c (·.findVersion? p) s).mapError (·.toFailure operation) >>= fun found =>
      orNotFound (sift found) what) = .error f) : f.isBroken limits = false := by
  rcases bind_eq_error.1 hf with hf | ⟨found, -, hf⟩
  · exact told_of_query hfault (isTold_of_ok (h.findVersion? p)) hf
  · exact orNotFound_isBroken hf

/-- An operation on entities that obtains a validator first. -/
theorem Sound.told_of_validating (h : s.Sound) (limits : PageLimits) (hfault : c.fault = none)
    {a : Access} {rest : Validator → Work α} {wording : StorageError → Failure} {f : Failure}
    (hf : (executeKeeping c a (withValidator table rest) s kept).1.mapError wording = .error f) :
    ∃ e, wording e = f ∧ ((∃ v, rest v s = .error e) ∨ e.IsTold limits) := by
  rw [answer_executeKeeping] at hf
  obtain ⟨e, rfl, hwork | htold⟩ := told_of_execute limits hfault hf
  · rcases h.withValidator_eq_error hwork with rfl | hrest
    · exact ⟨_, rfl, .inr (isTold_failed rfl)⟩
    · exact ⟨e, rfl, .inl hrest⟩
  · exact ⟨e, rfl, .inr htold⟩

namespace Sound

variable {f : Failure}

theorem activateSchema (h : s.Sound) (hfault : c.fault = none)
    (hf : (s.activateSchema c id version).1 = .error f) : f.isBroken limits = false := by
  obtain ⟨e, rfl, hwork | htold⟩ := told_of_execute limits hfault hf
  · exact toSchemaFailure_isBroken (h.activateVersion_eq_error hwork) _
  · exact toSchemaFailure_isBroken (.inl htold) _

theorem deleteSchema (hfault : c.fault = none)
    (hf : (s.deleteSchema c id version).1 = .error f) : f.isBroken limits = false := by
  obtain ⟨e, rfl, hwork | htold⟩ := told_of_execute limits hfault hf
  · rw [deleteVersion_eq_error hwork]
    rfl
  · exact htold _

theorem createEntity (h : s.Sound) (hfault : c.fault = none)
    (hf : (s.createEntity c table payload author kept).1 = .error f) :
    f.isBroken limits = false := by
  obtain ⟨e, rfl, ⟨v, hwork⟩ | htold⟩ := h.told_of_validating limits hfault hf
  · rcases createWork_eq_error hwork with ⟨errors, rfl⟩ | rfl | rfl
    · rfl
    · rfl
    · simp only [constraint?_entityStored]
      rfl
  · split
    · rfl
    · exact htold _

theorem updateEntity (h : s.Sound) (hfault : c.fault = none)
    (hpayload : (Json.read? payload.print).isSome)
    (hf : (s.updateEntity c table entity payload author kept).1 = .error f) :
    f.isBroken limits = false := by
  obtain ⟨e, rfl, ⟨v, hwork⟩ | htold⟩ := h.told_of_validating limits hfault hf
  · rcases h.updateWork_eq_error hpayload hwork with ⟨errors, rfl⟩ | rfl | rfl <;> rfl
  · exact htold _

/-- A listing crashes only if pages may be larger than is safe. -/
theorem listEntities (h : s.Sound) (hfault : c.fault = none) {o : ListOptions}
    (hf : (s.listEntities c limits table o kept).1 = .error f) : f.isBroken limits = false := by
  obtain ⟨e, rfl, ⟨v, hwork⟩ | htold⟩ := h.told_of_validating limits hfault hf
  · rcases h.listWork_eq_error hwork with ⟨errors, rfl⟩ | ⟨rfl, hle⟩
    · rfl
    · have hunsafe : ¬limits.max.toNat ≤ PageLimits.safeMax := fun hsafe =>
        absurd hle (not_le.2 (ListOptions.before_lt_of_safe hsafe o))
      exact decide_eq_false hunsafe
  · exact htold _

theorem getEntity (h : s.Sound) (hfault : c.fault = none) {includeDeleted : Bool}
    (hf : s.getEntity c table entity includeDeleted = .error f) : f.isBroken limits = false := by
  rcases bind_eq_error.1 hf with hf | ⟨found, -, hf⟩
  · exact told_of_query hfault
      (fun e he => h.fetch_eq_error he ▸ isTold_failed (f := noActiveSchema table) rfl) hf
  · split at hf
    · cases hf
    · obtain rfl := Except.error.inj hf
      rfl

theorem deleteEntity (h : s.Sound) (hfault : c.fault = none)
    (hf : (s.deleteEntity c table entity).1 = .error f) : f.isBroken limits = false := by
  obtain ⟨e, rfl, hwork | htold⟩ := told_of_execute limits hfault hf
  · rcases h.deleteWork_eq_error hwork with rfl | rfl <;> rfl
  · exact htold _

end Sound

end Space

/-- Whether an answer is a failure of that kind. -/
def Answer.isBroken (limits : PageLimits) : Answer → Bool
  | .failure f => f.isBroken limits
  | _ => false

theorem Answer.ofResult_isBroken {α : Type} {limits : PageLimits} {answer : α → Answer}
    {x : Except Failure α} (hanswer : ∀ a, (answer a).isBroken limits = false)
    (hx : ∀ f, x = .error f → f.isBroken limits = false) :
    (ofResult answer x).isBroken limits = false := by
  cases x with
  | ok a => exact hanswer a
  | error f => exact hx f rfl

open Space

/-- **A sound space answers no request but a creation with an internal failure**, unless the storage
fails, and with a crash only if pages may be larger than is safe. -/
theorem Space.Sound.answer_isBroken {s : Space} (h : s.Sound) {c : Circumstances}
    (hfault : c.fault = none) (limits : PageLimits) {r : Request} (hread : r.PayloadReads)
    (hr : ∀ d, r ≠ .createSchema d) (kept : ValidatorCache) :
    (s.answer c limits r kept).1.isBroken limits = false := by
  cases r with
  | createSchema d => exact absurd rfl (hr d)
  | listVersions id includeDeleted =>
    refine Answer.ofResult_isBroken (fun _ => rfl) fun f hf => ?_
    rcases bind_eq_error.1 hf with hf | ⟨records, -, hf⟩
    · exact told_of_query hfault (isTold_of_ok (h.versionsOf id)) hf
    · cases hf
  | listSchemas includeInactive =>
    refine Answer.ofResult_isBroken (fun _ => rfl) fun f hf => ?_
    exact told_of_query hfault (isTold_of_ok (h.allVersions includeInactive)) hf
  | getSchema id version =>
    exact Answer.ofResult_isBroken (fun _ => rfl) fun f hf => h.told_of_lookup hfault hf
  | getActive id =>
    exact Answer.ofResult_isBroken (fun _ => rfl) fun f hf => h.told_of_lookup hfault hf
  | getActiveForTable table =>
    exact Answer.ofResult_isBroken (fun _ => rfl) fun f hf => h.told_of_lookup hfault hf
  | activateSchema id version =>
    exact Answer.ofResult_isBroken (fun _ => rfl) fun f hf => h.activateSchema hfault hf
  | deleteSchema id version =>
    exact Answer.ofResult_isBroken (fun _ => rfl) fun f hf => Sound.deleteSchema hfault hf
  | createEntity table payload author =>
    exact Answer.ofResult_isBroken (fun _ => rfl) fun f hf => h.createEntity hfault hf
  | updateEntity table id payload author =>
    exact Answer.ofResult_isBroken (fun _ => rfl) fun f hf => h.updateEntity hfault hread hf
  | listEntities table o =>
    exact Answer.ofResult_isBroken (fun _ => rfl) fun f hf => h.listEntities hfault hf
  | getEntity table id includeDeleted =>
    exact Answer.ofResult_isBroken (fun _ => rfl) fun f hf => h.getEntity hfault hf
  | deleteEntity table id =>
    exact Answer.ofResult_isBroken (fun _ => rfl) fun f hf => h.deleteEntity hfault hf
  | findSchema id version | categoryIsLive id | appliedMigration =>
    simp only [answer, Answer.ofQuery]
    split <;> rfl
  | changeCategories steps => rfl

/-! ## Runs -/

theorem Request.PayloadReadsBack.reads {r : Request} (h : r.PayloadReadsBack) : r.PayloadReads := by
  cases r with
  | createEntity | updateEntity => exact Option.isSome_iff_exists.2 ⟨_, h⟩
  | _ => trivial

section Runs

variable {run : List Step}

/-- **Every run leaves a sound space behind**, and its entities are in tables with valid names, if
what is written reads back. -/
theorem Site.sound_after
    (hdefinitions : fresh.Along (fun _ step => step.Asks Request.DefinitionReadsBack) run)
    (hpayloads : fresh.Along (fun _ step => step.Asks Request.PayloadReadsBack) run) :
    (fresh.after run).space.Sound ∧
      ∀ e ∈ (fresh.after run).space.entities, TableName.isValid e.tableName = true := by
  have hversions := wellFormed_after hdefinitions
  have hfaithful : (fresh.after run).Faithful :=
    after_of_step (fun _ _ hread h => h.next hread) hpayloads faithful_fresh
  refine ⟨⟨hversions, fun e he => ?_⟩, fun e he => ?_⟩
  · obtain ⟨row, -, v, payload, -, -, -, -, hread, -⟩ := hfaithful.entities e he
    exact Option.isSome_iff_exists.2 ⟨payload, hread⟩
  · obtain ⟨row, hrow, v, payload, htable, -⟩ := hfaithful.entities e he
    exact htable ▸ (hversions row hrow).tableName

/-- **No reachable state is broken for its readers**, if the definitions and the payloads that are
written read back. The slug of a stored version is normal and not empty, its table name is valid,
its definition is an object with a member that compiles, and the texts of its schema and its number
read as what they stand for; so it is with the texts of stored entities. The version that governs a
table always has a validator, and an entity never vanishes when it is updated. No request but the
creation of a version is answered with an internal failure, unless the storage fails, and none with
a crash if a page has at most `2 ^ 31` entities, whichever handle is asked and even if another
writer holds the space. -/
theorem reachable_states_serve
    (hdefinitions : Site.fresh.Along (fun _ step => step.Asks Request.DefinitionReadsBack) run)
    (hpayloads : Site.fresh.Along (fun _ step => step.Asks Request.PayloadReadsBack) run) :
    let site := Site.fresh.after run
    let s := site.space
    (∀ row ∈ s.versions,
      (row.slug ≠ "" ∧ Slug.normalize row.slug = row.slug ∧ Slug.IsNormal row.slug) ∧
      TableName.isValid row.tableName = true ∧
      (∃ member members schema,
        Json.read? row.definition = some (.object (member :: members)) ∧
          Schema.compile (.object (member :: members)) = .ok schema) ∧
      SchemaId.read? row.schemaId.text = some row.schemaId ∧
      Version.read row.version.text = .ok row.version) ∧
    (∀ e ∈ s.entities, TableName.isValid e.tableName = true ∧ (Json.read? e.payload).isSome ∧
      EntityId.read? e.id.text = some e.id ∧ SchemaId.read? e.schemaId.text = some e.schemaId ∧
      Version.read e.schemaVersion.text = .ok e.schemaVersion) ∧
    (∀ handle table r, s.governingSchema table = .ok r → ∃ v,
      ValidatorCache.compiled r = .ok v ∧ ((site.kept handle).obtain r).1 = .ok v) ∧
    (∀ c table id payload author v text, payload.ReadsBack →
      updateWork c table id payload author v s ≠ .error (.invalidData text)) ∧
    ∀ handle c limits r what, c.fault = none → r.PayloadReadsBack → (∀ d, r ≠ .createSchema d) →
      (s.answer c limits r (site.kept handle)).1 ≠ .failure (.internal what) ∧
        (limits.max.toNat ≤ PageLimits.safeMax →
          (s.answer c limits r (site.kept handle)).1 ≠ .failure (.crashed what)) := by
  intro site s
  obtain ⟨hsound, htables⟩ := Site.sound_after hdefinitions hpayloads
  refine ⟨fun row hrow => ?_, fun e he => ⟨htables e he, hsound.payloads e he, e.id.read?_text,
    e.schemaId.read?_text, e.schemaVersion.read_text⟩, fun handle table r hr => ?_,
    fun c table id payload author v text hread he => ?_,
    fun handle c limits r what hfault hread hr => ?_⟩
  · have hrow := hsound.versions row hrow
    obtain ⟨hne, hsame⟩ := Slug.isNormal_iff.1 hrow.slug
    exact ⟨⟨hne, hsame, hrow.slug⟩, hrow.tableName, hrow.definition, row.schemaId.read?_text,
      row.version.read_text⟩
  · obtain ⟨v, hv⟩ := hsound.compiled hr
    have hsame := obtain_eq_compiled (Site.consistent_after run) (Site.isBacked_after run handle) hr
    exact ⟨v, hv, hsame.trans hv⟩
  · rcases hsound.updateWork_eq_error (Option.isSome_iff_exists.2 ⟨_, hread⟩) he with
      ⟨errors, h⟩ | h | h <;> cases h
  · have htold := hsound.answer_isBroken hfault limits hread.reads hr (site.kept handle)
    refine ⟨fun ha => ?_, fun hsafe ha => ?_⟩ <;> rw [ha] at htold
    · cases htold
    · exact of_decide_eq_false htold hsafe

/-- An entity that a run has stored can be updated without an internal failure or a crash. -/
theorem reachable_states_serve_sample :
    Site.fresh.Along (fun _ step => step.Asks Request.DefinitionReadsBack) Sample.run ∧
      Site.fresh.Along (fun _ step => step.Asks Request.PayloadReadsBack) Sample.run ∧
      (∃ row ∈ (Site.fresh.after Sample.run).space.versions,
        row.version = ⟨1, 0, 1⟩ ∧ Slug.IsNormal row.slug) ∧
      ∀ what, let answer := ((Site.fresh.after Sample.run).space.answer (.calm 4 Sample.first)
          .standard (.updateEntity "notes" ⟨Sample.second⟩ Sample.payload none)
          ((Site.fresh.after Sample.run).kept 0)).1
        answer ≠ .failure (.internal what) ∧ answer ≠ .failure (.crashed what) := by
  have hdefinition : Sample.draft.definition.ReadsBack := by
    unfold Json.ReadsBack
    decide +kernel
  have hpayload : Sample.payload.ReadsBack := by
    unfold Json.ReadsBack
    decide +kernel
  have hdefinitions : Site.fresh.Along (fun _ step => step.Asks Request.DefinitionReadsBack)
      Sample.run := ⟨trivial, trivial, hdefinition, hdefinition, trivial, trivial⟩
  have hpayloads : Site.fresh.Along (fun _ step => step.Asks Request.PayloadReadsBack)
      Sample.run := ⟨trivial, trivial, trivial, trivial, hpayload, trivial⟩
  obtain ⟨hversions, -, -, -, hanswers⟩ := reachable_states_serve hdefinitions hpayloads
  have hrow : Sample.row ⟨1, 0, 1⟩ 1 true ∈ (Site.fresh.after Sample.run).space.versions := by
    rw [Sample.after_run]
    simp [Sample.stored]
  refine ⟨hdefinitions, hpayloads, ⟨_, hrow, rfl, (hversions _ hrow).1.2.2⟩, fun what => ?_⟩
  obtain ⟨hinternal, hcrashed⟩ := hanswers 0 (.calm 4 Sample.first) .standard
    (.updateEntity "notes" ⟨Sample.second⟩ Sample.payload none) what rfl hpayload
      fun _ h => Request.noConfusion h
  exact ⟨hinternal, hcrashed (by decide)⟩

end Runs

end SchemaVault
