import SchemaVault.Proofs.Schemas.Lookup
import SchemaVault.Entities.Operations

/-!
# The changes of entities

When each unit of work on entities goes through and what it leaves behind. Those that take a
payload get a validator first: `Guards` says where it comes from, and `withValidator_kept` what is
kept from then on. A stamped payload is one that the validator of its stamp accepts
(`validated_eq_ok_iff`).
-/

namespace SchemaVault.Space

variable {s s' : Space} {c : Circumstances} {kept : ValidatorCache} {table : String}
variable {id : EntityId} {payload : Json} {author : Option String} {v : Validator}
variable {record : EntityRecord} {α : Type}

/-! ## The governing version -/

theorem governingSchema_eq_ok_iff {r : SchemaRecord} :
    s.governingSchema table = .ok r ↔
      ∃ row, s.versions.find? (fun v => v.tableName == table && v.isLive) = some row ∧
        VersionRow.read row = .ok r := by
  unfold governingSchema
  rw [Transaction.bind_eq_ok, ← findVersion?_eq_some_iff]
  constructor
  · rintro ⟨found, hfound, h⟩
    cases found with
    | none => simp [throw, throwThe, MonadExceptOf.throw] at h
    | some r' =>
      obtain rfl := Transaction.pure_eq_ok.1 h
      exact hfound
  · intro h
    exact ⟨some r, h, rfl⟩

/-- A validator under which an operation on a table runs: one that is kept for the version that
governs the table, or else one that is compiled from it. -/
def Guards (s : Space) (kept : ValidatorCache) (table : String) (v : Validator) : Prop :=
  ∃ r, s.governingSchema table = .ok r ∧ (kept.obtain r).1 = .ok v

theorem obtain_cases {r : SchemaRecord} (h : (kept.obtain r).1 = .ok v) :
    (v ∈ kept ∧ v.schemaId = r.schemaId ∧ v.version = r.version) ∨
      ValidatorCache.compiled r = .ok v := by
  unfold ValidatorCache.obtain at h
  cases hfind : kept.find? r.schemaId r.version with
  | some w =>
    simp only [hfind, Except.ok.injEq] at h
    subst h
    have hfor := List.find?_some hfind
    simp only [Validator.isFor, Bool.and_eq_true, beq_iff_eq] at hfor
    exact .inl ⟨List.mem_of_find?_eq_some hfind, hfor⟩
  | none =>
    simp only [hfind] at h
    cases hcompiled : ValidatorCache.compiled r with
    | error e => simp [hcompiled] at h
    | ok w =>
      simp only [hcompiled, Except.ok.injEq] at h
      exact .inr (by rw [h])

theorem compiled_eq_ok_iff {r : SchemaRecord} :
    ValidatorCache.compiled r = .ok v ↔
      v.schemaId = r.schemaId ∧ v.version = r.version ∧
        Schema.compile r.definition = .ok v.schema := by
  unfold ValidatorCache.compiled Validator.ofDefinition
  cases Schema.compile r.definition with
  | error e => simp [Except.map]
  | ok schema =>
    obtain ⟨id, version, schema'⟩ := v
    simp only [Except.map, Except.ok.injEq, Validator.mk.injEq]
    constructor
    · rintro ⟨rfl, rfl, rfl⟩
      exact ⟨rfl, rfl, rfl⟩
    · rintro ⟨rfl, rfl, rfl⟩
      exact ⟨rfl, rfl, rfl⟩

theorem compiled_eq_error {r : SchemaRecord} {e : StorageError}
    (h : ValidatorCache.compiled r = .error e) : ∃ text, e = .invalidData text := by
  unfold ValidatorCache.compiled at h
  split at h
  · cases h
  · exact ⟨_, (Except.error.inj h).symm⟩

/-- Of a governed table the validator is obtained next. -/
theorem withValidator_of_governed {rest : Validator → Space → Except StorageError (α × Space)}
    {r : SchemaRecord} (h : s.governingSchema table = .ok r) :
    (withValidator table rest s kept).1 = (kept.obtain r).1 >>= fun v => rest v s := by
  simp only [withValidator, h]
  rcases kept.obtain r with ⟨_ | v, kept'⟩ <;> rfl

theorem withValidator_eq_ok {rest : Validator → Space → Except StorageError (α × Space)} {a : α}
    (h : (withValidator table rest s kept).1 = .ok (a, s')) :
    ∃ v, s.Guards kept table v ∧ rest v s = .ok (a, s') := by
  unfold withValidator at h
  cases hgoverning : s.governingSchema table with
  | error e => simp [hgoverning] at h
  | ok r =>
    simp only [hgoverning] at h
    rcases hobtain : kept.obtain r with ⟨_ | v, kept'⟩
    · simp [hobtain] at h
    · simp only [hobtain] at h
      exact ⟨v, ⟨r, hgoverning, by rw [hobtain]⟩, h⟩

/-- **What an operation keeps**: what was kept before, or that and the validator of the version
that governs its table, in place of those of the same schema. -/
theorem withValidator_kept (table : String) (s : Space) (kept : ValidatorCache)
    (rest : Validator → Space → Except StorageError (α × Space)) :
    (withValidator table rest s kept).2 = kept ∨
      ∃ r v, s.governingSchema table = .ok r ∧ ValidatorCache.compiled r = .ok v ∧
        (withValidator table rest s kept).2 = kept.keep v := by
  unfold withValidator ValidatorCache.obtain
  cases hgoverning : s.governingSchema table with
  | error e => exact .inl rfl
  | ok r =>
    dsimp only
    cases kept.find? r.schemaId r.version with
    | some w => exact .inl rfl
    | none =>
      dsimp only
      cases hcompiled : ValidatorCache.compiled r with
      | error e => exact .inl rfl
      | ok w => exact .inr ⟨r, w, rfl, hcompiled, rfl⟩

/-! ## Statements -/

theorem validated_eq_ok_iff {p : ValidatedPayload} :
    validated v payload = .ok p ↔
      v.schema.issues payload = [] ∧ p = ⟨v.schemaId, v.version, payload⟩ := by
  unfold validated Validator.validate
  rw [Transaction.mapError_eq_ok]
  cases v.schema.issues payload with
  | nil => simp [eq_comm]
  | cons i is => simp

theorem insertEntity_eq_ok_iff {row : EntityRow} :
    s.insertEntity row = .ok s' ↔
      (∀ e ∈ s.entities, e.id ≠ row.id) ∧ { s with entities := s.entities ++ [row] } = s' := by
  unfold insertEntity
  split
  · rename_i hany
    simp only [List.any_eq_true, beq_iff_eq] at hany
    obtain ⟨e, he, hid⟩ := hany
    simp only [reduceCtorEq, false_iff, not_and]
    exact fun h => absurd hid (h e he)
  · rename_i hany
    simp only [List.any_eq_true, beq_iff_eq, not_exists, not_and] at hany
    rw [Except.ok.injEq]
    exact ⟨fun h => ⟨hany, h⟩, fun h => h.2⟩

/-- An entity that is not inserted has an identifier that is taken. -/
theorem taken_of_insertEntity {row : EntityRow} {e : StorageError}
    (h : s.insertEntity row = .error e) : e = entityStored ∧ ∃ o ∈ s.entities, o.id = row.id := by
  unfold insertEntity at h
  split at h
  · rename_i htaken
    obtain ⟨o, ho, hid⟩ := List.any_eq_true.1 htaken
    exact ⟨(Except.error.inj h).symm, o, ho, beq_iff_eq.1 hid⟩
  · cases h

/-- Whether a row is the live entity of a table that has an identifier. -/
def isLiveEntity (table : String) (id : EntityId) (e : EntityRow) : Bool :=
  e.id == id && e.tableName == table && !e.deleted

theorem changeEntity_eq_ok_iff {f : EntityRow → EntityRow} :
    s.changeEntity table id f = .ok s' ↔
      (∃ e ∈ s.entities, isLiveEntity table id e) ∧
        { s with entities := s.entities.map fun e => if isLiveEntity table id e then f e else e } =
          s' := by
  change (if s.entities.any (isLiveEntity table id) then _ else _) = _ ↔ _
  split
  · rename_i hany
    simp only [List.any_eq_true] at hany
    simp only [Except.ok.injEq, hany, true_and]
    rfl
  · rename_i hany
    simp only [List.any_eq_true] at hany
    simp [hany]

/-! ## Units of work -/

/-- The row of a new entity. -/
def newEntityRow (c : Circumstances) (table : String) (author : Option String) (v : Validator)
    (payload : Json) : EntityRow :=
  (newEntity c table ⟨v.schemaId, v.version, payload⟩ author).withPayload payload.print

/-- What an update makes of a row. -/
def updatedRow (c : Circumstances) (author : Option String) (v : Validator) (payload : Json)
    (e : EntityRow) : EntityRow :=
  { e with
    payload := payload.print
    schemaId := v.schemaId
    schemaVersion := v.version
    updatedAt := c.now
    updatedBy := author }

theorem createWork_eq_ok_iff :
    createWork c table payload author v s = .ok (record, s') ↔
      v.schema.issues payload = [] ∧ c.check .midway = .ok () ∧
        newEntity c table ⟨v.schemaId, v.version, payload⟩ author = record ∧
        s.insertEntity (newEntityRow c table author v payload) = .ok s' := by
  simp only [createWork, Transaction.bind_eq_ok, Transaction.pure_eq_ok, validated_eq_ok_iff,
    Prod.mk.injEq]
  constructor
  · rintro ⟨p, ⟨hvalid, rfl⟩, _, hcheck, _, hinsert, rfl, rfl⟩
    exact ⟨hvalid, hcheck, rfl, hinsert⟩
  · rintro ⟨hvalid, hcheck, rfl, hinsert⟩
    exact ⟨_, ⟨hvalid, rfl⟩, (), hcheck, s', hinsert, rfl, rfl⟩

theorem updateWork_eq_ok_iff :
    updateWork c table id payload author v s = .ok (record, s') ↔
      v.schema.issues payload = [] ∧ c.check .midway = .ok () ∧
        s.changeEntity table id (updatedRow c author v payload) = .ok s' ∧
        s'.entity? table id = .ok (some record) := by
  simp only [updateWork, Transaction.bind_eq_ok, validated_eq_ok_iff]
  constructor
  · rintro ⟨p, ⟨hvalid, rfl⟩, _, hcheck, after, hchange, found, hfound, h⟩
    cases found with
    | none => simp [throw, throwThe, MonadExceptOf.throw] at h
    | some r =>
      simp only [Transaction.pure_eq_ok, Prod.mk.injEq] at h
      obtain ⟨rfl, rfl⟩ := h
      exact ⟨hvalid, hcheck, hchange, hfound⟩
  · rintro ⟨hvalid, hcheck, hchange, hfound⟩
    exact ⟨_, ⟨hvalid, rfl⟩, (), hcheck, s', hchange, some record, hfound, rfl⟩

theorem deleteWork_eq_ok_iff {u : Unit} :
    deleteWork c table id s = .ok (u, s') ↔
      (∃ r, s.governingSchema table = .ok r) ∧
        s.changeEntity table id (fun e => { e with deleted := true, deletedAt := some c.now }) =
          .ok s' := by
  simp only [deleteWork, Transaction.bind_eq_ok, Transaction.pure_eq_ok, Prod.mk.injEq]
  constructor
  · rintro ⟨r, hr, _, hchange, -, rfl⟩
    exact ⟨⟨r, hr⟩, hchange⟩
  · rintro ⟨⟨r, hr⟩, hchange⟩
    exact ⟨r, hr, s', hchange, trivial, rfl⟩

theorem listWork_eq_ok_iff {limits : PageLimits} {o : ListOptions} {page : EntityPage} :
    listWork limits table o v s = .ok (page, s') ↔
      (∃ l, o.resolve limits v.schema.propertyNames = .ok l ∧ s.pageOf table l = .ok page) ∧
        s = s' := by
  simp only [listWork, Transaction.bind_eq_ok, Transaction.pure_eq_ok, Transaction.mapError_eq_ok,
    Prod.mk.injEq]
  constructor
  · rintro ⟨l, hresolve, _, hpage, rfl, rfl⟩
    exact ⟨⟨l, hresolve, hpage⟩, rfl⟩
  · rintro ⟨⟨l, hresolve, hpage⟩, rfl⟩
    exact ⟨l, hresolve, page, hpage, rfl, rfl⟩

/-- A listing that succeeds answers a page of the request as it is settled. -/
theorem exists_pageOf_of_listEntities {limits : PageLimits} {o : ListOptions} {page : EntityPage}
    (h : (s.listEntities c limits table o kept).1 = .ok page) :
    ∃ declared l, o.resolve limits declared = .ok l ∧ s.pageOf table l = .ok page := by
  have hrun : (Transaction.executeKeeping c .read (withValidator table (listWork limits table o)) s
      kept).1 = .ok page := Transaction.mapError_eq_ok.1 h
  rcases Transaction.executeKeeping_cases c .read (withValidator table (listWork limits table o)) s
    kept with ⟨e, hend⟩ | ⟨e, hend⟩ | ⟨result, after, hwork, hend⟩
  · rw [hend] at hrun
    cases hrun
  · rw [hend] at hrun
    cases hrun
  · rw [hend] at hrun
    obtain rfl := Except.ok.inj hrun
    obtain ⟨v, -, hwork⟩ := withValidator_eq_ok hwork
    exact ⟨v.schema.propertyNames, (listWork_eq_ok_iff.1 hwork).1⟩

end SchemaVault.Space
