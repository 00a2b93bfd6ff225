import SchemaVault.Proofs.Entities.Caching

/-!
# What a request sees of a space

A request on schemas or categories sees no entity, a request about the entities of a table sees no
entity of another table, and only one request sees the recorded migrations. So a request is answered
the same, and does the same, in a space of which only some tables are left and in which other
migrations are recorded (`answer_restrict`). The one thing that reaches across tables is the
identifier of a new entity, which none of the entities left out may have. What a request does to the
entities of another table, on the other hand, cannot be seen of the rest of the space
(`Move.restrict_eq`).

A unit of work that does the same before and after a change of the space is one that commutes with
the change; transactions keep this (`execute_map`), and the units of work are gone through one by
one.
-/

namespace SchemaVault

/-! ## Transactions -/

namespace Transaction

variable {α κ : Type} {c : Circumstances} {a : Access} {s s' : Space} {φ : Space → Space}

theorem settle_map (φ : Space → Space) (c : Circumstances)
    (outcome : Except StorageError (α × Space)) (s : Space) :
    settle c (outcome.map fun r => (r.1, φ r.2)) (φ s) =
      ((settle c outcome s).1, φ (settle c outcome s).2) := by
  cases outcome with
  | error e => rfl
  | ok p =>
    simp only [settle, Except.map]
    cases c.fault with
    | some e => rfl
    | none => cases c.isDone .commit <;> rfl

/-- **A transaction commutes with what its work commutes with.** -/
theorem execute_map {work : Work α} (h : work (φ s) = (work s).map fun r => (r.1, φ r.2)) :
    execute c a work (φ s) = ((execute c a work s).1, φ (execute c a work s).2) := by
  unfold execute
  cases enter c a with
  | error e => rfl
  | ok u =>
    dsimp only
    rw [h, settle_map]

theorem executeKeeping_map {work : Space → κ → Except StorageError (α × Space) × κ} {kept : κ}
    (h : work (φ s) kept = ((work s kept).1.map fun r => (r.1, φ r.2), (work s kept).2)) :
    executeKeeping c a work (φ s) kept =
      ((executeKeeping c a work s kept).1, φ (executeKeeping c a work s kept).2.1,
        (executeKeeping c a work s kept).2.2) := by
  unfold executeKeeping
  cases enter c a with
  | error e => rfl
  | ok u =>
    dsimp only
    rw [h, settle_map]

theorem query_congr {q : Space → Except StorageError α} (h : q s' = q s) :
    query c q s' = query c q s := by
  unfold query execute
  cases enter c .read with
  | error e => rfl
  | ok u =>
    dsimp only
    unfold reading
    rw [h]
    cases q s with
    | error e => rfl
    | ok result =>
      simp only [settle, Except.map]
      cases c.fault with
      | some e => rfl
      | none => cases c.isDone .commit <;> rfl

end Transaction

/-! ## Requests -/

namespace Request

/-- The table whose entities a request is about. -/
def table? : Request → Option String
  | .createEntity table _ _ | .getEntity table _ _ | .updateEntity table _ _ _
  | .deleteEntity table _ | .listEntities table _ => some table
  | _ => none

/-- The identifier of the entity that a request is to create. -/
def mints? (c : Circumstances) : Request → Option EntityId
  | .createEntity _ _ _ => some ⟨c.fresh⟩
  | _ => none

end Request

namespace Space

open Transaction

/-- The space with the entities of some tables only, and with other migrations recorded. -/
def restrict (tables : String → Bool) (migrations : List Int64) (s : Space) : Space :=
  { s with entities := s.entities.filter (tables ·.tableName), migrations }

variable {tables : String → Bool} {migrations : List Int64} {s s' : Space} {c : Circumstances}
variable {d : SchemaDraft} {checked : SchemaDraft.Checked} {id : SchemaId} {version : Version}
variable {table : String} {entity : EntityId} {payload : Json} {author : Option String}
variable {v : Validator} {kept : ValidatorCache} {limits : PageLimits} {α : Type}

theorem restrict_all (s : Space) :
    s.restrict (fun _ => true) migrations = { s with migrations } := by
  simp [restrict]

/-! ## Categories and schema versions -/

theorem afterStep_restrict (s : Space) (step : CategoryStep) :
    (s.restrict tables migrations).afterStep step =
      (s.afterStep step).restrict tables migrations := by
  cases step with
  | upsert category name =>
    have hcategories : (s.restrict tables migrations).categories = s.categories := rfl
    rw [afterStep, afterStep, upsertCategory, upsertCategory, hcategories]
    cases s.categories.any (·.id == category) <;> rfl
  | delete _ | isLive _ | cancel | check | fail _ => rfl

theorem ofSteps_restrict (cancelled : Bool) (s : Space) (steps : List CategoryStep) :
    CategoryRun.ofSteps c cancelled (s.restrict tables migrations) steps =
      ⟨(CategoryRun.ofSteps c cancelled s steps).seen,
        (CategoryRun.ofSteps c cancelled s steps).outcome.map fun r =>
          (r.1.restrict tables migrations, r.2)⟩ := by
  induction steps generalizing cancelled s with
  | nil => rfl
  | cons step steps ih =>
    have hshows : step.shows (s.restrict tables migrations) = step.shows s := by
      cases step <;> rfl
    rw [CategoryRun.ofSteps_cons, CategoryRun.ofSteps_cons, afterStep_restrict, hshows, ih]
    cases step.failure? c cancelled <;> rfl

theorem categoryRun_restrict (steps : List CategoryStep) (s : Space) :
    CategoryRun.execute c steps (s.restrict tables migrations) =
      ((CategoryRun.execute c steps s).1, (CategoryRun.execute c steps s).2.1,
        (CategoryRun.execute c steps s).2.2.restrict tables migrations) := by
  unfold CategoryRun.execute
  cases enter c .write with
  | error e => rfl
  | ok u =>
    dsimp only
    rw [ofSteps_restrict]
    cases (CategoryRun.ofSteps c false s steps).outcome with
    | error e => rfl
    | ok p =>
      obtain ⟨after, cancelled⟩ := p
      have hsettle := settle_map (restrict tables migrations)
        (if cancelled then { c with doneFrom := some .entry } else c) (.ok ((), after)) s
      simp only [Except.map] at hsettle ⊢
      rw [hsettle]

theorem insertVersion_restrict (s : Space) (row : VersionRow) :
    (s.restrict tables migrations).insertVersion row =
      (s.insertVersion row).map (restrict tables migrations) := by
  have hversions : (s.restrict tables migrations).versions = s.versions := rfl
  unfold insertVersion
  rw [hversions]
  cases canStore row.version with
  | false => rfl
  | true =>
    cases checkLive s.versions row with
    | error e => rfl
    | ok u => cases s.versions.any (·.isVersion row.schemaId row.version) <;> rfl

theorem createVersion_restrict (s : Space) :
    createVersion c d checked (s.restrict tables migrations) =
      (createVersion c d checked s).map fun r => (r.1, r.2.restrict tables migrations) := by
  have hplan : planBy SchemaVersion.first? SchemaVersion.latest? c d checked
      (s.restrict tables migrations) =
        planBy SchemaVersion.first? SchemaVersion.latest? c d checked s := rfl
  rw [createVersion_eq]
  unfold createVersionBy
  rw [hplan]
  cases planBy SchemaVersion.first? SchemaVersion.latest? c d checked s with
  | error e => rfl
  | ok record =>
    have hstore : (s.restrict tables migrations).storePlanned record =
        (s.storePlanned record).map (restrict tables migrations) :=
      insertVersion_restrict (s.deactivate record.schemaId fun _ => true) _
    simp only [bind, Except.bind, hstore]
    cases s.storePlanned record <;> rfl

theorem markActive_restrict (s : Space) (id : SchemaId) (version : Version) :
    (s.restrict tables migrations).markActive id version =
      (s.markActive id version).map (restrict tables migrations) := by
  have hpure : ∀ (x : Except StorageError Unit) (after : Space),
      (x >>= fun _ => pure (after.restrict tables migrations)) =
        (x >>= fun _ => pure after).map (restrict tables migrations) := by
    intro x after
    cases x <;> rfl
  exact hpure _ { s with
    versions := s.versions.map fun v =>
      if v.isVersion id version then { v with active := true } else v }

theorem activateVersion_restrict (s : Space) :
    activateVersion c id version (s.restrict tables migrations) =
      (activateVersion c id version s).map fun r => (r.1, r.2.restrict tables migrations) := by
  have hfound : (s.restrict tables migrations).version? id version = s.version? id version := rfl
  have hmark :
      ((s.restrict tables migrations).deactivate id fun v => v.version != version).markActive id
          version =
        ((s.deactivate id fun v => v.version != version).markActive id version).map
          (restrict tables migrations) :=
    markActive_restrict (s.deactivate id fun v => v.version != version) id version
  unfold activateVersion
  rw [hfound]
  rcases s.version? id version with e | _ | record
  · rfl
  · rfl
  · simp only [bind, Except.bind, hmark]
    split
    · rfl
    · cases c.check .midway with
      | error e => rfl
      | ok u =>
        cases (s.deactivate id fun v => v.version != version).markActive id version <;> rfl

theorem deleteVersion_restrict (s : Space) :
    deleteVersion id version (s.restrict tables migrations) =
      (deleteVersion id version s).map fun r => (r.1, r.2.restrict tables migrations) := by
  have hversions : (s.restrict tables migrations).versions = s.versions := rfl
  unfold deleteVersion
  rw [hversions]
  dsimp only
  split <;> rfl

/-- The version that governs a table is seen whatever entities are. -/
theorem governingSchema_restrict (s : Space) (table : String) :
    (s.restrict tables migrations).governingSchema table = s.governingSchema table := rfl

/-! ## Entities -/

/-- What is seen of a space has all entities that satisfy a condition on seen tables. -/
theorem filter_restrict {q : EntityRow → Bool} (hq : ∀ e, q e → tables e.tableName) (s : Space) :
    (s.restrict tables migrations).entities.filter q = s.entities.filter q := by
  rw [restrict, List.filter_filter]
  refine List.filter_congr fun e _ => Bool.eq_iff_iff.2 ?_
  rw [Bool.and_eq_true]
  exact ⟨And.left, fun he => ⟨he, hq e he⟩⟩

theorem any_restrict {q : EntityRow → Bool}
    (hq : ∀ e ∈ s.entities, q e → tables e.tableName) :
    (s.restrict tables migrations).entities.any q = s.entities.any q := by
  rw [Bool.eq_iff_iff, List.any_eq_true, List.any_eq_true]
  constructor
  · rintro ⟨e, he, hqe⟩
    exact ⟨e, List.mem_of_mem_filter he, hqe⟩
  · rintro ⟨e, he, hqe⟩
    exact ⟨e, List.mem_filter.2 ⟨he, hq e he hqe⟩, hqe⟩

theorem insertEntity_restrict {row : EntityRow} (htable : tables row.tableName)
    (hfresh : ∀ e ∈ s.entities, e.id = row.id → tables e.tableName) :
    (s.restrict tables migrations).insertEntity row =
      (s.insertEntity row).map (restrict tables migrations) := by
  unfold insertEntity
  rw [any_restrict fun e he hid => hfresh e he (beq_iff_eq.1 hid)]
  split
  · rfl
  · simp [Except.map, restrict, htable]

theorem changeEntity_eq (s : Space) (table : String) (entity : EntityId)
    (f : EntityRow → EntityRow) :
    s.changeEntity table entity f =
      if s.entities.any (isLiveEntity table entity) then
        .ok { s with
          entities := s.entities.map fun e => if isLiveEntity table entity e then f e else e }
      else .error (.failed (noEntity table entity)) := rfl

theorem changeEntity_restrict (htable : tables table) {f : EntityRow → EntityRow}
    (hf : ∀ e, (f e).tableName = e.tableName) (s : Space) :
    (s.restrict tables migrations).changeEntity table entity f =
      (s.changeEntity table entity f).map (restrict tables migrations) := by
  have hseen : ∀ e ∈ s.entities, isLiveEntity table entity e → tables e.tableName := by
    intro e _ he
    simp only [isLiveEntity, Bool.and_eq_true, beq_iff_eq] at he
    rw [he.1.2, htable]
  rw [changeEntity_eq, changeEntity_eq, any_restrict hseen]
  split
  · simp only [Except.map, restrict, List.filter_map]
    -- A change leaves each entity in its table.
    have hkeeps : (fun e : EntityRow => tables e.tableName) ∘
        (fun e => if isLiveEntity table entity e then f e else e) = (tables ·.tableName) := by
      funext e
      simp only [Function.comp_apply]
      split
      · rw [hf]
      · rfl
    rw [hkeeps]
  · rfl

theorem entity?_restrict (htable : tables table) (s : Space) (entity : EntityId) :
    (s.restrict tables migrations).entity? table entity = s.entity? table entity := by
  unfold entity?
  rw [← List.head?_filter, filter_restrict, List.head?_filter]
  intro e he
  simp only [Bool.and_eq_true, beq_iff_eq] at he
  rw [he.2, htable]

theorem matchingEntities_restrict (htable : tables table) (s : Space) (includeDeleted : Bool) :
    (s.restrict tables migrations).matchingEntities table includeDeleted =
      s.matchingEntities table includeDeleted := by
  refine filter_restrict (fun e he => ?_) s
  simp only [Bool.and_eq_true, beq_iff_eq] at he
  rw [he.1, htable]

theorem createWork_restrict (htable : tables table)
    (hfresh : ∀ e ∈ s.entities, e.id = ⟨c.fresh⟩ → tables e.tableName) :
    createWork c table payload author v (s.restrict tables migrations) =
      (createWork c table payload author v s).map fun r =>
        (r.1, r.2.restrict tables migrations) := by
  unfold createWork
  cases validated v payload with
  | error e => rfl
  | ok p =>
    cases c.check .midway with
    | error e => rfl
    | ok u =>
      have hinsert : (s.restrict tables migrations).insertEntity
          ((newEntity c table p author).withPayload p.value.print) =
            (s.insertEntity ((newEntity c table p author).withPayload p.value.print)).map
              (restrict tables migrations) := insertEntity_restrict htable hfresh
      simp only [bind, Except.bind, hinsert]
      cases s.insertEntity ((newEntity c table p author).withPayload p.value.print) <;> rfl

theorem updateWork_restrict (htable : tables table) (s : Space) :
    updateWork c table entity payload author v (s.restrict tables migrations) =
      (updateWork c table entity payload author v s).map fun r =>
        (r.1, r.2.restrict tables migrations) := by
  unfold updateWork
  cases validated v payload with
  | error e => rfl
  | ok p =>
    cases c.check .midway with
    | error e => rfl
    | ok u =>
      simp only [bind, Except.bind]
      rw [changeEntity_restrict htable]
      · generalize s.changeEntity table entity _ = changed
        cases changed with
        | error e => rfl
        | ok after =>
          simp only [Except.map, entity?_restrict htable]
          rcases after.entity? table entity with e | _ | record <;> rfl
      · exact fun _ => rfl

theorem deleteWork_restrict (htable : tables table) (s : Space) :
    deleteWork c table entity (s.restrict tables migrations) =
      (deleteWork c table entity s).map fun r => (r.1, r.2.restrict tables migrations) := by
  unfold deleteWork
  rw [governingSchema_restrict]
  cases s.governingSchema table with
  | error e => rfl
  | ok r =>
    simp only [bind, Except.bind]
    rw [changeEntity_restrict htable]
    · generalize s.changeEntity table entity _ = changed
      cases changed <;> rfl
    · exact fun _ => rfl

theorem listWork_restrict (htable : tables table) {o : ListOptions} (s : Space) :
    listWork limits table o v (s.restrict tables migrations) =
      (listWork limits table o v s).map fun r => (r.1, r.2.restrict tables migrations) := by
  unfold listWork
  cases (o.resolve limits v.schema.propertyNames).mapError StorageError.failed with
  | error e => rfl
  | ok l =>
    have hpage : (s.restrict tables migrations).pageOf table l = s.pageOf table l := by
      unfold pageOf
      rw [matchingEntities_restrict htable]
    simp only [bind, Except.bind, hpage]
    cases s.pageOf table l <;> rfl

theorem fetch_restrict (htable : tables table) (s : Space) (entity : EntityId) :
    fetch table entity (s.restrict tables migrations) = fetch table entity s := by
  unfold fetch
  rw [governingSchema_restrict, entity?_restrict htable]

theorem withValidator_restrict {rest : Validator → Work α}
    (hrest : ∀ v, rest v (s.restrict tables migrations) =
      (rest v s).map fun r => (r.1, r.2.restrict tables migrations)) (kept : ValidatorCache) :
    withValidator table rest (s.restrict tables migrations) kept =
      ((withValidator table rest s kept).1.map fun r => (r.1, r.2.restrict tables migrations),
        (withValidator table rest s kept).2) := by
  unfold withValidator
  rw [governingSchema_restrict]
  cases s.governingSchema table with
  | error e => rfl
  | ok r =>
    dsimp only
    rcases kept.obtain r with ⟨e | v, kept'⟩
    · rfl
    · simp only [hrest]

/-! ## Answers -/

/-- **What a request sees of a space decides its answer.** A request about no entity, or about those
of a table that is left, is answered the same in what is left of the space, keeps the same, and
leaves the same behind as far as it is left. -/
theorem answer_restrict {r : Request} (htable : ∀ t, r.table? = some t → tables t)
    (hfresh : ∀ e ∈ s.entities, r.mints? c = some e.id → tables e.tableName)
    (hmigrations : r = .appliedMigration → migrations = s.migrations) :
    (s.restrict tables migrations).answer c limits r kept =
      ((s.answer c limits r kept).1, (s.answer c limits r kept).2.1.restrict tables migrations,
        (s.answer c limits r kept).2.2) := by
  have hquery : ∀ {β : Type} (q : Space → Except StorageError β),
      q (s.restrict tables migrations) = q s →
        query c q (s.restrict tables migrations) = query c q s := fun _ => query_congr
  cases r with
  | createSchema d =>
    simp only [answer, createSchema]
    cases d.check with
    | error e => rfl
    | ok checked => simp only [execute_map (createVersion_restrict s)]
  | activateSchema id version =>
    simp only [answer, activateSchema, execute_map (activateVersion_restrict s)]
  | deleteSchema id version =>
    simp only [answer, deleteSchema, execute_map (deleteVersion_restrict s)]
  | createEntity table payload author =>
    have hwork : ∀ v, createWork c table payload author v (s.restrict tables migrations) = _ :=
      fun v => createWork_restrict (htable table rfl) fun e he hid =>
        hfresh e he (congrArg some hid.symm)
    simp only [answer, createEntity, executeKeeping_map (withValidator_restrict hwork kept)]
  | updateEntity table entity payload author =>
    have hwork : ∀ v,
        updateWork c table entity payload author v (s.restrict tables migrations) = _ :=
      fun v => updateWork_restrict (htable table rfl) s
    simp only [answer, updateEntity, executeKeeping_map (withValidator_restrict hwork kept)]
  | deleteEntity table entity =>
    simp only [answer, deleteEntity, execute_map (deleteWork_restrict (htable table rfl) s)]
  | listEntities table o =>
    have hwork : ∀ v, listWork limits table o v (s.restrict tables migrations) = _ :=
      fun v => listWork_restrict (htable table rfl) s
    simp only [answer, listEntities, executeKeeping_map (withValidator_restrict hwork kept)]
  | getEntity table entity includeDeleted =>
    simp only [answer, getEntity, hquery _ (fetch_restrict (htable table rfl) s entity)]
  | changeCategories steps => simp only [answer, categoryRun_restrict]
  | listVersions id includeDeleted =>
    simp only [answer, listVersions, hquery (·.versionsOf id) rfl]
  | listSchemas includeInactive =>
    simp only [answer, listSchemas, hquery (·.allVersions includeInactive) rfl]
  | getSchema id version => simp only [answer, getSchema, hquery (·.version? id version) rfl]
  | getActive id => simp only [answer, getActive, hquery (·.activeForSchema? id) rfl]
  | getActiveForTable table =>
    simp only [answer, getActiveForTable, hquery (·.activeForTable? table) rfl]
  | findSchema id version => simp only [answer, hquery (·.version? id version) rfl]
  | categoryIsLive category =>
    simp only [answer, hquery (fun s => .ok (s.categoryIsLive category)) rfl]
  | appliedMigration =>
    obtain rfl := hmigrations rfl
    simp only [answer, hquery (fun s => .ok s.appliedMigration) rfl]

/-- No request records migrations. -/
theorem answer_migrations (c : Circumstances) (limits : PageLimits) (r : Request) (s : Space)
    (kept : ValidatorCache) : (s.answer c limits r kept).2.1.migrations = s.migrations := by
  have hall : s.restrict (fun _ => true) s.migrations = s := restrict_all s
  have hsame : (s.restrict (fun _ => true) s.migrations).answer c limits r kept = _ :=
    answer_restrict (fun _ _ => rfl) (fun _ _ _ => rfl) fun _ => rfl
  rw [hall] at hsame
  rw [hsame]
  rfl

/-- What a request sees of a space decides its answer, whatever is kept in the one space and in the
other. -/
theorem answer_eq_of_restrict {kept' : ValidatorCache} {r : Request}
    (hrows : Consistent s.versions) (hkept : ∀ w ∈ kept, ∃ row ∈ s.versions, Backs row w)
    (hkept' : ∀ w ∈ kept', ∃ row ∈ s.versions, Backs row w)
    (htable : ∀ t, r.table? = some t → tables t)
    (hfresh : ∀ e ∈ s.entities, r.mints? c = some e.id → tables e.tableName)
    (hmigrations : r = .appliedMigration → migrations = s.migrations) :
    ((s.restrict tables migrations).answer c limits r kept').1 = (s.answer c limits r kept).1 ∧
      ((s.restrict tables migrations).answer c limits r kept').2.1 =
        (s.answer c limits r kept).2.1.restrict tables migrations := by
  obtain ⟨hanswer, hspace⟩ := answer_eq hrows hkept c limits r
  obtain ⟨hanswer', hspace'⟩ :=
    answer_eq (s := s.restrict tables migrations) hrows hkept' c limits r
  have hnone : (s.restrict tables migrations).answer c limits r [] = _ :=
    answer_restrict htable hfresh hmigrations
  rw [hanswer', hspace', hnone, hanswer, hspace]
  exact ⟨rfl, rfl⟩

/-- **What is done to the entities of another table cannot be seen.** -/
theorem Move.restrict_eq {r : Request} {a : Answer} (h : Move c s kept r a s')
    (htable : r.table? = some table) (hunseen : tables table = false) :
    s'.restrict tables migrations = s.restrict tables migrations := by
  have hchange : ∀ (entity : EntityId) (f : EntityRow → EntityRow),
      (∀ e, (f e).tableName = e.tableName) → s.changeEntity table entity f = .ok s' →
        s'.restrict tables migrations = s.restrict tables migrations := by
    intro entity f hf hs
    obtain ⟨-, rfl⟩ := changeEntity_eq_ok_iff.1 hs
    have hentities : (s.entities.map fun e =>
        if isLiveEntity table entity e then f e else e).filter (tables ·.tableName) =
          s.entities.filter (tables ·.tableName) := by
      induction s.entities with
      | nil => rfl
      | cons e es ih =>
        rw [List.map_cons, List.filter_cons, List.filter_cons, ih]
        split
        · rename_i hlive
          simp only [isLiveEntity, Bool.and_eq_true, beq_iff_eq] at hlive
          rw [hf, hlive.1.2, hunseen]
          rfl
        · rfl
    exact congrArg (fun entities => { s with entities, migrations }) hentities
  cases h with
  | rest h => rfl
  | createSchema | activateSchema | deleteSchema | changeCategories => cases htable
  | createEntity hv h =>
    obtain rfl := Option.some.inj htable
    obtain ⟨-, -, -, hinsert⟩ := createWork_eq_ok_iff.1 h
    obtain ⟨-, rfl⟩ := insertEntity_eq_ok_iff.1 hinsert
    simp [restrict, newEntityRow, newEntity, Entity.withPayload, hunseen]
  | updateEntity hv h =>
    obtain rfl := Option.some.inj htable
    obtain ⟨-, -, h, -⟩ := updateWork_eq_ok_iff.1 h
    refine hchange _ _ ?_ h
    exact fun _ => rfl
  | deleteEntity h =>
    obtain rfl := Option.some.inj htable
    obtain ⟨-, h⟩ := deleteWork_eq_ok_iff.1 h
    refine hchange _ _ ?_ h
    exact fun _ => rfl

end Space

end SchemaVault
