import SchemaVault.Proofs.Vault.Frame
import SchemaVault.Proofs.Vault.Soundness

/-!
# Tables without an active schema

An operation on the entities of a table is refused for want of an active schema exactly if the
question for the schema of the table is (`answer_eq_noActiveSchema_iff`). Both look for the live
version of the table: `governingSchema_eq_error_iff` and `getActiveForTable_eq_error_iff`. The rest
is to show that nothing else is worded like this refusal. A later failure of a unit of work is not,
and neither is a failure of the storage, which is never worded as something that is not found.
-/

namespace SchemaVault

/-- A failure that the storage has no wording for is told only if the work itself has failed so. -/
theorem StorageError.toFailure_eq_iff {e : StorageError} {operation : String} {f : Failure}
    (hcancelled : f ≠ .cancelled) (hconflict : ∀ what, f ≠ .conflict what)
    (hinternal : ∀ what, f ≠ .internal what) : e.toFailure operation = f ↔ e = .failed f := by
  constructor
  · intro h
    unfold toFailure at h
    split at h
    · rw [h]
    · exact absurd h.symm hcancelled
    · split at h
      · exact absurd h.symm (hconflict _)
      · exact absurd h.symm (hinternal _)
  · rintro rfl
    rfl

/-- No failure of the storage is worded as something that is not found. -/
theorem StorageError.toFailure_eq_notFound_iff {e : StorageError} {operation what : String} :
    e.toFailure operation = .notFound what ↔ e = .failed (.notFound what) :=
  toFailure_eq_iff nofun nofun nofun

theorem Answer.ofResult_eq_failure_iff {α : Type} {answer : α → Answer} {x : Except Failure α}
    {f : Failure} (hanswer : ∀ a, answer a ≠ .failure f) :
    ofResult answer x = .failure f ↔ x = .error f := by
  cases x with
  | error e => simp [ofResult]
  | ok a => simp [ofResult, hanswer]

open Transaction

namespace Space

variable {s : Space} {c : Circumstances} {kept : ValidatorCache} {table : String}
variable {entity : EntityId} {payload : Json} {author : Option String} {v : Validator} {α : Type}

/-! ## The two questions -/

theorem governingSchema_eq_error_iff :
    s.governingSchema table = .error (.failed (noActiveSchema table)) ↔
      s.activeForTable? table = .ok none := by
  unfold governingSchema
  cases hfound : s.activeForTable? table with
  | error e =>
    obtain rfl := findVersion?_eq_error hfound
    simp [bind, Except.bind]
  | ok found =>
    cases found with
    | none => exact iff_of_true rfl rfl
    | some r => refine iff_of_false ?_ ?_ <;> exact fun h => by cases h

/-- The question for the active schema of a table, if nobody disturbs it. -/
theorem getActiveForTable_eq_error_iff (hc : c.Undisturbed) :
    s.getActiveForTable c table = .error (noActiveSchema table) ↔
      s.activeForTable? table = .ok none := by
  unfold getActiveForTable
  rw [query_of_undisturbed hc]
  cases hfound : s.activeForTable? table with
  | error e =>
    obtain rfl := findVersion?_eq_error hfound
    simp [bind, Except.bind, Except.mapError, StorageError.toFailure, StorageError.constraint?,
      noActiveSchema]
  | ok found =>
    cases found with
    | none => exact iff_of_true rfl rfl
    | some r => refine iff_of_false ?_ ?_ <;> exact fun h => by cases h

/-! ## Later failures -/

/-- The two things that are not found are told apart by the first letters of their names. -/
theorem noEntity_ne_noActiveSchema : noEntity table entity ≠ noActiveSchema table := by
  intro h
  have hfirst := congrArg (fun text => text.toList.head?) (Failure.notFound.inj h)
  simp only [String.toList_append] at hfirst
  cases hfirst

theorem changeEntity_ne_noActiveSchema {f : EntityRow → EntityRow} :
    s.changeEntity table entity f ≠ .error (.failed (noActiveSchema table)) := by
  intro h
  exact noEntity_ne_noActiveSchema (StorageError.failed.inj (changeEntity_eq_error h)).symm

theorem validated_ne_noActiveSchema :
    validated v payload ≠ .error (.failed (noActiveSchema table)) := by
  intro h
  obtain ⟨errors, h⟩ := validated_eq_error h
  cases h

theorem entity?_eq_error {e : StorageError} (h : s.entity? table entity = .error e) :
    e = .unconvertible := by
  unfold entity? at h
  cases hfind : s.entities.find? fun e => e.id == entity && e.tableName == table with
  | none =>
    rw [hfind] at h
    cases h
  | some row =>
    rw [hfind, Option.mapM_some] at h
    cases hread : EntityRow.read row with
    | error e' =>
      rw [hread] at h
      obtain rfl := Except.error.inj h
      exact EntityRow.read_eq_error hread
    | ok r =>
      rw [hread] at h
      cases h

theorem pageOf_eq_error {l : Listing} {e : StorageError} (h : s.pageOf table l = .error e) :
    e = .failed Listing.overflow ∨ e = .malformedDocument ∨ e = .unconvertible := by
  rcases bind_eq_error.1 h with h | ⟨offset, -, h⟩
  · obtain ⟨f, hf, rfl⟩ := mapError_eq_error.1 h
    exact .inl (congrArg _ (Listing.offset_eq_error hf))
  rcases bind_eq_error.1 h with h | ⟨sorted, -, h⟩
  · exact .inr (.inl (SortKey.sorted_eq_error h))
  · rcases bind_eq_error.1 h with h | ⟨records, -, h⟩
    · obtain ⟨row, -, h⟩ := mapM_eq_error h
      exact .inr (.inr (EntityRow.read_eq_error h))
    · cases h

theorem createWork_ne_noActiveSchema :
    createWork c table payload author v s ≠ .error (.failed (noActiveSchema table)) := by
  intro h
  rcases createWork_eq_error h with ⟨errors, h⟩ | h | h <;> cases h

theorem updateWork_ne_noActiveSchema :
    updateWork c table entity payload author v s ≠ .error (.failed (noActiveSchema table)) := by
  intro h
  rcases bind_eq_error.1 h with h | ⟨p, -, h⟩
  · exact validated_ne_noActiveSchema h
  rcases bind_eq_error.1 h with h | ⟨_, -, h⟩
  · cases check_eq_error h
  rcases bind_eq_error.1 h with h | ⟨s', -, h⟩
  · exact changeEntity_ne_noActiveSchema h
  rcases bind_eq_error.1 h with h | ⟨found, -, h⟩
  · cases entity?_eq_error h
  · cases found <;> cases h

theorem listWork_ne_noActiveSchema {limits : PageLimits} {o : ListOptions} :
    listWork limits table o v s ≠ .error (.failed (noActiveSchema table)) := by
  intro h
  rcases bind_eq_error.1 h with h | ⟨l, -, h⟩
  · obtain ⟨f, hf, h⟩ := mapError_eq_error.1 h
    obtain ⟨errors, rfl⟩ := resolve_eq_error hf
    cases h
  rcases bind_eq_error.1 h with h | ⟨page, -, h⟩
  · rcases pageOf_eq_error h with h | h | h <;> cases h
  · cases h

/-! ## Units of work -/

theorem deleteWork_eq_error_iff :
    deleteWork c table entity s = .error (.failed (noActiveSchema table)) ↔
      s.activeForTable? table = .ok none := by
  rw [← governingSchema_eq_error_iff, deleteWork, bind_eq_error]
  refine or_iff_left ?_
  rintro ⟨r, -, h⟩
  rcases bind_eq_error.1 h with h | ⟨s', -, h⟩
  · exact changeEntity_ne_noActiveSchema h
  · cases h

theorem fetch_eq_error_iff :
    fetch table entity s = .error (.failed (noActiveSchema table)) ↔
      s.activeForTable? table = .ok none := by
  rw [← governingSchema_eq_error_iff, fetch, bind_eq_error]
  refine or_iff_left ?_
  rintro ⟨r, -, h⟩
  cases entity?_eq_error h

theorem obtain_eq_error {r : SchemaRecord} {e : StorageError}
    (h : (kept.obtain r).1 = .error e) : ∃ text, e = .invalidData text := by
  unfold ValidatorCache.obtain at h
  cases hfind : kept.find? r.schemaId r.version with
  | some v =>
    rw [hfind] at h
    cases h
  | none =>
    rw [hfind] at h
    cases hcompiled : ValidatorCache.compiled r with
    | error e' =>
      rw [hcompiled] at h
      obtain rfl := Except.error.inj h
      exact compiled_eq_error hcompiled
    | ok v =>
      rw [hcompiled] at h
      cases h

/-- A unit of work that needs a validator looks for the active schema first, and no definition that
does not compile is taken for a missing one. -/
theorem withValidator_eq_error_iff {rest : Validator → Space → Except StorageError (α × Space)}
    (hrest : ∀ v, rest v s ≠ .error (.failed (noActiveSchema table))) :
    (withValidator table rest s kept).1 = .error (.failed (noActiveSchema table)) ↔
      s.activeForTable? table = .ok none := by
  rw [← governingSchema_eq_error_iff]
  unfold withValidator
  cases hgoverning : s.governingSchema table with
  | error e => simp
  | ok r =>
    refine iff_of_false (fun h => ?_) nofun
    rcases hobtain : kept.obtain r with ⟨e | v, kept'⟩
    · simp only [hobtain] at h
      obtain ⟨text, rfl⟩ := obtain_eq_error (congrArg Prod.fst hobtain)
      cases h
    · simp only [hobtain] at h
      exact hrest v h

/-! ## Operations -/

/-- What is told of an undisturbed operation whose work looks for the active schema. -/
theorem told_iff (hc : c.Undisturbed) {a : Access} (ha : a = .read ∨ c.locked = false)
    {work : Work α} {wording : StorageError → Failure}
    (hwording : ∀ e, wording e = noActiveSchema table ↔ e = .failed (noActiveSchema table)) :
    (execute c a work s).1.mapError wording = .error (noActiveSchema table) ↔
      work s = .error (.failed (noActiveSchema table)) := by
  rw [execute_of_undisturbed hc ha, mapError_eq_error]
  cases work s with
  | error e => simp [Except.map, hwording]
  | ok r => simp [Except.map]

/-- The same for an operation that keeps what it compiles. -/
theorem told_keeping_iff (hc : c.Undisturbed) {a : Access} (ha : a = .read ∨ c.locked = false)
    {rest : Validator → Work α} {wording : StorageError → Failure}
    (hwording : ∀ e, wording e = noActiveSchema table ↔ e = .failed (noActiveSchema table))
    (hrest : ∀ v, rest v s ≠ .error (.failed (noActiveSchema table))) :
    (executeKeeping c a (withValidator table rest) s kept).1.mapError wording =
        .error (noActiveSchema table) ↔
      s.activeForTable? table = .ok none := by
  rw [answer_executeKeeping, told_iff hc ha hwording, withValidator_eq_error_iff hrest]

theorem getEntity_eq_error_iff (hc : c.Undisturbed) {includeDeleted : Bool} :
    s.getEntity c table entity includeDeleted = .error (noActiveSchema table) ↔
      s.activeForTable? table = .ok none := by
  have hfetch : fetch table entity s = .error (.failed (noActiveSchema table)) ↔
      s.activeForTable? table = .ok none := fetch_eq_error_iff
  unfold getEntity
  rw [query_of_undisturbed hc, bind_eq_error, mapError_eq_error, ← hfetch]
  constructor
  · rintro (⟨e, he, htold⟩ | ⟨found, -, h⟩)
    · rw [he, StorageError.toFailure_eq_notFound_iff.1 htold, noActiveSchema]
    · split at h
      · cases h
      · exact absurd (Except.error.inj h) noEntity_ne_noActiveSchema
  · exact fun h => .inl ⟨_, h, rfl⟩

/-- **An operation on the entities of a table is refused for want of an active schema exactly if
the question for that schema is**, as long as nobody disturbs the two. -/
theorem answer_eq_noActiveSchema_iff {c' : Circumstances} (hc : c.Undisturbed)
    (hc' : c'.Undisturbed) {limits : PageLimits} {r : Request} (htable : r.table? = some table)
    (hlocked : r.changesEntity = true → c.locked = false) :
    (s.answer c limits r kept).1 = .failure (noActiveSchema table) ↔
      s.getActiveForTable c' table = .error (noActiveSchema table) := by
  rw [getActiveForTable_eq_error_iff hc']
  have hwording : ∀ (operation : String) (e : StorageError),
      e.toFailure operation = noActiveSchema table ↔ e = .failed (noActiveSchema table) :=
    fun _ _ => StorageError.toFailure_eq_notFound_iff
  cases r with
  | createEntity t payload author =>
    obtain rfl := Option.some.inj htable
    refine (Answer.ofResult_eq_failure_iff fun _ => Answer.noConfusion).trans ?_
    refine told_keeping_iff hc (.inr (hlocked rfl)) (fun e => ?_)
      fun v => createWork_ne_noActiveSchema
    constructor
    · intro h
      split at h
      · cases h
      · exact (hwording _ e).1 h
    · rintro rfl
      rfl
  | updateEntity t id payload author =>
    obtain rfl := Option.some.inj htable
    refine (Answer.ofResult_eq_failure_iff fun _ => Answer.noConfusion).trans ?_
    exact told_keeping_iff hc (.inr (hlocked rfl)) (hwording _)
      fun v => updateWork_ne_noActiveSchema
  | listEntities t o =>
    obtain rfl := Option.some.inj htable
    refine (Answer.ofResult_eq_failure_iff fun _ => Answer.noConfusion).trans ?_
    exact told_keeping_iff hc (.inl rfl) (hwording _) fun v => listWork_ne_noActiveSchema
  | getEntity t id includeDeleted =>
    obtain rfl := Option.some.inj htable
    refine (Answer.ofResult_eq_failure_iff fun _ => Answer.noConfusion).trans ?_
    exact getEntity_eq_error_iff hc
  | deleteEntity t id =>
    obtain rfl := Option.some.inj htable
    refine (Answer.ofResult_eq_failure_iff fun _ => Answer.noConfusion).trans ?_
    exact (told_iff hc (.inr (hlocked rfl)) (hwording _)).trans deleteWork_eq_error_iff
  | _ => cases htable

end Space

end SchemaVault
