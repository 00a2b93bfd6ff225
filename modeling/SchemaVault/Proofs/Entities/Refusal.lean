import SchemaVault.Proofs.Entities.Ungoverned
import Mathlib.Data.List.Perm.Basic

/-!
# The refusal of a payload

A payload is refused for what its validator reports, and what is told of the report loses nothing
of it (`failures_grouped`): the issues are grouped by place (`FieldErrors.Groups`), and whoever
stores a payload is told so exactly if there is an issue at all. All else that can go wrong is told
in another way. It is refused before the validator is asked, or fails after the payload has passed.
-/

namespace SchemaVault

/-! ## Issues by place -/

namespace FieldErrors

variable {errors : FieldErrors} {issues : List Issue}

/-- The issues place by place, in the order of the failing fields. -/
def arrange (errors : FieldErrors) (issues : List Issue) : List Issue :=
  errors.fields.flatMap fun path => issues.filter (·.path = path)

/-- Whether messages by field are issues by place: nothing is left out, nothing is added, and the
places are in ascending order while the messages of a place are in the order of the report. -/
structure Groups (errors : FieldErrors) (issues : List Issue) : Prop where
  ascending : errors.fields.Pairwise (· < ·)
  mem_fields : ∀ path, path ∈ errors.fields ↔ ∃ i ∈ issues, i.path = path
  messages : ∀ path, errors.messages path = (issues.filter (·.path = path)).map (·.message)
  arrange_perm : (errors.arrange issues).Perm issues
  isEmpty_iff : errors.isEmpty = true ↔ issues = []
  text : errors.text = "; ".intercalate ((errors.arrange issues).map Issue.text)

/-- The messages of all fields are those of the issues. -/
theorem Groups.messages_perm (h : errors.Groups issues) :
    (errors.fields.flatMap errors.messages).Perm (issues.map (·.message)) := by
  have heq : errors.fields.flatMap errors.messages =
      (errors.arrange issues).map (·.message) := by
    rw [arrange, List.map_flatMap]
    exact List.flatMap_congr fun path _ => h.messages path
  rw [heq]
  exact h.arrange_perm.map _

theorem messages_ofIssues (issues : List Issue) (path : String) :
    (ofIssues issues).messages path = (issues.filter (·.path = path)).map (·.message) := by
  rw [ofIssues, messages_ofPairs, List.filter_map, List.map_map]
  rfl

/-- What is told place by place are the issues place by place. -/
theorem toPairs_ofIssues (issues : List Issue) :
    (ofIssues issues).toPairs =
      ((ofIssues issues).arrange issues).map fun i => (i.path, i.message) := by
  have hascending : (ofIssues issues).Ascending := ascending_ofPairs _
  rw [hascending.toPairs_eq, arrange, List.map_flatMap]
  refine List.flatMap_congr fun path _ => ?_
  rw [messages_ofIssues, List.map_map]
  refine List.map_congr_left fun i hi => ?_
  rw [← of_decide_eq_true (List.mem_filter.1 hi).2]
  rfl

/-- **Grouping loses no issue.** -/
theorem groups_ofIssues (issues : List Issue) : (ofIssues issues).Groups issues where
  ascending := ascending_ofPairs _
  mem_fields path := by
    rw [ofIssues, mem_fields_ofPairs]
    simp
  messages := messages_ofIssues issues
  arrange_perm := by
    have hinjective : Function.Injective fun i : Issue => (i.path, i.message) := by
      rintro ⟨path, message⟩ ⟨path', message'⟩ h
      obtain ⟨rfl, rfl⟩ := Prod.mk.inj h
      rfl
    have hperm : (ofIssues issues).toPairs.Perm (issues.map fun i => (i.path, i.message)) :=
      toPairs_ofPairs_perm _
    rw [toPairs_ofIssues] at hperm
    exact (List.map_perm_map_iff hinjective).1 hperm
  isEmpty_iff := by
    rw [ofIssues, ofPairs_isEmpty]
    simp
  text := by
    rw [text, toPairs_ofIssues, List.map_map]
    rfl

end FieldErrors

/-- No failure of the storage is worded as an invalid field. -/
theorem StorageError.toFailure_eq_validation_iff {e : StorageError} {operation : String}
    {errors : FieldErrors} :
    e.toFailure operation = .validation errors ↔ e = .failed (.validation errors) :=
  toFailure_eq_iff nofun nofun nofun

open Transaction

namespace Space

variable {s : Space} {c : Circumstances} {kept : ValidatorCache} {table : String}
variable {id : EntityId} {payload : Json} {author : Option String} {v w : Validator} {α : Type}
variable {errors : FieldErrors} {e : StorageError}

/-! ## Units of work -/

theorem validated_eq_error_iff :
    validated v payload = .error e ↔
      v.schema.issues payload ≠ [] ∧
        e = .failed (.validation (.ofIssues (v.schema.issues payload))) := by
  unfold validated Validator.validate
  cases v.schema.issues payload with
  | nil => simp [Except.mapError]
  | cons i is => simp [Except.mapError, eq_comm]

/-- An entity whose payload has passed is stored, or it is refused for another reason. -/
theorem createWork_eq_invalid_iff :
    createWork c table payload author v s = .error (.failed (.validation errors)) ↔
      validated v payload = .error (.failed (.validation errors)) := by
  rw [createWork, bind_eq_error]
  refine or_iff_left ?_
  rintro ⟨p, -, h⟩
  rcases bind_eq_error.1 h with h | ⟨_, -, h⟩
  · cases check_eq_error h
  rcases bind_eq_error.1 h with h | ⟨_, -, h⟩
  · cases (taken_of_insertEntity h).1
  · cases h

theorem updateWork_eq_invalid_iff :
    updateWork c table id payload author v s = .error (.failed (.validation errors)) ↔
      validated v payload = .error (.failed (.validation errors)) := by
  rw [updateWork, bind_eq_error]
  refine or_iff_left ?_
  rintro ⟨p, -, h⟩
  rcases bind_eq_error.1 h with h | ⟨_, -, h⟩
  · cases check_eq_error h
  rcases bind_eq_error.1 h with h | ⟨s', -, h⟩
  · cases changeEntity_eq_error h
  rcases bind_eq_error.1 h with h | ⟨found, -, h⟩
  · cases entity?_eq_error h
  · cases found <;> cases h

theorem governingSchema_ne_invalid :
    s.governingSchema table ≠ .error (.failed (.validation errors)) := by
  intro h
  rcases bind_eq_error.1 h with h | ⟨found, -, h⟩
  · cases findVersion?_eq_error h
  · cases found <;> cases h

theorem withValidator_eq_invalid_iff {rest : Validator → Space → Except StorageError (α × Space)} :
    (withValidator table rest s kept).1 = .error (.failed (.validation errors)) ↔
      ∃ v, s.Guards kept table v ∧ rest v s = .error (.failed (.validation errors)) := by
  unfold withValidator Guards
  cases hgoverning : s.governingSchema table with
  | error e =>
    refine iff_of_false ?_ ?_
    · rintro h
      obtain rfl := Except.error.inj h
      exact governingSchema_ne_invalid hgoverning
    · rintro ⟨v, ⟨r, hr, -⟩, -⟩
      cases hr
  | ok r =>
    rcases hobtain : kept.obtain r with ⟨e | v, kept'⟩
    · obtain ⟨text, rfl⟩ := obtain_eq_error (congrArg Prod.fst hobtain)
      simp [hobtain]
    · simp [hobtain]

/-! ## Operations -/

/-- Only one validator guards a table. -/
theorem Guards.unique (hv : s.Guards kept table v) (hw : s.Guards kept table w) : v = w := by
  obtain ⟨r, hr, hv⟩ := hv
  obtain ⟨r', hr', hw⟩ := hw
  obtain rfl := Except.ok.inj (hr.symm.trans hr')
  exact Except.ok.inj (hv.symm.trans hw)

/-- Whether a payload comes before the validator of its table, and what is reported there are
these errors. -/
def Refuses (s : Space) (c : Circumstances) (kept : ValidatorCache) (table : String)
    (payload : Json) (errors : FieldErrors) : Prop :=
  enter c .write = .ok () ∧ ∃ v, s.Guards kept table v ∧ v.schema.issues payload ≠ [] ∧
    errors = .ofIssues (v.schema.issues payload)

/-- A payload that comes before a validator is refused exactly if there is an issue. -/
theorem refuses_iff (henter : enter c .write = .ok ()) (hv : s.Guards kept table v) :
    s.Refuses c kept table payload errors ↔
      v.schema.issues payload ≠ [] ∧ errors = .ofIssues (v.schema.issues payload) := by
  constructor
  · rintro ⟨-, w, hw, h⟩
    rwa [hv.unique hw]
  · exact fun h => ⟨henter, v, hv, h⟩

/-- An operation that obtains a validator, validates and then does what cannot fail for an invalid
field tells of invalid fields exactly if the payload is refused. -/
theorem told_invalid_iff {rest : Validator → Work α} {wording : StorageError → Failure}
    (hwording : ∀ e, wording e = .validation errors ↔ e = .failed (.validation errors))
    (hrest : ∀ v, rest v s = .error (.failed (.validation errors)) ↔
      validated v payload = .error (.failed (.validation errors)))
    (hfault : ∀ f, c.fault ≠ some (.failed f)) :
    (executeKeeping c .write (withValidator table rest) s kept).1.mapError wording =
        .error (.validation errors) ↔
      s.Refuses c kept table payload errors := by
  have hrun : (execute c .write (fun s => (withValidator table rest s kept).1) s).1 =
        .error (.failed (.validation errors)) ↔
      enter c .write = .ok () ∧
        (withValidator table rest s kept).1 = .error (.failed (.validation errors)) :=
    execute_eq_error_iff nofun nofun (hfault _)
  rw [answer_executeKeeping, mapError_eq_error]
  simp only [hwording, exists_eq_right]
  rw [hrun, withValidator_eq_invalid_iff]
  simp only [hrest, validated_eq_error_iff, StorageError.failed.injEq, Failure.validation.injEq]
  rfl

theorem createEntity_eq_invalid_iff (hfault : ∀ f, c.fault ≠ some (.failed f)) :
    (s.createEntity c table payload author kept).1 = .error (.validation errors) ↔
      s.Refuses c kept table payload errors := by
  refine told_invalid_iff (fun e => ?_) (fun v => createWork_eq_invalid_iff) hfault
  constructor
  · intro h
    split at h
    · cases h
    · exact StorageError.toFailure_eq_validation_iff.1 h
  · rintro rfl
    rfl

theorem updateEntity_eq_invalid_iff (hfault : ∀ f, c.fault ≠ some (.failed f)) :
    (s.updateEntity c table id payload author kept).1 = .error (.validation errors) ↔
      s.Refuses c kept table payload errors :=
  told_invalid_iff (fun _ => StorageError.toFailure_eq_validation_iff)
    (fun _ => updateWork_eq_invalid_iff) hfault

end Space

/-- **Grouping the issues of a payload loses none of them.** The fields are the places of the
issues, in ascending order, and the messages of a field are those of its issues, in the order of
the report. Whoever creates or updates an entity is told of invalid fields exactly if the validator
of the table reports an issue, and then of all issues, as long as the storage does not take the
part of the work. -/
theorem failures_grouped :
    (∀ issues : List Issue, let errors := FieldErrors.ofIssues issues
      errors.Groups issues ∧
        (errors.fields.flatMap errors.messages).Perm (issues.map (·.message))) ∧
    ∀ (s : Space) (c : Circumstances) (kept : ValidatorCache) (table : String) (payload : Json)
      (author : Option String) (id : EntityId), (∀ f, c.fault ≠ some (.failed f)) →
      (∀ errors,
        ((s.createEntity c table payload author kept).1 = .error (.validation errors) ↔
          s.Refuses c kept table payload errors) ∧
        ((s.updateEntity c table id payload author kept).1 = .error (.validation errors) ↔
          s.Refuses c kept table payload errors)) ∧
      ∀ v, enter c .write = .ok () → s.Guards kept table v → ∀ errors,
        (s.Refuses c kept table payload errors ↔
          v.schema.issues payload ≠ [] ∧ errors = .ofIssues (v.schema.issues payload)) := by
  refine ⟨fun issues => ?_, fun s c kept table payload author id hfault => ⟨fun errors => ?_, ?_⟩⟩
  · have hgroups := FieldErrors.groups_ofIssues issues
    exact ⟨hgroups, hgroups.messages_perm⟩
  · exact ⟨Space.createEntity_eq_invalid_iff hfault, Space.updateEntity_eq_invalid_iff hfault⟩
  · exact fun v henter hv errors => Space.refuses_iff henter hv

/-- Places and messages follow different orders. -/
example : (FieldErrors.ofIssues [⟨"b", "2"⟩, ⟨"a", "3"⟩, ⟨"b", "1"⟩]).text = "a: 3; b: 2; b: 1" := by
  decide +kernel

/-- A note without a title is refused, whether it is new or not. -/
theorem failures_grouped_sample :
    let s := (Site.fresh.after (Sample.run.take 4)).space
    let c := Circumstances.calm 3 Sample.second
    let errors := FieldErrors.single "title" "is required"
    (s.createEntity c "notes" (.object []) none []).1 = .error (.validation errors) ∧
      (s.updateEntity c "notes" ⟨Sample.second⟩ (.object []) none []).1 =
        .error (.validation errors) := by
  intro s c errors
  have hguards : s.Guards [] "notes" ⟨⟨Sample.first⟩, ⟨1, 0, 1⟩, Sample.schema⟩ := by
    refine ⟨(Sample.row ⟨1, 0, 1⟩ 1 true).withDefinition Sample.definition, ?_, ?_⟩
    · rw [show s = _ from Sample.after_four]
      decide +kernel
    · have hcompiled : ValidatorCache.compiled
          ((Sample.row ⟨1, 0, 1⟩ 1 true).withDefinition Sample.definition) =
            .ok ⟨⟨Sample.first⟩, ⟨1, 0, 1⟩, Sample.schema⟩ :=
        Space.compiled_eq_ok_iff.2 ⟨rfl, rfl, Sample.compile_definition⟩
      simp only [ValidatorCache.obtain, ValidatorCache.find?, List.find?, hcompiled]
  have hissues : Sample.schema.issues (.object []) = [⟨"title", "is required"⟩] := by
    decide +kernel
  have hfault : ∀ f, c.fault ≠ some (.failed f) := fun f => Option.some_ne_none _ |>.symm
  obtain ⟨htold, hrefuses⟩ := failures_grouped.2 s c [] "notes" (.object []) none
    ⟨Sample.second⟩ hfault
  have hrefused : s.Refuses c [] "notes" (.object []) errors :=
    (hrefuses _ rfl hguards errors).2 ⟨by rw [hissues]; exact List.cons_ne_nil _ _, by
      rw [hissues]; rfl⟩
  exact ⟨(htold errors).1.2 hrefused, (htold errors).2.2 hrefused⟩

end SchemaVault
