import SchemaVault.Proofs.Entities.Conformance

/-!
# Keeping validators makes no difference

A handle that keeps validators answers like one that compiles the governing definition at every
call (`caching_transparent`). A kept validator is used without a look at the stored definition, so
this rests on what is stored: there is one row of each number, it keeps its definition, and every
kept validator is the one of a stored row (`Site.IsBacked`). The validator that is kept for the
version that governs a table is then the one that compiling would give (`obtain_eq_compiled`).

The other side of the comparison is a run that forgets all kept validators before every step
(`Site.afterForgetting`).
-/

namespace SchemaVault

namespace Space

variable {s : Space} {kept : ValidatorCache} {table : String} {α : Type}

/-! ## Validators -/

/-- With nothing kept the definition is compiled. -/
theorem obtain_nil (r : SchemaRecord) :
    (ValidatorCache.obtain [] r).1 = ValidatorCache.compiled r := by
  unfold ValidatorCache.obtain ValidatorCache.find?
  rw [List.find?_nil]
  cases ValidatorCache.compiled r <;> rfl

/-- A validator of the row of a version is the one that its definition compiles to. -/
theorem Backs.compiled {row : VersionRow} {v : Validator} {r : SchemaRecord} (h : Backs row v)
    (hread : VersionRow.read row = .ok r) : ValidatorCache.compiled r = .ok v := by
  obtain ⟨definition, hdefinition, rfl⟩ := VersionRow.read_eq_ok.1 hread
  obtain ⟨definition', hdefinition', hcompile⟩ := h.compiles
  obtain rfl := Option.some.inj (hdefinition.symm.trans hdefinition')
  exact compiled_eq_ok_iff.2 ⟨h.schemaId.symm, h.version.symm, hcompile⟩

/-- **A kept validator is what compiling the governing definition gives**, if every kept validator
is the one of a stored version. -/
theorem obtain_eq_compiled (hrows : Consistent s.versions)
    (hkept : ∀ w ∈ kept, ∃ row ∈ s.versions, Backs row w) {r : SchemaRecord}
    (h : s.governingSchema table = .ok r) : (kept.obtain r).1 = ValidatorCache.compiled r := by
  unfold ValidatorCache.obtain
  cases hfind : kept.find? r.schemaId r.version with
  | none => cases ValidatorCache.compiled r <;> rfl
  | some v =>
    have hfor := List.find?_some hfind
    simp only [Validator.isFor, Bool.and_eq_true, beq_iff_eq] at hfor
    obtain ⟨row, hrow, -, hread⟩ := row_of_governingSchema h
    obtain ⟨row', hrow', hbacks⟩ := hkept v (List.mem_of_find?_eq_some hfind)
    obtain ⟨definition, -, hr⟩ := VersionRow.read_eq_ok.1 hread
    -- The row that backs the kept validator and the one that governs are of the same number, and
    -- there is one row of each.
    have hid : row'.schemaId = row.schemaId := by
      rw [hbacks.schemaId, hfor.1, ← hr]
      rfl
    have hversion : row'.version = row.version := by
      rw [hbacks.version, hfor.2, ← hr]
      rfl
    obtain rfl := hrows.eq_of_key hrow' hrow hid hversion
    exact (hbacks.compiled hread).symm

/-- A validator that is kept takes the place of the others of its schema. -/
theorem nodup_keep (h : (kept.map (·.schemaId)).Nodup) (v : Validator) :
    ((kept.keep v).map (·.schemaId)).Nodup := by
  unfold ValidatorCache.keep
  rw [List.map_append, List.nodup_append]
  refine ⟨?_, List.pairwise_singleton .., ?_⟩
  · exact List.Nodup.sublist (List.filter_sublist.map _) h
  · intro id hid _ hother heq
    obtain ⟨w, hw, rfl⟩ := List.mem_map.1 hid
    rw [List.map_singleton, List.mem_singleton] at hother
    have hne := (List.mem_filter.1 hw).2
    rw [heq, hother, bne_self_eq_false] at hne
    exact Bool.false_ne_true hne

/-! ## Operations -/

theorem withValidator_eq (hrows : Consistent s.versions)
    (hkept : ∀ w ∈ kept, ∃ row ∈ s.versions, Backs row w)
    (table : String) (rest : Validator → Space → Except StorageError (α × Space)) :
    (withValidator table rest s kept).1 = (withValidator table rest s []).1 := by
  unfold withValidator
  cases hgoverning : s.governingSchema table with
  | error e => rfl
  | ok r =>
    have hsame : (kept.obtain r).1 = (ValidatorCache.obtain [] r).1 :=
      (obtain_eq_compiled hrows hkept hgoverning).trans (obtain_nil r).symm
    dsimp only
    rcases hobtain : kept.obtain r with ⟨result, kept'⟩
    rcases hobtain' : ValidatorCache.obtain [] r with ⟨result', kept''⟩
    rw [hobtain, hobtain'] at hsame
    cases (show result = result' from hsame)
    cases result <;> rfl

theorem executeKeeping_eq (hrows : Consistent s.versions)
    (hkept : ∀ w ∈ kept, ∃ row ∈ s.versions, Backs row w) (c : Circumstances) (a : Access)
    (table : String) (rest : Validator → Space → Except StorageError (α × Space)) :
    (Transaction.executeKeeping c a (withValidator table rest) s kept).1 =
        (Transaction.executeKeeping c a (withValidator table rest) s []).1 ∧
      (Transaction.executeKeeping c a (withValidator table rest) s kept).2.1 =
        (Transaction.executeKeeping c a (withValidator table rest) s []).2.1 := by
  have hwork := withValidator_eq hrows hkept table rest
  unfold Transaction.executeKeeping
  cases Transaction.enter c a with
  | error e => exact ⟨rfl, rfl⟩
  | ok u =>
    dsimp only
    rw [hwork]
    exact ⟨rfl, rfl⟩

/-- **What is kept has no part in an answer**, nor in the space that is left behind. -/
theorem answer_eq (hrows : Consistent s.versions)
    (hkept : ∀ w ∈ kept, ∃ row ∈ s.versions, Backs row w) (c : Circumstances)
    (limits : PageLimits) (r : Request) :
    (s.answer c limits r kept).1 = (s.answer c limits r []).1 ∧
      (s.answer c limits r kept).2.1 = (s.answer c limits r []).2.1 := by
  cases r with
  | createEntity table payload author =>
    obtain ⟨hresult, hspace⟩ := executeKeeping_eq hrows hkept c .write table
      (createWork c table payload author)
    simp only [answer, createEntity, hresult, hspace, and_self]
  | updateEntity table id payload author =>
    obtain ⟨hresult, hspace⟩ := executeKeeping_eq hrows hkept c .write table
      (updateWork c table id payload author)
    simp only [answer, updateEntity, hresult, hspace, and_self]
  | listEntities table options =>
    obtain ⟨hresult, -⟩ := executeKeeping_eq hrows hkept c .read table
      (listWork limits table options)
    simp only [answer, listEntities, hresult, and_self]
  | createSchema _ | listVersions _ _ | listSchemas _ | getSchema _ _ | getActive _
  | getActiveForTable _ | activateSchema _ _ | deleteSchema _ _ | findSchema _ _
  | getEntity _ _ _ | deleteEntity _ _ | changeCategories _ | categoryIsLive _
  | appliedMigration => exact ⟨rfl, rfl⟩

end Space

open Space

/-! ## Runs -/

namespace Site

/-- The site with all kept validators forgotten. -/
def forget (site : Site) : Site := { site with kept := fun _ => [] }

/-- What a run leaves behind that compiles all definitions anew, since it forgets what is kept
before every step. -/
def afterForgetting (site : Site) (run : List Step) : Site :=
  run.foldl (fun site step => site.forget.next step) site

/-- The requests of such a run with their answers. -/
def historyForgetting (site : Site) : List Step → List Moment
  | [] => []
  | step :: run =>
    (site.forget.moment? step).toList ++ (site.forget.next step).historyForgetting run

variable {site site' : Site} {step : Step}

/-- **A step is the same after everything kept is forgotten.** -/
theorem next_forget (hrows : Consistent site.space.versions) (hbacked : site.IsBacked)
    (step : Step) :
    (site.next step).space = (site.forget.next step).space ∧
      site.moment? step = site.forget.moment? step := by
  cases step with
  | opening handle =>
    refine ⟨?_, rfl⟩
    unfold next forget
    cases site.space.migrate <;> rfl
  | asking handle c limits r =>
    obtain ⟨hanswer, hspace⟩ := answer_eq hrows (hbacked handle) c limits r
    exact ⟨hspace, by simp only [moment?, forget, hanswer]⟩

/-- **A run is the same if everything kept is forgotten before every step**: it answers the same and
leaves the same space behind. -/
theorem after_forgetting (run : List Step) (hspace : site.space = site'.space)
    (hrows : Consistent site.space.versions) (hbacked : site.IsBacked) :
    (site.after run).space = (site'.afterForgetting run).space ∧
      site.history run = site'.historyForgetting run := by
  induction run generalizing site site' with
  | nil => exact ⟨hspace, rfl⟩
  | cons step run ih =>
    have hforget : site.forget = site'.forget := by rw [forget, hspace]; rfl
    obtain ⟨hnext, hmoment⟩ := next_forget hrows hbacked step
    rw [hforget] at hnext hmoment
    obtain ⟨hafter, hhistory⟩ :=
      ih hnext (site.consistent_next step hrows) (hbacked.next step)
    exact ⟨hafter, by rw [history, historyForgetting, hmoment, hhistory]⟩

/-- At most one validator is kept for a schema. -/
def KeepsApart (site : Site) : Prop :=
  ∀ handle, ((site.kept handle).map (·.schemaId)).Nodup

theorem KeepsApart.next (h : site.KeepsApart) (step : Step) : (site.next step).KeepsApart := by
  intro handle
  cases step with
  | opening other =>
    unfold Site.next
    cases site.space.migrate with
    | error e => exact h handle
    | ok s =>
      simp only [Function.update_apply]
      split
      · exact .nil
      · exact h handle
  | asking other c limits r =>
    simp only [Site.next, Function.update_apply]
    split
    · rcases answer_kept c limits r site.space (site.kept other) with
        hkept | ⟨-, -, v, -, -, hkept⟩ <;> rw [hkept]
      · exact h other
      · exact nodup_keep (h other) v
    · exact h handle

theorem keepsApart_after (run : List Step) : (fresh.after run).KeepsApart :=
  after_of_step (fun _ step _ h => h.next step) along_true fun _ => .nil

end Site

/-- **Keeping validators makes no difference.** In every run, whatever the requests, the handles
that make them and the circumstances, the answers and the space that is left behind are the same as
if every definition were compiled anew at every call. A handle keeps at most one validator for a
schema, and each is what compiling the stored definition of its version gives. -/
theorem caching_transparent (run : List Step) :
    (Site.fresh.after run).space = (Site.fresh.afterForgetting run).space ∧
      Site.fresh.history run = Site.fresh.historyForgetting run ∧
      ∀ handle, (((Site.fresh.after run).kept handle).map (·.schemaId)).Nodup ∧
        ∀ v ∈ (Site.fresh.after run).kept handle, ∃ row definition,
          ((Site.fresh.after run).space.versions.filter
            fun u => u.isVersion v.schemaId v.version) = [row] ∧
          Json.read? row.definition = some definition ∧
          Validator.ofDefinition v.schemaId v.version definition = .ok v := by
  obtain ⟨hspace, hhistory⟩ := Site.after_forgetting run rfl Consistent.nil
    (fun _ _ h => nomatch h : Site.fresh.IsBacked)
  refine ⟨hspace, hhistory, fun handle => ⟨Site.keepsApart_after run handle, fun v hv => ?_⟩⟩
  obtain ⟨row, hrow, hbacks⟩ := Site.isBacked_after run handle v hv
  obtain ⟨definition, hdefinition, hcompile⟩ := hbacks.compiles
  refine ⟨row, definition, ?_, hdefinition, ?_⟩
  · rw [← hbacks.schemaId, ← hbacks.version]
    exact (Site.consistent_after run).filter_eq hrow
  · rw [Validator.ofDefinition, hcompile]
    rfl

end SchemaVault
