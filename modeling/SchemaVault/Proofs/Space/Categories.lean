import SchemaVault.Proofs.Space.Transaction
import SchemaVault.Space.Categories

/-!
# Steps on categories

A transaction on categories takes its steps one after the other on a view of its own, until a step
ends it: `afterSteps` is that view, `failure?` says which step ends it and with what. The runner is
opened once, for a single step (`ofSteps_cons`). From that follow, by induction over the steps, what
has been shown (`getElem?_seen`), how far the transaction gets (`lt_length_seen_iff`) and what it
comes to (`outcome_eq_ok_iff`).

In the view a category is live by the last step that has a word on it (`categoryIsLive_afterSteps`).
Steps leave versions and entities alone (`rows_afterSteps`) and remove no category, so that a
version that refers to none that is stored did so before (`dangles_of_afterSteps`).
-/

namespace SchemaVault

/-! ## What a step does -/

namespace CategoryStep

/-- Whether a step calls its transaction off. -/
def isCancel : CategoryStep → Bool
  | .cancel => true
  | _ => false

/-- What a step shows in a space, if the transaction does not end with it. -/
def shows (s : Space) : CategoryStep → Option Bool
  | .delete id | .isLive id => some (s.categoryIsLive id)
  | .cancel => some true
  | .upsert _ _ | .check | .fail _ => none

/-- With what a step ends its transaction, which may have been called off before. -/
def failure? (c : Circumstances) (calledOff : Bool) : CategoryStep → Option StorageError
  | .check => if calledOff || c.isDone .midway then some .cancelled else none
  | .fail e => some e
  | .upsert _ _ | .delete _ | .isLive _ | .cancel => none

/-- Whether a category is to be live from a step on, if the step has a word on it. -/
def says? (id : String) : CategoryStep → Option Bool
  | .upsert other _ => if other = id then some true else none
  | .delete other => if other = id then some false else none
  | .isLive _ | .cancel | .check | .fail _ => none

/-- The last word that steps have on a category. -/
def lastSaid? (id : String) (steps : List CategoryStep) : Option Bool :=
  (steps.filterMap (says? id)).getLast?

/-- Whether no step ends the transaction. A step is called off by those before it. -/
def Passes (c : Circumstances) (calledOff : Bool) (steps : List CategoryStep) : Prop :=
  ∀ before step after, steps = before ++ step :: after →
    step.failure? c (calledOff || before.any isCancel) = none

variable {c : Circumstances} {calledOff : Bool} {step : CategoryStep} {rest : List CategoryStep}

theorem passes_nil : Passes c calledOff [] := fun _ _ _ h => by simp at h

theorem passes_cons :
    Passes c calledOff (step :: rest) ↔
      step.failure? c calledOff = none ∧ Passes c (calledOff || step.isCancel) rest := by
  constructor
  · intro h
    refine ⟨by simpa using h [] step rest rfl, fun before next after hrest => ?_⟩
    have hnext := h (step :: before) next after (by rw [hrest, List.cons_append])
    rwa [List.any_cons, ← Bool.or_assoc] at hnext
  · rintro ⟨hstep, hrest⟩ before next after h
    cases before with
    | nil =>
      obtain ⟨rfl, -⟩ := List.cons.inj h
      simpa using hstep
    | cons first before =>
      obtain ⟨rfl, htail⟩ := List.cons.inj h
      rw [List.any_cons, ← Bool.or_assoc]
      exact hrest before next after htail

/-- If nobody calls the transaction off, only a failure of its own ends it. -/
theorem passes_iff_of_undisturbed (hc : c.Undisturbed) {steps : List CategoryStep}
    (hcancel : steps.any isCancel = false) :
    Passes c false steps ↔ ∀ e, .fail e ∉ steps := by
  constructor
  · intro h e hfail
    obtain ⟨before, after, rfl⟩ := List.append_of_mem hfail
    cases h before (.fail e) after rfl
  · rintro h before step after rfl
    rw [List.any_append, Bool.or_eq_false_iff] at hcancel
    cases step with
    | check => simp [failure?, hcancel.1, Transaction.isDone_of_undisturbed hc]
    | fail e => exact absurd (by simp) (h e)
    | upsert id name | delete id | isLive id | cancel => rfl

theorem any_isCancel_eq_false {steps : List CategoryStep} :
    steps.any isCancel = false ↔ .cancel ∉ steps := by
  rw [List.any_eq_false]
  constructor
  · exact fun h hcancel => h _ hcancel rfl
  · intro h step hstep
    cases step with
    | cancel => exact absurd hstep h
    | upsert _ _ | delete _ | isLive _ | check | fail _ => exact Bool.false_ne_true

theorem lastSaid?_append (id : String) (steps more : List CategoryStep) :
    lastSaid? id (steps ++ more) = (lastSaid? id more).or (lastSaid? id steps) := by
  rw [lastSaid?, List.filterMap_append, List.getLast?_append]
  rfl

end CategoryStep

namespace Space

open CategoryStep

variable {s : Space} {id : String}

/-- What a step leaves behind. -/
def afterStep (s : Space) : CategoryStep → Space
  | .upsert id name => s.upsertCategory id name
  | .delete id => s.deleteCategory id
  | .isLive _ | .cancel | .check | .fail _ => s

/-- What steps leave behind. -/
def afterSteps (s : Space) (steps : List CategoryStep) : Space := steps.foldl afterStep s

/-! ## Liveness -/

/-- Which categories are live after the row of one has been replaced: the others as before, and this
one, if it is stored, by its new mark. -/
theorem any_live_map {f : Category → Category} {other : String} {deleted : Bool}
    (hf : ∀ row, row.id = other → (f row).id = other ∧ (f row).deleted = deleted)
    (rows : List Category) (id : String) :
    ((rows.map fun row => if row.id = other then f row else row).any
        fun row => row.id == id && !row.deleted) =
      if other = id then rows.any (·.id == id) && !deleted
      else rows.any fun row => row.id == id && !row.deleted := by
  induction rows with
  | nil => simp
  | cons row rows ih =>
    rw [List.map_cons, List.any_cons, ih, List.any_cons, List.any_cons]
    by_cases hrow : row.id = other
    · obtain ⟨hid, hdeleted⟩ := hf row hrow
      rw [if_pos hrow, hid, hdeleted, hrow]
      by_cases hother : other = id
      · simp [hother]
      · simp [beq_false_of_ne hother, hother]
    · rw [if_neg hrow]
      by_cases hother : other = id
      · simp [beq_false_of_ne (hother ▸ hrow), hother]
      · simp [hother]

theorem categoryIsLive_upsertCategory (s : Space) (other name id : String) :
    (s.upsertCategory other name).categoryIsLive id =
      if other = id then true else s.categoryIsLive id := by
  unfold upsertCategory
  split
  · rename_i hstored
    refine (any_live_map (f := fun _ => ⟨other, name, false⟩) (fun _ _ => ⟨rfl, rfl⟩)
      s.categories id).trans ?_
    split
    · rename_i hid
      rw [← hid, hstored]
      rfl
    · rfl
  · simp only [categoryIsLive, List.any_append, List.any_cons, List.any_nil]
    by_cases hid : other = id <;> simp [hid]

theorem categoryIsLive_deleteCategory (s : Space) (other id : String) :
    (s.deleteCategory other).categoryIsLive id =
      if other = id then false else s.categoryIsLive id := by
  refine (any_live_map (f := fun row => { row with deleted := true }) (fun _ hrow => ⟨hrow, rfl⟩)
    s.categories id).trans ?_
  rw [Bool.not_true, Bool.and_false]
  rfl

/-- **A step changes the liveness of the category that it has a word on, and of no other.** -/
theorem categoryIsLive_afterStep (s : Space) (step : CategoryStep) (id : String) :
    (s.afterStep step).categoryIsLive id = (step.says? id).getD (s.categoryIsLive id) := by
  cases step with
  | upsert other name =>
    rw [afterStep, categoryIsLive_upsertCategory, says?]
    split <;> rfl
  | delete other =>
    rw [afterStep, categoryIsLive_deleteCategory, says?]
    split <;> rfl
  | isLive _ | cancel | check | fail _ => rfl

/-- **The last word decides.** -/
theorem categoryIsLive_afterSteps (s : Space) (steps : List CategoryStep) (id : String) :
    (s.afterSteps steps).categoryIsLive id =
      (lastSaid? id steps).getD (s.categoryIsLive id) := by
  induction steps generalizing s with
  | nil => rfl
  | cons step steps ih =>
    have hlast : lastSaid? id (step :: steps) = (lastSaid? id steps).or (step.says? id) := by
      rw [← List.singleton_append, lastSaid?_append]
      cases hstep : step.says? id <;> simp [lastSaid?, hstep]
    rw [afterSteps, List.foldl_cons, ← afterSteps, ih, categoryIsLive_afterStep, hlast]
    cases lastSaid? id steps <;> rfl

/-! ## What is stored -/

/-- Whether a category is stored, deleted or not. -/
def HasCategory (s : Space) (id : String) : Prop := ∃ row ∈ s.categories, row.id = id

/-- Whether a version is stored that refers to a category that is not. -/
def Dangles (s : Space) (v : VersionRow) : Prop := v ∈ s.versions ∧ ¬s.HasCategory v.category

theorem HasCategory.map {f : Category → Category} (h : s.HasCategory id)
    (hf : ∀ row, (f row).id = row.id) {s' : Space} (hs' : s'.categories = s.categories.map f) :
    s'.HasCategory id := by
  obtain ⟨row, hrow, hid⟩ := h
  exact ⟨f row, hs' ▸ List.mem_map_of_mem hrow, (hf row).trans hid⟩

theorem HasCategory.afterStep (h : s.HasCategory id) (step : CategoryStep) :
    (s.afterStep step).HasCategory id := by
  cases step with
  | upsert other name =>
    rw [Space.afterStep, upsertCategory]
    split
    · refine h.map (fun row => ?_) rfl
      split
      · rename_i hid
        exact hid.symm
      · rfl
    · obtain ⟨row, hrow, hid⟩ := h
      exact ⟨row, List.mem_append_left _ hrow, hid⟩
  | delete other => exact h.map (fun row => by split <;> rfl) rfl
  | isLive _ | cancel | check | fail _ => exact h

theorem HasCategory.afterSteps (h : s.HasCategory id) (steps : List CategoryStep) :
    (s.afterSteps steps).HasCategory id := by
  induction steps generalizing s with
  | nil => exact h
  | cons step steps ih => exact ih (h.afterStep step)

/-- Steps on categories leave versions and entities alone. -/
theorem rows_afterSteps (s : Space) (steps : List CategoryStep) :
    (s.afterSteps steps).versions = s.versions ∧ (s.afterSteps steps).entities = s.entities := by
  have hstep : ∀ (s : Space) (step : CategoryStep),
      (s.afterStep step).versions = s.versions ∧ (s.afterStep step).entities = s.entities := by
    intro s step
    cases step with
    | upsert id name =>
      rw [afterStep, upsertCategory]
      split <;> exact ⟨rfl, rfl⟩
    | delete _ | isLive _ | cancel | check | fail _ => exact ⟨rfl, rfl⟩
  induction steps generalizing s with
  | nil => exact ⟨rfl, rfl⟩
  | cons step steps ih =>
    obtain ⟨hversions, hentities⟩ := ih (s.afterStep step)
    exact ⟨hversions.trans (hstep s step).1, hentities.trans (hstep s step).2⟩

/-- **Steps on categories make no version refer to a category that is not stored.** -/
theorem dangles_of_afterSteps {steps : List CategoryStep} {v : VersionRow}
    (h : (s.afterSteps steps).Dangles v) : s.Dangles v := by
  obtain ⟨hv, hmissing⟩ := h
  rw [(s.rows_afterSteps steps).1] at hv
  exact ⟨hv, fun hstored => hmissing (hstored.afterSteps steps)⟩

end Space

/-! ## The runner -/

namespace CategoryRun

open CategoryStep Transaction

variable {c : Circumstances} {calledOff flag : Bool} {s after : Space} {steps : List CategoryStep}

/-- **One step**: it ends the transaction, or shows something and leaves the rest to go on. -/
theorem ofSteps_cons (c : Circumstances) (calledOff : Bool) (s : Space) (step : CategoryStep)
    (rest : List CategoryStep) :
    ofSteps c calledOff s (step :: rest) =
      match step.failure? c calledOff with
      | some e => ⟨[], .error e⟩
      | none =>
        (ofSteps c (calledOff || step.isCancel) (s.afterStep step) rest).showing
          (step.shows s) := by
  cases step with
  | upsert _ _ | delete _ | isLive _ | cancel =>
    simp [ofSteps, failure?, isCancel, shows, Space.afterStep]
  | check =>
    simp only [ofSteps, failure?, isCancel, shows, Space.afterStep, Bool.or_false]
    split <;> rfl
  | fail e => rfl

/-- **What has been shown**: each step has shown what it shows in the view that the steps before it
have left. -/
theorem getElem?_seen {i : ℕ} {shown : Option Bool}
    (h : (ofSteps c calledOff s steps).seen[i]? = some shown) :
    ∃ step, steps[i]? = some step ∧ shown = step.shows (s.afterSteps (steps.take i)) := by
  induction steps generalizing calledOff s i with
  | nil => simp [ofSteps] at h
  | cons step rest ih =>
    rw [ofSteps_cons] at h
    cases hstep : step.failure? c calledOff with
    | some e => simp [hstep] at h
    | none =>
      rw [hstep] at h
      cases i with
      | zero => exact ⟨step, rfl, (Option.some.inj h).symm⟩
      | succ i => exact ih h

/-- **How far a transaction gets.** -/
theorem lt_length_seen_iff {i : ℕ} :
    i < (ofSteps c calledOff s steps).seen.length ↔
      i < steps.length ∧ Passes c calledOff (steps.take (i + 1)) := by
  induction steps generalizing calledOff s i with
  | nil => simp [ofSteps]
  | cons step rest ih =>
    rw [ofSteps_cons, List.take_succ_cons, passes_cons]
    cases hstep : step.failure? c calledOff with
    | some e => simp
    | none =>
      cases i with
      | zero => simp [showing, passes_nil]
      | succ i => simp [showing, ih]

/-- **What a transaction comes to** that no step ends. -/
theorem outcome_eq_ok_iff :
    (ofSteps c calledOff s steps).outcome = .ok (after, flag) ↔
      Passes c calledOff steps ∧ s.afterSteps steps = after ∧
        (calledOff || steps.any isCancel) = flag := by
  induction steps generalizing calledOff s with
  | nil => simp [ofSteps, passes_nil, Space.afterSteps]
  | cons step rest ih =>
    rw [ofSteps_cons, passes_cons]
    cases hstep : step.failure? c calledOff with
    | some e => simp
    | none => simp [showing, ih, Space.afterSteps, Bool.or_assoc]

end CategoryRun

end SchemaVault
