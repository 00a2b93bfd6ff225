import SchemaVault.Proofs.Vault.Atomicity
import SchemaVault.Proofs.Vault.Run
import Mathlib.Data.List.Induction

/-!
# Categories along a run

A transaction on categories goes through only if nothing disturbs it, and leaves behind what its own
view was at the end (`CategoryRun.execute_eq_ok_iff`). No other request touches the categories
(`Move.categoryIsLive`). So along a run a category is live by the last word that a transaction has
had on it (`Site.categoryIsLive_after`). A transaction that is under way goes on from there: what it
shows is the last word of all, its own steps included, and if it goes through that word stands
(`Site.reads_own_writes`).
-/

namespace SchemaVault

open CategoryStep

/-! ## The transaction -/

namespace CategoryRun

open Transaction

variable {c : Circumstances} {s after : Space} {steps : List CategoryStep}

theorem enter_write_eq_ok_iff :
    enter c .write = .ok () ↔ c.isDone .entry = false ∧ c.locked = false := by
  unfold enter Circumstances.check
  cases c.isDone .entry <;> cases c.locked <;> simp [bind, Except.bind, pure, Except.pure]

/-- A transaction that does not begin shows nothing. -/
theorem execute_of_not_enter (h : enter c .write ≠ .ok ()) (steps : List CategoryStep) (s : Space) :
    (execute c steps s).1 = [] := by
  unfold execute
  cases henter : enter c .write with
  | error e => rfl
  | ok u => exact absurd henter h

theorem getElem?_execute {i : ℕ} {shown : Option Bool}
    (h : (execute c steps s).1[i]? = some shown) :
    ∃ step, steps[i]? = some step ∧ shown = step.shows (s.afterSteps (steps.take i)) := by
  by_cases henter : enter c .write = .ok ()
  · rw [execute_of_enter henter] at h
    exact getElem?_seen h
  · rw [execute_of_not_enter henter] at h
    cases h

theorem lt_length_execute_iff {i : ℕ} :
    i < (execute c steps s).1.length ↔
      (c.isDone .entry = false ∧ c.locked = false) ∧
        i < steps.length ∧ Passes c false (steps.take (i + 1)) := by
  rw [← enter_write_eq_ok_iff]
  by_cases henter : enter c .write = .ok ()
  · rw [execute_of_enter henter, lt_length_seen_iff, and_iff_right henter]
  · rw [execute_of_not_enter henter]
    exact iff_of_false (Nat.not_lt_zero i) fun h => henter h.1

theorem conclude_eq_ok_iff {outcome : Except StorageError (Space × Bool)} :
    conclude c outcome s = (.ok (), after) ↔ c.Undisturbed ∧ outcome = .ok (after, false) := by
  rcases outcome with e | ⟨left, calledOff⟩
  · simp [conclude]
  · rw [conclude, settle_eq_ok_iff]
    cases calledOff with
    | true =>
      have hlate : ¬Circumstances.Undisturbed { c with doneFrom := some .entry } := fun h =>
        Option.some_ne_none _ h.inTime
      simp [hlate]
    | false => simp

/-- **What is kept**: the view at the end, unless something disturbs the transaction, calls it off
or ends it. -/
theorem execute_eq_ok_iff :
    (execute c steps s).2 = (.ok (), after) ↔
      (c.Undisturbed ∧ c.locked = false ∧ .cancel ∉ steps ∧ ∀ e, .fail e ∉ steps) ∧
        s.afterSteps steps = after := by
  constructor
  · intro h
    cases henter : enter c .write with
    | error e => simp [execute, henter] at h
    | ok u =>
      rw [execute_of_enter henter] at h
      obtain ⟨hc, hrun⟩ := conclude_eq_ok_iff.1 h
      obtain ⟨hpasses, hafter, hcancel⟩ := outcome_eq_ok_iff.1 hrun
      exact ⟨⟨hc, (enter_write_eq_ok_iff.1 henter).2, any_isCancel_eq_false.1 hcancel,
        (passes_iff_of_undisturbed hc hcancel).1 hpasses⟩, hafter⟩
  · rintro ⟨⟨hc, hlocked, hcancel, hfail⟩, hafter⟩
    have hnone := any_isCancel_eq_false.2 hcancel
    rw [execute_of_enter (enter_of_undisturbed hc (.inr hlocked))]
    exact conclude_eq_ok_iff.2 ⟨hc, outcome_eq_ok_iff.2
      ⟨(passes_iff_of_undisturbed hc hnone).2 hfail, hafter, hnone⟩⟩

/-- A transaction that does not end well leaves the space as it was. -/
theorem execute_of_not_ok (h : (execute c steps s).2.1 ≠ .ok ()) : (execute c steps s).2.2 = s := by
  rcases Space.categoryRun_cases c steps s with ⟨seen, e, hrun⟩ | ⟨seen, _, left, -, hrun⟩
  · rw [hrun]
  · rw [hrun] at h
    exact absurd rfl h

end CategoryRun

/-! ## Moves -/

namespace Space

variable {c : Circumstances} {s s' : Space} {kept : ValidatorCache} {r : Request} {a : Answer}

/-- **Only a transaction on categories that goes through changes what is live.** -/
theorem Move.categoryIsLive (h : Move c s kept r a s') (id : String) :
    s'.categoryIsLive id = (lastSaid? id (r.stepsCarriedOut a)).getD (s.categoryIsLive id) := by
  rcases h.touches with ⟨hnone, _, rfl⟩ | ⟨hnone, -, _, rfl⟩ | ⟨_, hrun⟩
  · rw [hnone]
    rfl
  · rw [hnone]
    rfl
  · rw [← (CategoryRun.outcome_eq_ok_iff.1 hrun).2.1, categoryIsLive_afterSteps]

end Space

/-! ## Runs -/

namespace Site

/-- The steps on categories that a run has carried out, over all its transactions. -/
def committedSteps (site : Site) (run : List Step) : List CategoryStep :=
  (site.history run).flatMap fun moment => moment.request.stepsCarriedOut moment.answer

/-- Whether a category is live by the last word on it: in a transaction under way, else in those
that a run has carried out, else in what the site started with. -/
def lastWord (site : Site) (run : List Step) (underway : List CategoryStep) (id : String) : Bool :=
  (lastSaid? id (site.committedSteps run ++ underway)).getD (site.space.categoryIsLive id)

/-- **A category is live by the last word that a transaction has had on it.** -/
theorem categoryIsLive_after (site : Site) (run : List Step) (id : String) :
    (site.after run).space.categoryIsLive id = site.lastWord run [] id := by
  rw [lastWord, List.append_nil]
  induction run using List.reverseRecOn with
  | nil => rfl
  | append_singleton run step ih =>
    rw [after_concat, committedSteps, history_concat, List.flatMap_append, ← committedSteps]
    rcases (site.after run).next_cases step with
      ⟨hmoment, migrations, hs⟩ | ⟨_, _, _, r, a, -, hmoment, hmove⟩
    · rw [hs, hmoment, Option.toList_none, List.flatMap_nil, List.append_nil]
      exact ih
    · rw [hmoment, Option.toList_some, List.flatMap_singleton, lastSaid?_append,
        hmove.categoryIsLive, ih]
      cases lastSaid? id (r.stepsCarriedOut a) <;> rfl

/-- In a transaction under way, the last word is in its view. -/
theorem categoryIsLive_underway (site : Site) (run : List Step) (underway : List CategoryStep)
    (id : String) :
    ((site.after run).space.afterSteps underway).categoryIsLive id =
      site.lastWord run underway id := by
  rw [Space.categoryIsLive_afterSteps, categoryIsLive_after, lastWord, lastWord, List.append_nil,
    lastSaid?_append]
  cases lastSaid? id underway <;> rfl

/-- **A transaction on categories reads its own writes and commits as one.** Whatever has been
asked of a site, in whatever circumstances: a step that shows whether a category is live shows the
last word on it, which may be the transaction's own, and a deletion shows it from just before. A
step is taken unless the transaction does not begin or has been ended by a step up to then. The
transaction goes through if nothing disturbs it, no step calls it off and none makes it fail. Then
its last word on each category stands; else the space is as it was. Neither midway nor afterwards a
version refers to a category that is not stored, unless it did so before. -/
theorem reads_own_writes (site : Site) (run : List Step) (c : Circumstances)
    (steps : List CategoryStep) :
    let s := (site.after run).space
    let seen := (CategoryRun.execute c steps s).1
    let ending := (CategoryRun.execute c steps s).2.1
    let left := (CategoryRun.execute c steps s).2.2
    (∀ i id, i < seen.length →
        steps[i]? = some (.isLive id) ∨ steps[i]? = some (.delete id) →
          seen[i]? = some (some (site.lastWord run (steps.take i) id))) ∧
      (∀ i, i < seen.length ↔ (c.isDone .entry = false ∧ c.locked = false) ∧
        i < steps.length ∧ Passes c false (steps.take (i + 1))) ∧
      (ending = .ok () ↔ c.Undisturbed ∧ c.locked = false ∧ .cancel ∉ steps ∧
        ∀ e, .fail e ∉ steps) ∧
      (ending = .ok () → left = s.afterSteps steps ∧
        (left.versions = s.versions ∧ left.entities = s.entities) ∧
        ∀ id, left.categoryIsLive id = site.lastWord run steps id) ∧
      (ending ≠ .ok () → left = s) ∧
      (∀ i v, (s.afterSteps (steps.take i)).Dangles v → s.Dangles v) ∧
      ∀ v, left.Dangles v → s.Dangles v := by
  intro s seen ending left
  have hgood : ending = .ok () ↔
      (c.Undisturbed ∧ c.locked = false ∧ .cancel ∉ steps ∧ ∀ e, .fail e ∉ steps) ∧
        s.afterSteps steps = left := by
    rw [← CategoryRun.execute_eq_ok_iff, Prod.ext_iff]
    exact (and_iff_left rfl).symm
  have hbad : ending ≠ .ok () → left = s := CategoryRun.execute_of_not_ok
  refine ⟨?shown, fun i => CategoryRun.lt_length_execute_iff, ?ending, ?kept, hbad,
    fun i v => Space.dangles_of_afterSteps, ?dangles⟩
  case shown =>
    intro i id hi hstep
    have hseen : seen[i]? = some seen[i] := List.getElem?_eq_getElem hi
    obtain ⟨step, hat, hshown⟩ := CategoryRun.getElem?_execute hseen
    rw [hseen, hshown, ← categoryIsLive_underway]
    rcases hstep with hstep | hstep <;> cases hat.symm.trans hstep <;> rfl
  case ending =>
    refine ⟨fun h => (hgood.1 h).1, fun h => ?_⟩
    have hrun : (CategoryRun.execute c steps s).2 = (.ok (), s.afterSteps steps) :=
      CategoryRun.execute_eq_ok_iff.2 ⟨h, rfl⟩
    exact congrArg Prod.fst hrun
  case kept =>
    intro h
    have hleft := (hgood.1 h).2
    refine ⟨hleft.symm, ?_, fun id => ?_⟩
    · rw [← hleft]
      exact s.rows_afterSteps steps
    · rw [← hleft, categoryIsLive_underway]
  case dangles =>
    intro v hv
    by_cases h : ending = .ok ()
    · rw [← (hgood.1 h).2] at hv
      exact Space.dangles_of_afterSteps hv
    · rwa [hbad h] at hv

/-- A category is stored, a transaction that deletes it fails, and then one goes through that
deletes and revives it. -/
theorem reads_own_writes_sample :
    let run := [.asking 0 (.calm 0 Sample.first) .standard (.changeCategories [.upsert "c" "C"]),
      .asking 0 (.calm 1 Sample.first) .standard
        (.changeCategories [.delete "c", .fail .poisoned])]
    let steps := [.delete "c", .isLive "c", .upsert "c" "D"]
    let result :=
      CategoryRun.execute (.calm 2 Sample.first) steps (Site.fresh.after run).space
    result.1[0]? = some (some true) ∧ result.1[1]? = some (some false) ∧
      result.2.1 = .ok () ∧ result.2.2.categoryIsLive "c" = true := by
  intro run steps result
  obtain ⟨hshown, -, hending, hkept, -⟩ :=
    Site.fresh.reads_own_writes run (.calm 2 Sample.first) steps
  have hok : result.2.1 = .ok () :=
    hending.2 ⟨Circumstances.calm_undisturbed 2 Sample.first, rfl, by simp [steps], by simp [steps]⟩
  refine ⟨(hshown 0 "c" (by decide +kernel) (.inr rfl)).trans ?_,
    (hshown 1 "c" (by decide +kernel) (.inl rfl)).trans ?_, hok, ((hkept hok).2.2 "c").trans ?_⟩
  · decide +kernel
  · decide +kernel
  · decide +kernel

end Site

end SchemaVault
