import SchemaVault.Proofs.Vault.Move

/-!
# All or nothing

An operation that is called off or runs late has either no effect at all, or exactly the effect
that it has when nobody is in a hurry; and one that answers with an error has no effect
(`all_or_nothing`). The comparison is between two runs of the same unit of work, in the given
circumstances and in the same ones without hurry. They are related by `CutShort`: step by step,
the first does what the second does, until a checkpoint cancels it. The relation passes through
every combination of steps (`CutShort.bind`), so each unit of work has it by its own shape, and
ending the transaction keeps it (`execute_cutShort`).

A transaction on categories can also be called off by one of its own steps. Then it is compared with
the transaction that lacks those steps (`CategoryRun.execute_uncancelled`).
-/

namespace SchemaVault

/-! ## Circumstances without hurry -/

/-- The same circumstances, in which nobody calls the operation off and it is never late. -/
def Circumstances.unhurried (c : Circumstances) : Circumstances := { c with doneFrom := none }

@[simp]
theorem Circumstances.isDone_unhurried (c : Circumstances) (p : Checkpoint) :
    c.unhurried.isDone p = false := rfl

/-- Who is done at some checkpoint is done at the last. -/
theorem Circumstances.isDone_commit {c : Circumstances} (h : c.doneFrom ≠ none) :
    c.isDone .commit = true := by
  obtain ⟨first, hfirst⟩ := Option.ne_none_iff_exists'.1 h
  rw [Circumstances.isDone, hfirst]
  cases first <;> rfl

namespace Transaction

variable {α β κ : Type} {c : Circumstances} {s : Space}

/-! ## Work that is cut short -/

/-- Whether a computation comes out like another one, unless it has been cancelled. -/
def CutShort (x y : Except StorageError α) : Prop := x = .error .cancelled ∨ x = y

theorem CutShort.refl (x : Except StorageError α) : CutShort x x := .inr rfl

theorem CutShort.bind {x y : Except StorageError α} {f g : α → Except StorageError β}
    (h : CutShort x y) (hfg : ∀ a, CutShort (f a) (g a)) : CutShort (x >>= f) (y >>= g) := by
  rcases h with rfl | rfl
  · exact .inl rfl
  · cases x with
    | error e => exact .refl _
    | ok a => exact hfg a

theorem check_cutShort (c : Circumstances) (p : Checkpoint) :
    CutShort (c.check p) (c.unhurried.check p) := by
  unfold Circumstances.check
  cases c.isDone p
  · exact .inr rfl
  · exact .inl rfl

theorem enter_cutShort (c : Circumstances) (a : Access) :
    CutShort (enter c a) (enter c.unhurried a) :=
  (check_cutShort c .entry).bind fun _ => .refl _

/-! ## Transactions that are cut short -/

theorem settle_cutShort {x y : Except StorageError (α × Space)} (h : CutShort x y) :
    settle c x s = (.error .cancelled, s) ∨ settle c x s = settle c.unhurried y s := by
  rcases h with rfl | rfl
  · exact .inl rfl
  · rcases x with e | ⟨result, after⟩
    · exact .inr rfl
    · cases hfault : c.fault with
      | some e => exact .inr (by simp only [settle, Circumstances.unhurried, hfault])
      | none =>
        cases hdone : c.isDone .commit with
        | true => exact .inl (by simp [settle, hfault, hdone])
        | false =>
          refine .inr ?_
          simp only [settle, hdone, Circumstances.isDone_unhurried]
          rfl

/-- **A transaction is cut short or comes out as it does without hurry**, if its work does. -/
theorem execute_cutShort {work work' : Work α} (a : Access)
    (h : CutShort (work s) (work' s)) :
    execute c a work s = (.error .cancelled, s) ∨
      execute c a work s = execute c.unhurried a work' s := by
  unfold execute
  rcases enter_cutShort c a with henter | henter <;> rw [henter]
  · exact .inl rfl
  · cases enter c.unhurried a with
    | error e => exact .inr rfl
    | ok u => exact settle_cutShort h

/-- **Who is done before the commit does not get through.** -/
theorem settle_of_done (h : c.isDone .commit = true) (x : Except StorageError (α × Space))
    (s : Space) : ∃ e, settle c x s = (.error e, s) := by
  rcases x with e | ⟨result, after⟩
  · exact ⟨e, rfl⟩
  · unfold settle
    cases c.fault with
    | some e => exact ⟨e, rfl⟩
    | none => exact ⟨.cancelled, by rw [h]; rfl⟩

/-- A transaction goes through exactly if its work has gone well and nothing disturbs it. -/
theorem settle_eq_ok_iff {x : Except StorageError (α × Space)} {result : α} {after : Space} :
    settle c x s = (.ok result, after) ↔ c.Undisturbed ∧ x = .ok (result, after) := by
  constructor
  · intro h
    have htime : c.doneFrom = none := by
      by_contra hdone
      obtain ⟨e, he⟩ := settle_of_done (Circumstances.isDone_commit hdone) x s
      cases he.symm.trans h
    rcases settle_cases c x s with ⟨e, he⟩ | ⟨_, _, hx, hsettle⟩
    · cases he.symm.trans h
    · obtain ⟨hresult, rfl⟩ := Prod.mk.inj (hsettle.symm.trans h)
      obtain rfl := Except.ok.inj hresult
      refine ⟨⟨htime, ?_⟩, hx⟩
      cases hfault : c.fault with
      | none => rfl
      | some e => simp [settle, hx, hfault] at hsettle
  · rintro ⟨hc, rfl⟩
    simp [settle, hc.sound, isDone_of_undisturbed hc]

theorem execute_of_done (h : c.doneFrom ≠ none) (a : Access) (work : Work α) (s : Space) :
    ∃ e, execute c a work s = (.error e, s) := by
  unfold execute
  cases enter c a with
  | error e => exact ⟨e, rfl⟩
  | ok u => exact settle_of_done (Circumstances.isDone_commit h) (work s) s

end Transaction

namespace Space

open Transaction

variable {c : Circumstances} {s : Space} {kept : ValidatorCache} {α : Type}

/-! ## Units of work -/

theorem createVersion_cutShort (c : Circumstances) (d : SchemaDraft)
    (checked : SchemaDraft.Checked) (s : Space) :
    CutShort (createVersion c d checked s) (createVersion c.unhurried d checked s) := by
  rw [createVersion_eq, createVersion_eq]
  refine CutShort.bind ?_ fun record => .refl _
  refine (CutShort.refl _).bind fun owner => (CutShort.refl _).bind fun version => ?_
  dsimp only
  split
  · exact .refl _
  · refine (CutShort.refl _).bind fun _ => ?_
    split
    · exact .refl _
    · exact (check_cutShort c .midway).bind fun _ => .refl _

theorem activateVersion_cutShort (c : Circumstances) (id : SchemaId) (version : Version)
    (s : Space) :
    CutShort (activateVersion c id version s) (activateVersion c.unhurried id version s) := by
  refine (CutShort.refl _).bind fun found => ?_
  cases found with
  | none => exact .refl _
  | some record =>
    dsimp only
    split
    · exact .refl _
    · exact (check_cutShort c .midway).bind fun _ => .refl _

theorem createWork_cutShort (c : Circumstances) (table : String) (payload : Json)
    (author : Option String) (v : Validator) (s : Space) :
    CutShort (createWork c table payload author v s)
      (createWork c.unhurried table payload author v s) :=
  (CutShort.refl _).bind fun _ => (check_cutShort c .midway).bind fun _ => .refl _

theorem updateWork_cutShort (c : Circumstances) (table : String) (id : EntityId) (payload : Json)
    (author : Option String) (v : Validator) (s : Space) :
    CutShort (updateWork c table id payload author v s)
      (updateWork c.unhurried table id payload author v s) :=
  (CutShort.refl _).bind fun _ => (check_cutShort c .midway).bind fun _ => .refl _

theorem withValidator_cutShort {rest rest' : Validator → Work α} (table : String)
    (h : ∀ v, CutShort (rest v s) (rest' v s)) :
    CutShort (withValidator table rest s kept).1 (withValidator table rest' s kept).1 := by
  unfold withValidator
  cases s.governingSchema table with
  | error e => exact .refl _
  | ok r =>
    dsimp only
    rcases kept.obtain r with ⟨e | v, kept'⟩
    · exact .refl _
    · exact h v

end Space

/-! ## Transactions on categories -/

/-- The steps that do not call the transaction off. -/
def CategoryStep.uncancelled (steps : List CategoryStep) : List CategoryStep :=
  steps.filter fun step => !step.isCancel

/-- Unless it finds the transaction called off or late, a step ends it as it does without hurry,
whether or not it has been called off. -/
theorem CategoryStep.failure?_unhurried (c : Circumstances) (calledOff : Bool)
    (step : CategoryStep) :
    step.failure? c calledOff = some .cancelled ∨
      step.failure? c calledOff = step.failure? c.unhurried calledOff ∧
        step.failure? c calledOff = step.failure? c.unhurried false := by
  cases step with
  | check => cases calledOff <;> cases hdone : c.isDone .midway <;> simp [failure?, hdone]
  | upsert _ _ | delete _ | isLive _ | cancel | fail _ => exact .inr ⟨rfl, rfl⟩

namespace CategoryRun

open CategoryStep Transaction

variable {c : Circumstances} {s : Space}

/-- Unless they are cancelled, the steps show and leave behind what they do without hurry. -/
theorem ofSteps_unhurried (c : Circumstances) (cancelled : Bool) (s : Space)
    (steps : List CategoryStep) :
    (ofSteps c cancelled s steps).outcome = .error .cancelled ∨
      ofSteps c cancelled s steps = ofSteps c.unhurried cancelled s steps := by
  induction steps generalizing cancelled s with
  | nil => exact .inr rfl
  | cons step steps ih =>
    rw [ofSteps_cons, ofSteps_cons]
    rcases step.failure?_unhurried c cancelled with hstep | ⟨hstep, -⟩ <;> rw [hstep]
    · exact .inl rfl
    · cases step.failure? c.unhurried cancelled with
      | some e => exact .inr rfl
      | none => exact (ih _ _).imp_right (congrArg (showing (step.shows s)))

/-- Unless they are cancelled, the steps leave behind what those leave that call nothing off. -/
theorem ofSteps_uncancelled (c : Circumstances) (cancelled : Bool) (s : Space)
    (steps : List CategoryStep) :
    CutShort ((ofSteps c cancelled s steps).outcome.map Prod.fst)
      ((ofSteps c.unhurried false s (CategoryStep.uncancelled steps)).outcome.map Prod.fst) := by
  induction steps generalizing cancelled s with
  | nil => exact .refl _
  | cons step steps ih =>
    cases hcancel : step.isCancel with
    | true =>
      obtain rfl : step = .cancel := by
        cases step with
        | cancel => rfl
        | upsert _ _ | delete _ | isLive _ | check | fail _ => cases hcancel
      exact ih true s
    | false =>
      rw [uncancelled, List.filter_cons_of_pos (by rw [hcancel]; rfl), ← uncancelled, ofSteps_cons,
        ofSteps_cons]
      rcases step.failure?_unhurried c cancelled with hstep | ⟨-, hstep⟩ <;> rw [hstep]
      · exact .inl rfl
      · cases step.failure? c.unhurried false with
        | some e => exact .refl _
        | none =>
          rw [hcancel]
          exact ih _ _

theorem uncancelled_of_ofSteps {s' : Space} {cancelled : Bool} {steps : List CategoryStep}
    (h : (ofSteps c false s (CategoryStep.uncancelled steps)).outcome = .ok (s', cancelled)) :
    cancelled = false := by
  obtain ⟨-, -, rfl⟩ := outcome_eq_ok_iff.1 h
  simp [uncancelled]

/-- How a transaction ends whose steps have come out as given. -/
def conclude (c : Circumstances) (outcome : Except StorageError (Space × Bool)) (s : Space) :
    Except StorageError Unit × Space :=
  match outcome with
  | .error e => (.error e, s)
  | .ok (after, cancelled) =>
    settle (if cancelled then { c with doneFrom := some .entry } else c) (.ok ((), after)) s

theorem execute_of_enter (h : enter c .write = .ok ()) (steps : List CategoryStep) (s : Space) :
    execute c steps s =
      ((ofSteps c false s steps).seen, conclude c (ofSteps c false s steps).outcome s) := by
  simp only [execute, h]
  cases (ofSteps c false s steps).outcome <;> rfl

theorem conclude_unhurried (c : Circumstances) (outcome : Except StorageError (Space × Bool))
    (s : Space) :
    conclude c outcome s = (.error .cancelled, s) ∨
      conclude c outcome s = conclude c.unhurried outcome s := by
  rcases outcome with e | ⟨after, cancelled⟩
  · exact .inr rfl
  · cases cancelled with
    | true => exact .inr rfl
    | false => exact settle_cutShort (.refl (.ok ((), after)))

/-- A transaction that has been called off ends as one that has not only by a fault. -/
theorem conclude_calledOff (c : Circumstances) (after s : Space) :
    conclude c (.ok (after, true)) s = (.error .cancelled, s) ∨
      conclude c (.ok (after, true)) s = conclude c.unhurried (.ok (after, false)) s := by
  cases hfault : c.fault with
  | some e => exact .inr (by simp [conclude, settle, Circumstances.unhurried, hfault])
  | none => exact .inl (by simp [conclude, settle, hfault, Circumstances.isDone, Checkpoint.rank])

theorem conclude_cutShort {x y : Except StorageError (Space × Bool)}
    (h : CutShort (x.map Prod.fst) (y.map Prod.fst)) (hy : ∀ after, y ≠ .ok (after, true)) :
    conclude c x s = (.error .cancelled, s) ∨ conclude c x s = conclude c.unhurried y s := by
  rcases x with e | ⟨after, cancelled⟩ <;> rcases y with e' | ⟨after', cancelled'⟩
  · exact h.imp (fun h => by rw [Except.error.inj h]; rfl) fun h => by rw [Except.error.inj h]; rfl
  · exact .inl (by rw [Except.error.inj (h.resolve_right nofun)]; rfl)
  · exact (h.elim nofun nofun : False).elim
  · obtain rfl : after = after' := h.elim nofun Except.ok.inj
    cases cancelled' with
    | true => exact absurd rfl (hy after)
    | false =>
      cases cancelled with
      | false => exact conclude_unhurried c _ s
      | true => exact conclude_calledOff c after s

/-- **A transaction on categories is cut short or comes out as it does without hurry.** -/
theorem execute_unhurried (c : Circumstances) (steps : List CategoryStep) (s : Space) :
    (execute c steps s).2 = (.error .cancelled, s) ∨
      execute c steps s = execute c.unhurried steps s := by
  rcases enter_cutShort c .write with henter | henter
  · exact .inl (by simp only [execute, henter])
  · cases hunhurried : enter c.unhurried .write with
    | error e => exact .inr (by simp only [execute, henter, hunhurried])
    | ok u =>
      rw [execute_of_enter (henter.trans hunhurried), execute_of_enter hunhurried]
      rcases ofSteps_unhurried c false s steps with hrun | hrun
      · exact .inl (by rw [hrun]; rfl)
      · rw [hrun]
        exact (conclude_unhurried c _ s).imp id fun h => by rw [h]

/-- **A transaction on categories that its own steps call off has no effect, or the effect of the
steps that call nothing off.** -/
theorem execute_uncancelled (c : Circumstances) (steps : List CategoryStep) (s : Space) :
    (execute c steps s).2 = (.error .cancelled, s) ∨
      (execute c steps s).2 = (execute c.unhurried (CategoryStep.uncancelled steps) s).2 := by
  rcases enter_cutShort c .write with henter | henter
  · exact .inl (by simp only [execute, henter])
  · cases hunhurried : enter c.unhurried .write with
    | error e => exact .inr (by simp only [execute, henter, hunhurried])
    | ok u =>
      rw [execute_of_enter (henter.trans hunhurried), execute_of_enter hunhurried]
      exact conclude_cutShort (ofSteps_uncancelled c false s steps) fun after h =>
        Bool.noConfusion (uncancelled_of_ofSteps h)

theorem execute_of_done (h : c.doneFrom ≠ none) (steps : List CategoryStep) (s : Space) :
    ∃ e, (execute c steps s).2 = (.error e, s) := by
  cases henter : enter c .write with
  | error e => exact ⟨e, by simp only [execute, henter]⟩
  | ok u =>
    rw [execute_of_enter henter]
    rcases (ofSteps c false s steps).outcome with e | ⟨after, cancelled⟩
    · exact ⟨e, rfl⟩
    · refine settle_of_done (x := .ok ((), after)) ?_ s
      cases cancelled with
      | true => rfl
      | false => exact Circumstances.isDone_commit h

end CategoryRun

/-! ## Answers -/

namespace Answer

/-- Whether the answer says that something went wrong. -/
def isError : Answer → Bool
  | failure _ | storageError _ | categories _ (.error _) => true
  | _ => false

/-- Whether the answer says that the operation was called off or late. -/
def isCancelled : Answer → Bool
  | failure .cancelled | storageError .cancelled | categories _ (.error .cancelled) => true
  | _ => false

end Answer

namespace Space

open Transaction

variable {c : Circumstances} {s : Space} {kept : ValidatorCache}

/-- What is answered to a request, and the space that is left behind. -/
def outcome (c : Circumstances) (limits : PageLimits) (r : Request) (s : Space)
    (kept : ValidatorCache) : Answer × Space :=
  ((s.answer c limits r kept).1, (s.answer c limits r kept).2.1)

/-- What is told of a transaction, and the space that is left behind. -/
def told {α : Type} (answer : α → Answer) (wording : StorageError → Failure)
    (p : Except StorageError α × Space) : Answer × Space :=
  (.ofResult answer (p.1.mapError wording), p.2)

/-- The ways in which what is answered and left behind depends on the circumstances: not at all,
through a transaction, through one that only reads, or through one on categories. -/
inductive Depends (s : Space) : (Circumstances → Answer × Space) → Prop
  | refused {a : Answer} (h : a.isError = true) : Depends s fun _ => (a, s)
  | changed {α : Type} (answer : α → Answer) {wording : StorageError → Failure} {a : Access}
      {work : Circumstances → Work α} (hwording : wording .cancelled = .cancelled)
      (hwork : ∀ c : Circumstances, CutShort (work c s) (work c.unhurried s)) :
      Depends s fun c => told answer wording (execute c a (work c) s)
  | asked {α : Type} (tell : Except StorageError α → Answer) {work : Work α}
      (hcancelled : (tell (.error .cancelled)).isCancelled = true)
      (herror : ∀ e, (tell (.error e)).isError = true) :
      Depends s fun c => (tell (execute c .read work s).1, s)
  | categories {steps : List CategoryStep} :
      Depends s fun c => (.categories (CategoryRun.execute c steps s).1
        (CategoryRun.execute c steps s).2.1, (CategoryRun.execute c steps s).2.2)

/-- A change of entities is a transaction, whatever becomes of the validators that are kept. -/
theorem Depends.keeping {α : Type} (answer : α → Answer) {wording : StorageError → Failure}
    {table : String} {rest : Circumstances → Validator → Work α}
    (hwording : wording .cancelled = .cancelled)
    (hrest : ∀ c v, CutShort (rest c v s) (rest c.unhurried v s)) :
    Depends s fun c => told answer wording
      ((executeKeeping c .write (withValidator table (rest c)) s kept).1,
        (executeKeeping c .write (withValidator table (rest c)) s kept).2.1) := by
  simp only [executeKeeping_fst]
  exact .changed answer hwording fun c => withValidator_cutShort table (hrest c)

/-- A question whose findings are sifted before they are told. -/
theorem Depends.sifted {α β : Type} {q : Space → Except StorageError α}
    {wording : StorageError → Failure} {sift : α → Except Failure β} {tell : β → Answer}
    (hwording : wording .cancelled = .cancelled) :
    Depends s fun c => (.ofResult tell ((query c q s).mapError wording >>= sift), s) := by
  refine .asked (fun x => .ofResult tell (x.mapError wording >>= sift)) ?_ fun _ => rfl
  simp only [Except.mapError, hwording]
  rfl

/-- **What every request depends on.** -/
theorem outcome_depends (limits : PageLimits) (r : Request) (s : Space) (kept : ValidatorCache) :
    Depends s fun c => outcome c limits r s kept := by
  cases r with
  | createSchema d =>
    simp only [outcome, answer, createSchema]
    cases d.check with
    | error e => exact .refused rfl
    | ok checked =>
      exact .changed .schema rfl fun c => createVersion_cutShort c d checked s
  | activateSchema id version =>
    exact .changed .schema rfl fun c => activateVersion_cutShort c id version s
  | deleteSchema id version =>
    exact .changed (fun _ => .done) rfl fun c => .refl (deleteVersion id version s)
  | createEntity table payload author =>
    exact .keeping .entity rfl fun c v => createWork_cutShort c table payload author v s
  | updateEntity table id payload author =>
    exact .keeping .entity rfl
      fun c v => updateWork_cutShort c table id payload author v s
  | deleteEntity table id =>
    exact .changed (fun _ => .done) rfl fun c => .refl (deleteWork c table id s)
  | listEntities table o =>
    simp only [outcome, answer, listEntities, answer_executeKeeping]
    exact .asked (fun x => .ofResult .page (x.mapError (·.toFailure "list entities"))) rfl
      fun _ => rfl
  | changeCategories steps => exact .categories
  | listVersions id includeDeleted => exact .sifted rfl
  | getSchema id version => exact .sifted rfl
  | getActive id => exact .sifted rfl
  | getActiveForTable table => exact .sifted rfl
  | getEntity table id includeDeleted => exact .sifted rfl
  | listSchemas includeInactive =>
    exact .asked (fun x => .ofResult .schemas (x.mapError (·.toFailure "list schemas"))) rfl
      fun _ => rfl
  | findSchema id version => exact .asked (.ofQuery .found) rfl fun _ => rfl
  | categoryIsLive id => exact .asked (.ofQuery .truth) rfl fun _ => rfl
  | appliedMigration => exact .asked (.ofQuery .migration) rfl fun _ => rfl

/-- Whether `x` is cancelled without an effect, or comes out as `y` does. -/
def Withheld (s : Space) (x y : Answer × Space) : Prop :=
  (∃ a, a.isCancelled = true ∧ x = (a, s)) ∨ x = y

theorem Depends.withheld {f : Circumstances → Answer × Space} (h : Depends s f)
    (c : Circumstances) : Withheld s (f c) (f c.unhurried) := by
  cases h with
  | refused h => exact .inr rfl
  | @changed α answer wording a work hwording hwork =>
    rcases execute_cutShort (c := c) a (hwork c) with h | h
    · exact .inl ⟨.failure .cancelled, rfl, by
        simp only [h, told, Except.mapError, hwording, Answer.ofResult]⟩
    · exact .inr (by simp only [h])
  | @asked α tell work hcancelled herror =>
    rcases execute_cutShort (c := c) .read (.refl (work s)) with h | h
    · exact .inl ⟨_, hcancelled, by simp only [h]⟩
    · exact .inr (by simp only [h])
  | @categories steps =>
    rcases CategoryRun.execute_unhurried c steps s with h | h
    · exact .inl ⟨.categories (CategoryRun.execute c steps s).1 (.error .cancelled), rfl,
        by simp only [h]⟩
    · exact .inr (by simp only [h])

theorem Depends.isError_of_done {f : Circumstances → Answer × Space} (h : Depends s f)
    {c : Circumstances} (hc : c.doneFrom ≠ none) : (f c).1.isError = true := by
  cases h with
  | refused h => exact h
  | @changed α answer wording a work hwording hwork =>
    obtain ⟨e, he⟩ := execute_of_done hc a (work c) s
    simp only [he, told, Except.mapError, Answer.ofResult, Answer.isError]
  | @asked α tell work hcancelled herror =>
    obtain ⟨e, he⟩ := execute_of_done hc .read work s
    simp only [he, herror]
  | @categories steps =>
    obtain ⟨e, he⟩ := CategoryRun.execute_of_done hc steps s
    simp only [he, Answer.isError]

/-- An answer with an error leaves the space as it was. -/
theorem Move.eq_of_isError {r : Request} {a : Answer} {s' : Space} (h : Move c s kept r a s')
    (ha : a.isError = true) : s' = s := by
  cases h with
  | rest h => rfl
  | createSchema | activateSchema | deleteSchema | createEntity | updateEntity | deleteEntity
  | changeCategories => cases ha

end Space

open Space

/-- **All or nothing.** At whatever checkpoint a request is called off or found to be late, it is
cancelled and leaves the space as it was, or it is answered and leaves behind what it would without
hurry; to succeed it has to be in time. An answer with an error of any kind leaves the space as it
was. A transaction on categories may also be called off between any two of its steps, and then it is
cancelled without an effect or ends as it would without being called off. -/
theorem all_or_nothing (c : Circumstances) (limits : PageLimits) (r : Request) (s : Space)
    (kept : ValidatorCache) :
    let result := outcome c limits r s kept
    Withheld s result (outcome c.unhurried limits r s kept) ∧
      (c.doneFrom ≠ none → result.1.isError = true) ∧
      (result.1.isError = true → result.2 = s) ∧
      ∀ steps, (CategoryRun.execute c steps s).2 = (.error .cancelled, s) ∨
        (CategoryRun.execute c steps s).2 =
          (CategoryRun.execute c.unhurried (CategoryStep.uncancelled steps) s).2 :=
  ⟨(outcome_depends limits r s kept).withheld c,
    fun hc => (outcome_depends limits r s kept).isError_of_done hc,
    (answer_move c limits r s kept).eq_of_isError,
    fun steps => CategoryRun.execute_uncancelled c steps s⟩

end SchemaVault
