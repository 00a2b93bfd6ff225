import SchemaVault.Proofs.Schemas.Changes
import SchemaVault.Proofs.Entities.Changes
import SchemaVault.Proofs.Space.Categories
import SchemaVault.Vault.Request

/-!
# What a request can do

Every answer to a request is a `Move`: either the request is a question or is refused, and then the
space is as before, or it is carried out, and then the space is what its unit of work leaves
(`answer_move`). Of what is kept outside the space, a request can only add the validator of a
version that governs a table (`answer_kept`). What a request preserves is proved once for each kind
of move, without a look at transactions, disturbances and the wording of failures. Each of them
touches versions, entities or categories and nothing else (`Move.touches`). For the schema versions
four kinds are enough (`Move.turn`): only the three changes of versions touch them.
-/

namespace SchemaVault

/-- Whether an answer says that schema versions have been changed as requested. -/
def Request.changesVersions : Request → Answer → Bool
  | .createSchema _, .schema _ => true
  | .activateSchema _ _, .schema _ => true
  | .deleteSchema _ _, .done => true
  | _, _ => false

/-- Whether an answer says that something has been changed as requested. -/
def Request.isCarriedOut (r : Request) (a : Answer) : Bool :=
  r.changesVersions a ||
    match r, a with
    | .createEntity _ _ _, .entity _ => true
    | .updateEntity _ _ _ _, .entity _ => true
    | .deleteEntity _ _, .done => true
    | .changeCategories _, .categories _ (.ok ()) => true
    | _, _ => false

/-- The steps on categories that a request has carried out. -/
def Request.stepsCarriedOut : Request → Answer → List CategoryStep
  | .changeCategories steps, .categories _ (.ok ()) => steps
  | _, _ => []

/-- Whether a request is to change an entity. -/
def Request.changesEntity : Request → Bool
  | .createEntity _ _ _ | .updateEntity _ _ _ _ | .deleteEntity _ _ => true
  | _ => false

namespace Space

/-- What a request can do to a space, and what is answered then. -/
inductive Move (c : Circumstances) (s : Space) (kept : ValidatorCache) :
    Request → Answer → Space → Prop
  | rest {r a} (h : r.isCarriedOut a = false) : Move c s kept r a s
  | createSchema {d checked record s'} (hd : d.check = .ok checked)
      (h : createVersion c d checked s = .ok (record, s')) :
      Move c s kept (.createSchema d) (.schema record) s'
  | activateSchema {id version record s'}
      (h : activateVersion c id version s = .ok (record, s')) :
      Move c s kept (.activateSchema id version) (.schema record) s'
  | deleteSchema {id version s'} (h : deleteVersion id version s = .ok ((), s')) :
      Move c s kept (.deleteSchema id version) .done s'
  | createEntity {table payload author v record s'} (hv : s.Guards kept table v)
      (h : createWork c table payload author v s = .ok (record, s')) :
      Move c s kept (.createEntity table payload author) (.entity record) s'
  | updateEntity {table id payload author v record s'} (hv : s.Guards kept table v)
      (h : updateWork c table id payload author v s = .ok (record, s')) :
      Move c s kept (.updateEntity table id payload author) (.entity record) s'
  | deleteEntity {table id s'} (h : deleteWork c table id s = .ok ((), s')) :
      Move c s kept (.deleteEntity table id) .done s'
  | changeCategories {steps seen cancelled s'}
      (h : (CategoryRun.ofSteps c false s steps).outcome = .ok (s', cancelled)) :
      Move c s kept (.changeCategories steps) (.categories seen (.ok ())) s'

variable {s : Space} {kept : ValidatorCache} {c : Circumstances}

/-- A transaction on categories goes through or leaves the space alone. -/
theorem categoryRun_cases (c : Circumstances) (steps : List CategoryStep) (s : Space) :
    (∃ seen e, CategoryRun.execute c steps s = (seen, .error e, s)) ∨
      ∃ seen cancelled s', (CategoryRun.ofSteps c false s steps).outcome = .ok (s', cancelled) ∧
        CategoryRun.execute c steps s = (seen, .ok (), s') := by
  unfold CategoryRun.execute
  cases Transaction.enter c .write with
  | error e => exact .inl ⟨[], e, rfl⟩
  | ok u =>
    dsimp only
    cases (CategoryRun.ofSteps c false s steps).outcome with
    | error e => exact .inl ⟨_, e, rfl⟩
    | ok p =>
      obtain ⟨after, cancelled⟩ := p
      dsimp only
      rcases Transaction.settle_cases (if cancelled then { c with doneFrom := some .entry } else c)
        (.ok ((), after)) s with ⟨e, h⟩ | ⟨_, after', hwork, h⟩
      · exact .inl ⟨(CategoryRun.ofSteps c false s steps).seen, e, by rw [h]⟩
      · obtain ⟨-, rfl⟩ := Prod.mk.inj (Except.ok.inj hwork)
        exact .inr ⟨(CategoryRun.ofSteps c false s steps).seen, cancelled, after, rfl, by rw [h]⟩

/-- **Every answer is a move.** -/
theorem answer_move (c : Circumstances) (limits : PageLimits) (r : Request) (s : Space)
    (kept : ValidatorCache) :
    Move c s kept r (s.answer c limits r kept).1 (s.answer c limits r kept).2.1 := by
  cases r with
  | createSchema d =>
    simp only [answer, createSchema]
    cases hd : d.check with
    | error e => exact .rest rfl
    | ok checked =>
      rcases Transaction.execute_cases c .write (createVersion c d checked) s with
        ⟨e, h⟩ | ⟨record, after, hwork, h⟩ <;> simp only [h]
      · exact .rest rfl
      · exact .createSchema hd hwork
  | activateSchema id version =>
    simp only [answer, activateSchema]
    rcases Transaction.execute_cases c .write (activateVersion c id version) s with
      ⟨e, h⟩ | ⟨record, after, hwork, h⟩ <;> simp only [h]
    · exact .rest rfl
    · exact .activateSchema hwork
  | deleteSchema id version =>
    simp only [answer, deleteSchema]
    rcases Transaction.execute_cases c .write (deleteVersion id version) s with
      ⟨e, h⟩ | ⟨_, after, hwork, h⟩ <;> simp only [h]
    · exact .rest rfl
    · exact .deleteSchema hwork
  | createEntity table payload author =>
    simp only [answer, createEntity]
    rcases Transaction.executeKeeping_cases c .write
      (withValidator table (createWork c table payload author)) s kept with
      ⟨e, h⟩ | ⟨e, h⟩ | ⟨record, after, hwork, h⟩ <;> simp only [h]
    · exact .rest rfl
    · exact .rest rfl
    · obtain ⟨v, hv, hwork⟩ := withValidator_eq_ok hwork
      exact .createEntity hv hwork
  | updateEntity table id payload author =>
    simp only [answer, updateEntity]
    rcases Transaction.executeKeeping_cases c .write
      (withValidator table (updateWork c table id payload author)) s kept with
      ⟨e, h⟩ | ⟨e, h⟩ | ⟨record, after, hwork, h⟩ <;> simp only [h]
    · exact .rest rfl
    · exact .rest rfl
    · obtain ⟨v, hv, hwork⟩ := withValidator_eq_ok hwork
      exact .updateEntity hv hwork
  | deleteEntity table id =>
    simp only [answer, deleteEntity]
    rcases Transaction.execute_cases c .write (deleteWork c table id) s with
      ⟨e, h⟩ | ⟨_, after, hwork, h⟩ <;> simp only [h]
    · exact .rest rfl
    · exact .deleteEntity hwork
  | changeCategories steps =>
    simp only [answer]
    rcases categoryRun_cases c steps s with ⟨seen, e, h⟩ | ⟨seen, cancelled, after, hrun, h⟩ <;>
      simp only [h]
    · exact .rest rfl
    · exact .changeCategories hrun
  | listVersions _ _ | listSchemas _ | getSchema _ _ | getActive _ | getActiveForTable _
  | findSchema _ _ | getEntity _ _ _ | listEntities _ _ | categoryIsLive _ | appliedMigration =>
    exact .rest rfl

/-- What a transaction keeps that obtains the validator of a table first. -/
theorem executeKeeping_kept {α : Type} (c : Circumstances) (a : Access) (table : String)
    (rest : Validator → Work α) (s : Space) (kept : ValidatorCache) :
    (Transaction.executeKeeping c a (withValidator table rest) s kept).2.2 = kept ∨
      ∃ record v, s.governingSchema table = .ok record ∧
        ValidatorCache.compiled record = .ok v ∧
        (Transaction.executeKeeping c a (withValidator table rest) s kept).2.2 = kept.keep v := by
  have hkept := withValidator_kept table s kept rest
  rcases Transaction.executeKeeping_cases c a (withValidator table rest) s kept with
    ⟨e, hrun⟩ | ⟨e, hrun⟩ | ⟨result, after, -, hrun⟩ <;> rw [hrun]
  · exact .inl rfl
  · exact hkept
  · exact hkept

/-- **What is kept after a request**: what was kept before it, and at most the validator of a
version that governs a table. -/
theorem answer_kept (c : Circumstances) (limits : PageLimits) (r : Request) (s : Space)
    (kept : ValidatorCache) :
    (s.answer c limits r kept).2.2 = kept ∨
      ∃ table record v, s.governingSchema table = .ok record ∧
        ValidatorCache.compiled record = .ok v ∧
        (s.answer c limits r kept).2.2 = kept.keep v := by
  cases r with
  | createEntity table payload author =>
    have hkept := executeKeeping_kept c .write table (createWork c table payload author) s kept
    exact hkept.imp_right fun h => ⟨table, h⟩
  | updateEntity table id payload author =>
    have hkept := executeKeeping_kept c .write table (updateWork c table id payload author) s kept
    exact hkept.imp_right fun h => ⟨table, h⟩
  | listEntities table options =>
    have hkept := executeKeeping_kept c .read table (listWork limits table options) s kept
    exact hkept.imp_right fun h => ⟨table, h⟩
  | createSchema _ | listVersions _ _ | listSchemas _ | getSchema _ _ | getActive _
  | getActiveForTable _ | activateSchema _ _ | deleteSchema _ _ | findSchema _ _
  | getEntity _ _ _ | deleteEntity _ _ | changeCategories _ | categoryIsLive _
  | appliedMigration => exact .inl rfl

/-! ## What a move does to the rows -/

/-- A transaction on categories leaves versions and entities alone. -/
theorem rows_of_ofSteps {cancelled cancelled' : Bool} {steps : List CategoryStep} {s' : Space}
    (h : (CategoryRun.ofSteps c cancelled s steps).outcome = .ok (s', cancelled')) :
    s'.versions = s.versions ∧ s'.entities = s.entities := by
  obtain ⟨-, rfl, -⟩ := CategoryRun.outcome_eq_ok_iff.1 h
  exact s.rows_afterSteps steps

/-- **What a move touches**: either versions or entities, or, with a transaction that goes through,
categories. -/
theorem Move.touches {r : Request} {a : Answer} {s' : Space} (h : Move c s kept r a s') :
    r.stepsCarriedOut a = [] ∧ (∃ versions, s' = { s with versions }) ∨
      r.stepsCarriedOut a = [] ∧ r.changesEntity = true ∧ (∃ entities, s' = { s with entities }) ∨
      ∃ cancelled, (CategoryRun.ofSteps c false s (r.stepsCarriedOut a)).outcome =
        .ok (s', cancelled) := by
  cases h with
  | rest h =>
    refine .inl ⟨?_, s.versions, rfl⟩
    unfold Request.stepsCarriedOut
    split
    · cases h
    · rfl
  | createSchema hd h =>
    rw [createVersion_eq] at h
    obtain ⟨record, -, h⟩ := Transaction.bind_eq_ok.1 h
    obtain ⟨after, hstore, h⟩ := Transaction.bind_eq_ok.1 h
    obtain ⟨rfl, rfl⟩ := Prod.mk.inj (Transaction.pure_eq_ok.1 h)
    obtain ⟨-, -, -, rfl⟩ := storePlanned_eq_ok_iff.1 hstore
    exact .inl ⟨rfl, _, rfl⟩
  | activateSchema h =>
    obtain ⟨_, -, -, -, hmark, -⟩ := activateVersion_eq_ok_iff.1 h
    obtain ⟨-, rfl⟩ := markActive_eq_ok_iff.1 hmark
    exact .inl ⟨rfl, _, rfl⟩
  | deleteSchema h =>
    obtain ⟨-, rfl⟩ := deleteVersion_eq_ok_iff.1 h
    exact .inl ⟨rfl, _, rfl⟩
  | createEntity hv h =>
    obtain ⟨-, -, -, hinsert⟩ := createWork_eq_ok_iff.1 h
    obtain ⟨-, rfl⟩ := insertEntity_eq_ok_iff.1 hinsert
    exact .inr (.inl ⟨rfl, rfl, _, rfl⟩)
  | updateEntity hv h =>
    obtain ⟨-, -, hchange, -⟩ := updateWork_eq_ok_iff.1 h
    obtain ⟨-, rfl⟩ := changeEntity_eq_ok_iff.1 hchange
    exact .inr (.inl ⟨rfl, rfl, _, rfl⟩)
  | deleteEntity h =>
    obtain ⟨-, hchange⟩ := deleteWork_eq_ok_iff.1 h
    obtain ⟨-, rfl⟩ := changeEntity_eq_ok_iff.1 hchange
    exact .inr (.inl ⟨rfl, rfl, _, rfl⟩)
  | changeCategories h => exact .inr (.inr ⟨_, h⟩)

/-- **Only a request to change an entity changes entities.** -/
theorem Move.entities {r : Request} {a : Answer} {s' : Space} (h : Move c s kept r a s')
    (hr : r.changesEntity = false) : s'.entities = s.entities := by
  rcases h.touches with ⟨-, versions, rfl⟩ | ⟨-, hchanges, -⟩ | ⟨_, hrun⟩
  · rfl
  · cases hr.symm.trans hchanges
  · exact (rows_of_ofSteps hrun).2

/-- What a move does to the schema versions: nothing, or one of the three changes of versions. -/
inductive Turn (c : Circumstances) (s : Space) : Request → Answer → Space → Prop
  | rest {r a s'} (h : s'.versions = s.versions) (hr : r.changesVersions a = false) :
      Turn c s r a s'
  | create {d checked record s'} (hd : d.check = .ok checked)
      (hplan : planBy SchemaVersion.first? SchemaVersion.latest? c d checked s = .ok record)
      (hstore : s.storePlanned record = .ok s') : Turn c s (.createSchema d) (.schema record) s'
  | activate {id version record s'} (h : activateVersion c id version s = .ok (record, s')) :
      Turn c s (.activateSchema id version) (.schema record) s'
  | delete {id version s'} (h : deleteVersion id version s = .ok ((), s')) :
      Turn c s (.deleteSchema id version) .done s'

theorem Move.turn {r : Request} {a : Answer} {s' : Space} (h : Move c s kept r a s') :
    Turn c s r a s' := by
  cases h with
  | rest h => exact .rest rfl (Bool.or_eq_false_iff.1 h).1
  | createSchema hd h =>
    rw [createVersion_eq] at h
    obtain ⟨record, hplan, h⟩ := Transaction.bind_eq_ok.1 h
    obtain ⟨after, hstore, h⟩ := Transaction.bind_eq_ok.1 h
    obtain ⟨rfl, rfl⟩ := Prod.mk.inj (Transaction.pure_eq_ok.1 h)
    exact .create hd hplan hstore
  | activateSchema h => exact .activate h
  | deleteSchema h => exact .delete h
  | createEntity hv h =>
    obtain ⟨-, -, -, hinsert⟩ := createWork_eq_ok_iff.1 h
    obtain ⟨-, rfl⟩ := insertEntity_eq_ok_iff.1 hinsert
    exact .rest rfl rfl
  | updateEntity hv h =>
    obtain ⟨-, -, hchange, -⟩ := updateWork_eq_ok_iff.1 h
    obtain ⟨-, rfl⟩ := changeEntity_eq_ok_iff.1 hchange
    exact .rest rfl rfl
  | deleteEntity h =>
    obtain ⟨-, hchange⟩ := deleteWork_eq_ok_iff.1 h
    obtain ⟨-, rfl⟩ := changeEntity_eq_ok_iff.1 hchange
    exact .rest rfl rfl
  | changeCategories h => exact .rest (rows_of_ofSteps h).1 rfl

/-- **Versions are never removed or altered**: but for their flags they stay as they are, in their
order, and a creation, whose draft has passed its checks, adds its row at the end. -/
theorem Turn.lasting {r : Request} {a : Answer} {s' : Space} (h : Turn c s r a s') :
    s'.versions.map SchemaVersion.lasting = s.versions.map SchemaVersion.lasting ∨
      ∃ d checked record, r = .createSchema d ∧ d.check = .ok checked ∧
        planBy SchemaVersion.first? SchemaVersion.latest? c d checked s = .ok record ∧
        s'.versions.map SchemaVersion.lasting =
          (s.versions ++ [rowOf record]).map SchemaVersion.lasting := by
  cases h with
  | rest h => exact .inl (by rw [h])
  | create hd hplan hstore =>
    obtain ⟨-, -, -, rfl⟩ := storePlanned_eq_ok_iff.1 hstore
    refine .inr ⟨_, _, _, rfl, hd, hplan, ?_⟩
    rw [List.map_append, List.map_append, deactivate_lasting]
  | activate h =>
    obtain ⟨_, -, -, -, hmark, -⟩ := activateVersion_eq_ok_iff.1 h
    obtain ⟨-, rfl⟩ := markActive_eq_ok_iff.1 hmark
    exact .inl ((map_lasting (fun v => by split <;> rfl) _).trans (deactivate_lasting _ _ _))
  | delete h =>
    obtain ⟨-, rfl⟩ := deleteVersion_eq_ok_iff.1 h
    exact .inl (map_lasting (fun v => by split <;> rfl) _)

end Space

end SchemaVault
