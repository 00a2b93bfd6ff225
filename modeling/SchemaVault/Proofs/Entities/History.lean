import SchemaVault.Proofs.Schemas.SingleActive
import Mathlib.Data.List.Induction

/-!
# Entities by their histories

The events in the history of an entity are its creation, its updates and its deletion, as far as
they have been answered with success. A history is empty or a `Life`: one creation, then updates,
then at most one deletion. It determines the stored row, and there is at most one
(`Site.tells_after`). What is found of an entity at the end of a run can so be read off what
happened to it during the run, however its table has changed hands in between.

A payload is stored as text, and what is found is what the text reads back as. A number may come
back as a neighbouring one (`payload_altered`), so the payload that is found need not be the one
that was written.
-/

namespace SchemaVault

/-! ## Histories -/

/-- A payload as it is written to an entity, by whom and when, with the number of the version that
governs the table at that time. -/
structure Writing where
  payload : Json
  schemaId : SchemaId
  version : Version
  author : Option String
  time : Int64

/-- What can happen to an entity. -/
inductive EntityEvent
  | created (w : Writing)
  | updated (w : Writing)
  | deleted (time : Int64)

namespace Space

/-- What is written to a table, if a live version governs it. -/
def writing? (s : Space) (table : String) (payload : Json) (author : Option String)
    (time : Int64) : Option Writing :=
  (s.versions.find? fun v => v.tableName == table && v.isLive).map fun v =>
    ⟨payload, v.schemaId, v.version, author, time⟩

/-- What has happened to an entity of a table if a request is answered in a certain way. -/
def event? (s : Space) (time : Int64) (table : String) (id : EntityId) :
    Request → Answer → Option EntityEvent
  | .createEntity t payload author, .entity record =>
    if t = table ∧ record.id = id then (s.writing? table payload author time).map .created
    else none
  | .updateEntity t i payload author, .entity _ =>
    if t = table ∧ i = id then (s.writing? table payload author time).map .updated else none
  | .deleteEntity t i, .done => if t = table ∧ i = id then some (.deleted time) else none
  | _, _ => none

end Space

namespace Site

/-- What happens to an entity of a table in a step. -/
def event? (site : Site) (table : String) (id : EntityId) : Step → Option EntityEvent
  | .opening _ => none
  | .asking handle c limits r =>
    site.space.event? c.now table id r (site.space.answer c limits r (site.kept handle)).1

/-- What happens to an entity of a table in a run. -/
def eventsOf (site : Site) (table : String) (id : EntityId) : List Step → List EntityEvent
  | [] => []
  | step :: run => (site.event? table id step).toList ++ (site.next step).eventsOf table id run

theorem eventsOf_concat {site : Site} {table : String} {id : EntityId} {run : List Step}
    {step : Step} :
    site.eventsOf table id (run ++ [step]) =
      site.eventsOf table id run ++ ((site.after run).event? table id step).toList := by
  induction run generalizing site with
  | nil => simp [eventsOf, after]
  | cons first run ih =>
    rw [List.cons_append, eventsOf, ih, eventsOf, List.append_assoc]
    rfl

end Site

/-! ## Lives -/

/-- The life of an entity, as long as it lasts. -/
structure Life where
  creation : Writing
  updates : List Writing
  /-- The time of the deletion. -/
  deletion : Option Int64

namespace Life

/-- What happens in a life. -/
def events (l : Life) : List EntityEvent :=
  .created l.creation :: l.updates.map .updated ++ (l.deletion.map .deleted).toList

/-- What has been written last. -/
def last (l : Life) : Writing := l.updates.getLast?.getD l.creation

/-- The row of an entity after a life: the creation decides when and by whom it was created, the
last writing all that can be written, and the deletion whether and when it was deleted. -/
def row (l : Life) (table : String) (id : EntityId) : EntityRow where
  id := id
  tableName := table
  payload := l.last.payload.print
  schemaId := l.last.schemaId
  schemaVersion := l.last.version
  createdAt := l.creation.time
  updatedAt := l.last.time
  deletedAt := l.deletion
  deleted := l.deletion.isSome
  createdBy := l.creation.author
  updatedBy := l.updates.getLast?.bind (·.author)

end Life

theorem EntityRow.read_eq_ok {row : EntityRow} {r : EntityRecord} :
    EntityRow.read row = .ok r ↔
      Json.read? row.payload = some r.payload ∧ row.withPayload r.payload = r := by
  unfold EntityRow.read
  cases Json.read? row.payload with
  | none => simp
  | some payload =>
    simp only [Except.ok.injEq, Option.some.injEq]
    constructor
    · rintro rfl
      exact ⟨rfl, rfl⟩
    · rintro ⟨rfl, h⟩
      exact h

namespace Space

variable {s s' : Space} {c : Circumstances} {kept : ValidatorCache} {table t : String}
variable {id i : EntityId} {payload : Json} {author : Option String} {v : Validator}

/-! ## The rows of an entity -/

/-- Whether a row is the entity of a table that has an identifier, deleted or not. -/
def isEntity (table : String) (id : EntityId) (e : EntityRow) : Bool :=
  e.id == id && e.tableName == table

theorem isEntity_iff {e : EntityRow} : isEntity table id e ↔ e.id = id ∧ e.tableName = table := by
  simp [isEntity]

/-- The rows of an entity, of which there will be one at most. -/
def rowsOf (s : Space) (table : String) (id : EntityId) : List EntityRow :=
  s.entities.filter (isEntity table id)

/-- What an update makes of a row. -/
def Writing.rewrite (w : Writing) (e : EntityRow) : EntityRow :=
  { e with
    payload := w.payload.print
    schemaId := w.schemaId
    schemaVersion := w.version
    updatedAt := w.time
    updatedBy := w.author }

/-- The rows of an entity before and after an event. -/
inductive Befalls (table : String) (id : EntityId) :
    Option EntityEvent → List EntityRow → List EntityRow → Prop
  | nothing {rows} : Befalls table id none rows rows
  | created {w} : Befalls table id (some (.created w)) [] [(Life.mk w [] none).row table id]
  | updated {w rows} (h : ∃ e ∈ rows, e.deleted = false) :
      Befalls table id (some (.updated w)) rows
        (rows.map fun e => if e.deleted then e else Writing.rewrite w e)
  | deleted {time rows} (h : ∃ e ∈ rows, e.deleted = false) :
      Befalls table id (some (.deleted time)) rows
        (rows.map fun e =>
          if e.deleted then e else { e with deleted := true, deletedAt := some time })

/-- What is written under a validator that guards a table has the number of the version that
governs the table. -/
theorem Guards.writing? (h : s.Guards kept table v) (payload : Json) (author : Option String)
    (time : Int64) :
    s.writing? table payload author time = some ⟨payload, v.schemaId, v.version, author, time⟩ := by
  obtain ⟨r, hgoverning, hobtain⟩ := h
  obtain ⟨row, hrow, hread⟩ := governingSchema_eq_ok_iff.1 hgoverning
  obtain ⟨_, -, rfl⟩ := VersionRow.read_eq_ok.1 hread
  have hnumber : v.schemaId = row.schemaId ∧ v.version = row.version := by
    rcases obtain_cases hobtain with ⟨-, hid, hversion⟩ | hcompiled
    · exact ⟨hid, hversion⟩
    · obtain ⟨hid, hversion, -⟩ := compiled_eq_ok_iff.1 hcompiled
      exact ⟨hid, hversion⟩
  rw [Space.writing?, hrow, Option.map_some, hnumber.1, hnumber.2]

/-- A request that is to change no entity, or is not carried out, is no event. -/
theorem event?_of_rest {r : Request} {a : Answer} {time : Int64}
    (h : r.changesEntity = false ∨ r.isCarriedOut a = false) :
    s.event? time table id r a = none := by
  unfold event?
  split
  · rcases h with h | h <;> cases h
  · rcases h with h | h <;> cases h
  · rcases h with h | h <;> cases h
  · rfl

/-- A change of an entity of a table changes its rows that are not deleted, of which there has to
be one, and leaves those of other entities alone. -/
theorem rowsOf_changeEntity {f : EntityRow → EntityRow}
    (hf : ∀ e, (f e).id = e.id ∧ (f e).tableName = e.tableName)
    (h : s.changeEntity t i f = .ok s') (table : String) (id : EntityId) :
    (t = table ∧ i = id → (∃ e ∈ s.rowsOf table id, e.deleted = false) ∧
      s'.rowsOf table id = (s.rowsOf table id).map fun e => if e.deleted then e else f e) ∧
    (¬(t = table ∧ i = id) → s'.rowsOf table id = s.rowsOf table id) := by
  obtain ⟨⟨e, he, hlive⟩, hs⟩ := changeEntity_eq_ok_iff.1 h
  have hkeeps : (isEntity table id ∘ fun e => if isLiveEntity t i e then f e else e) =
      isEntity table id := by
    funext e
    simp only [Function.comp_apply, isEntity]
    split
    · rw [(hf e).1, (hf e).2]
    · rfl
  have hrows : s'.rowsOf table id =
      (s.rowsOf table id).map fun e => if isLiveEntity t i e then f e else e := by
    rw [← hs, rowsOf, List.filter_map, hkeeps, rowsOf]
  rw [hrows]
  constructor
  · rintro ⟨rfl, rfl⟩
    simp only [isLiveEntity, Bool.and_eq_true, Bool.not_eq_true'] at hlive
    refine ⟨⟨e, List.mem_filter.2 ⟨he, by simpa [isEntity] using hlive.1⟩, hlive.2⟩,
      List.map_congr_left fun u hu => ?_⟩
    have hu : isEntity t i u = true := (List.mem_filter.1 hu).2
    change (if isEntity t i u && !u.deleted then _ else _) = _
    rw [hu]
    cases u.deleted <;> rfl
  · intro hother
    refine (List.map_congr_left fun u hu => ?_).trans (List.map_id _)
    obtain ⟨hid, htable⟩ := isEntity_iff.1 (List.mem_filter.1 hu).2
    rw [if_neg]
    · rfl
    · simp only [isLiveEntity, Bool.and_eq_true, beq_iff_eq, not_and]
      exact fun hu _ => hother ⟨hu.2.symm.trans htable, hu.1.symm.trans hid⟩

/-- **What a move does to an entity** is what happens to the entity in it. -/
theorem Move.befalls {r : Request} {a : Answer} (h : Move c s kept r a s') (table : String)
    (id : EntityId) :
    Befalls table id (s.event? c.now table id r a) (s.rowsOf table id) (s'.rowsOf table id) := by
  cases hr : r.changesEntity with
  | false =>
    rw [event?_of_rest (.inl hr), rowsOf, rowsOf, h.entities hr]
    exact .nothing
  | true =>
  cases h with
  | rest h =>
    rw [event?_of_rest (.inr h)]
    exact .nothing
  | createSchema | activateSchema | deleteSchema | changeCategories => cases hr
  | @createEntity t payload author v record _ hv h =>
    obtain ⟨-, -, rfl, hinsert⟩ := createWork_eq_ok_iff.1 h
    obtain ⟨hnew, rfl⟩ := insertEntity_eq_ok_iff.1 hinsert
    have hrows : ({ s with entities := s.entities ++ [newEntityRow c t author v payload] } :
        Space).rowsOf table id =
        s.rowsOf table id ++ [newEntityRow c t author v payload].filter (isEntity table id) :=
      List.filter_append ..
    rw [hrows]
    by_cases hthis : t = table ∧ (⟨c.fresh⟩ : EntityId) = id
    · obtain ⟨rfl, rfl⟩ := hthis
      have hnone : s.rowsOf t ⟨c.fresh⟩ = [] :=
        List.filter_eq_nil_iff.2 fun e he hentity => hnew e he (isEntity_iff.1 hentity).1
      have hevent : s.event? c.now t ⟨c.fresh⟩ (.createEntity t payload author)
          (.entity (newEntity c t ⟨v.schemaId, v.version, payload⟩ author)) =
          some (.created ⟨payload, v.schemaId, v.version, author, c.now⟩) := by
        simp only [event?, newEntity, and_self, if_true, hv.writing?, Option.map_some]
      have hrow : [newEntityRow c t author v payload].filter (isEntity t ⟨c.fresh⟩) =
          [newEntityRow c t author v payload] :=
        List.filter_eq_self.2 (by simp [isEntity, newEntityRow, newEntity, Entity.withPayload])
      rw [hnone, hevent, hrow]
      exact .created
    · have hevent : s.event? c.now table id (.createEntity t payload author)
          (.entity (newEntity c t ⟨v.schemaId, v.version, payload⟩ author)) = none := if_neg hthis
      have hrow : [newEntityRow c t author v payload].filter (isEntity table id) = [] :=
        List.filter_eq_nil_iff.2 fun e he hentity => by
          obtain rfl := List.mem_singleton.1 he
          exact hthis (isEntity_iff.1 hentity).symm
      rw [hevent, hrow, List.append_nil]
      exact .nothing
  | @updateEntity t i payload author v record _ hv h =>
    obtain ⟨-, -, hchange, -⟩ := updateWork_eq_ok_iff.1 h
    obtain ⟨hthis, hother⟩ := rowsOf_changeEntity (f := updatedRow c author v payload)
      (fun _ => ⟨rfl, rfl⟩) hchange table id
    by_cases hsame : t = table ∧ i = id
    · obtain ⟨hlive, hrows⟩ := hthis hsame
      obtain ⟨rfl, rfl⟩ := hsame
      have hevent : s.event? c.now t i (.updateEntity t i payload author) (.entity record) =
          some (.updated ⟨payload, v.schemaId, v.version, author, c.now⟩) := by
        simp only [event?, and_self, if_true, hv.writing?, Option.map_some]
      rw [hevent, hrows]
      exact .updated hlive
    · have hevent : s.event? c.now table id (.updateEntity t i payload author) (.entity record) =
          none := if_neg hsame
      rw [hevent, hother hsame]
      exact .nothing
  | @deleteEntity t i _ h =>
    obtain ⟨-, hchange⟩ := deleteWork_eq_ok_iff.1 h
    obtain ⟨hthis, hother⟩ := rowsOf_changeEntity
      (f := fun e => { e with deleted := true, deletedAt := some c.now })
      (fun _ => ⟨rfl, rfl⟩) hchange table id
    by_cases hsame : t = table ∧ i = id
    · obtain ⟨hlive, hrows⟩ := hthis hsame
      have hevent : s.event? c.now table id (.deleteEntity t i) .done = some (.deleted c.now) :=
        if_pos hsame
      rw [hevent, hrows]
      exact .deleted hlive
    · have hevent : s.event? c.now table id (.deleteEntity t i) .done = none := if_neg hsame
      rw [hevent, hother hsame]
      exact .nothing

/-! ## What a history tells -/

/-- Whether the events are those of a life, or none, and the rows those that it leaves. -/
def Tells (table : String) (id : EntityId) (events : List EntityEvent) (rows : List EntityRow) :
    Prop :=
  ∃ life : Option Life, events = life.elim [] Life.events ∧
    rows = (life.map (·.row table id)).toList

/-- The life that a row tells of which is not deleted has not ended. -/
theorem exists_of_live {life : Option Life} {rows : List EntityRow}
    (hrows : (life.map (·.row table id)).toList = rows) (h : ∃ e ∈ rows, e.deleted = false) :
    ∃ l, life = some l ∧ rows = [l.row table id] ∧ l.deletion = none := by
  subst hrows
  obtain ⟨e, he, hdeleted⟩ := h
  cases life with
  | none => cases he
  | some l =>
    obtain rfl := List.mem_singleton.1 he
    exact ⟨l, rfl, rfl, Option.isNone_iff_eq_none.1 (Option.isSome_eq_false_iff.1 hdeleted)⟩

/-- An event that befalls the rows of a life continues the life. -/
theorem Tells.befalls {events : List EntityEvent} {event : Option EntityEvent}
    {rows rows' : List EntityRow} (h : Tells table id events rows)
    (hevent : Befalls table id event rows rows') :
    Tells table id (events ++ event.toList) rows' := by
  obtain ⟨life, rfl, rfl⟩ := h
  generalize hrows : (life.map (·.row table id)).toList = rows at hevent
  cases hevent with
  | nothing => exact ⟨life, List.append_nil _, hrows.symm⟩
  | @created w =>
    cases life with
    | some l => cases hrows
    | none => exact ⟨some ⟨w, [], none⟩, rfl, rfl⟩
  | @updated w _ hlive =>
    obtain ⟨l, rfl, rfl, hl⟩ := exists_of_live hrows hlive
    refine ⟨some { l with updates := l.updates ++ [w] }, ?_, ?_⟩
    · simp [Life.events, hl]
    · simp [Life.row, Life.last, hl, Writing.rewrite]
  | @deleted time _ hlive =>
    obtain ⟨l, rfl, rfl, hl⟩ := exists_of_live hrows hlive
    refine ⟨some { l with deletion := some time }, ?_, ?_⟩
    · simp [Life.events, hl]
    · simp [Life.row, Life.last, hl]

/-- Nothing befalls an entity that has been deleted. -/
theorem Befalls.eq_of_deleted {event : Option EntityEvent} {rows rows' : List EntityRow}
    (h : Befalls table id event rows rows') (hne : rows ≠ [])
    (hdeleted : ∀ e ∈ rows, e.deleted = true) : event = none ∧ rows' = rows := by
  have hnone : ¬∃ e ∈ rows, e.deleted = false := fun ⟨e, he, hlive⟩ => by
    rw [hdeleted e he] at hlive
    cases hlive
  cases h with
  | nothing => exact ⟨rfl, rfl⟩
  | created => exact absurd rfl hne
  | updated hlive => exact absurd hlive hnone
  | deleted hlive => exact absurd hlive hnone

/-! ## Answers -/

/-- Whether a live version governs a table whose definition can be read. -/
def IsGoverned (s : Space) (table : String) : Prop :=
  ∃ row ∈ s.versions, row.tableName = table ∧ row.isLive ∧
    (Json.read? row.definition).isSome

/-- At most one live row has a table, so it does not matter which of them is looked for. -/
theorem Consistent.find?_live (h : Consistent s.versions) {row : VersionRow}
    (hrow : row ∈ s.versions) (hlive : row.isLive) :
    s.versions.find? (fun v => v.tableName == row.tableName && v.isLive) = some row := by
  refine (find?_eq_some_iff_mem (h.one_of_table row.tableName)).2 ⟨hrow, ?_⟩
  rw [beq_self_eq_true, hlive]
  rfl

theorem Consistent.isGoverned_iff (h : Consistent s.versions) :
    s.IsGoverned table ↔ ∃ r, s.governingSchema table = .ok r := by
  constructor
  · rintro ⟨row, hrow, rfl, hlive, hreads⟩
    obtain ⟨definition, hdefinition⟩ := Option.isSome_iff_exists.1 hreads
    exact ⟨_, governingSchema_eq_ok_iff.2
      ⟨row, h.find?_live hrow hlive, VersionRow.read_eq_ok.2 ⟨definition, hdefinition, rfl⟩⟩⟩
  · rintro ⟨r, hr⟩
    obtain ⟨row, hrow, hread⟩ := governingSchema_eq_ok_iff.1 hr
    obtain ⟨definition, hdefinition, -⟩ := VersionRow.read_eq_ok.1 hread
    have hgoverns := List.find?_some hrow
    simp only [Bool.and_eq_true, beq_iff_eq] at hgoverns
    exact ⟨row, List.mem_of_find?_eq_some hrow, hgoverns.1, hgoverns.2, by simp [hdefinition]⟩

theorem entity?_eq_some_iff {r : EntityRecord} :
    s.entity? table id = .ok (some r) ↔
      ∃ row, (s.rowsOf table id).head? = some row ∧ EntityRow.read row = .ok r := by
  unfold entity? rowsOf
  rw [List.head?_filter]
  change (s.entities.find? (isEntity table id)).mapM EntityRow.read = _ ↔ _
  cases s.entities.find? (isEntity table id) with
  | none => simp [pure, Except.pure]
  | some row => cases h : EntityRow.read row <;> simp [h, Functor.map, Except.map]

/-- **What is found of an entity.** -/
theorem getEntity_eq_ok_iff (hc : c.Undisturbed) {includeDeleted : Bool} {r : EntityRecord} :
    s.getEntity c table id includeDeleted = .ok r ↔
      (∃ schema, s.governingSchema table = .ok schema) ∧
        (∃ row, (s.rowsOf table id).head? = some row ∧ EntityRow.read row = .ok r) ∧
        (includeDeleted = true ∨ r.deleted = false) := by
  unfold getEntity
  rw [Transaction.query_of_undisturbed hc, Transaction.bind_eq_ok, ← entity?_eq_some_iff]
  simp only [Transaction.mapError_eq_ok, fetch, Transaction.bind_eq_ok]
  constructor
  · rintro ⟨found, ⟨schema, hschema, hfound⟩, h⟩
    cases hr : found.filter fun e => includeDeleted || !e.deleted with
    | none => simp [hr, throw, throwThe, MonadExceptOf.throw] at h
    | some record =>
      simp only [hr, Transaction.pure_eq_ok] at h
      subst h
      obtain ⟨rfl, hshown⟩ := Option.filter_eq_some_iff.1 hr
      exact ⟨⟨schema, hschema⟩, hfound, by simpa using hshown⟩
  · rintro ⟨⟨schema, hschema⟩, hfound, hshown⟩
    refine ⟨some r, ⟨schema, hschema, hfound⟩, ?_⟩
    have hfilter : (some r).filter (fun e => includeDeleted || !e.deleted) = some r :=
      Option.filter_eq_some_iff.2 ⟨rfl, by simpa using hshown⟩
    rw [hfilter]
    rfl

/-- Whether the definition of a live version that governs a table can be read, if there is one. -/
def ReadsLive (s : Space) (table : String) : Prop :=
  ∀ row ∈ s.versions, row.tableName = table → row.isLive → (Json.read? row.definition).isSome

/-- A table is governed or is not found. -/
theorem ReadsLive.governingSchema_cases (h : s.ReadsLive table) :
    (∃ r, s.governingSchema table = .ok r) ∨
      s.governingSchema table = .error (.failed (noActiveSchema table)) := by
  cases hfind : s.versions.find? fun v => v.tableName == table && v.isLive with
  | none =>
    have hnone : s.activeForTable? table = .ok none := findVersion?_eq_none_iff.2 hfind
    refine .inr ?_
    rw [governingSchema, hnone]
    rfl
  | some row =>
    have hgoverns := List.find?_some hfind
    simp only [Bool.and_eq_true, beq_iff_eq] at hgoverns
    obtain ⟨definition, hdefinition⟩ := Option.isSome_iff_exists.1
      (h row (List.mem_of_find?_eq_some hfind) hgoverns.1 hgoverns.2)
    exact .inl ⟨_, governingSchema_eq_ok_iff.2
      ⟨row, hfind, VersionRow.read_eq_ok.2 ⟨definition, hdefinition, rfl⟩⟩⟩

/-- Where the definition of the live version of a table cannot be read, the storage has failed. -/
theorem Consistent.governingSchema_of_not_readsLive (h : Consistent s.versions)
    (hnot : ¬s.ReadsLive table) : s.governingSchema table = .error .unconvertible := by
  simp only [ReadsLive, not_forall, Bool.not_eq_true, Option.isSome_eq_false_iff,
    Option.isNone_iff_eq_none] at hnot
  obtain ⟨row, hrow, rfl, hlive, hread⟩ := hnot
  have hfailed : s.activeForTable? row.tableName = .error .unconvertible := by
    rw [activeForTable?, findVersion?, h.find?_live hrow hlive, Option.mapM_some, VersionRow.read,
      hread]
    rfl
  rw [governingSchema, hfailed]
  rfl

theorem changeEntity_of_deleted (h : ∀ e ∈ s.rowsOf table id, e.deleted = true)
    (f : EntityRow → EntityRow) :
    s.changeEntity table id f = .error (.failed (noEntity table id)) := by
  have hnone : ¬s.entities.any (isLiveEntity table id) := by
    rw [List.any_eq_true]
    rintro ⟨e, he, hlive⟩
    simp only [isLiveEntity, Bool.and_eq_true, Bool.not_eq_true'] at hlive
    have hdeleted := h e (List.mem_filter.2 ⟨he, by simpa [isEntity] using hlive.1⟩)
    rw [hlive.2] at hdeleted
    cases hdeleted
  exact if_neg hnone

/-- **A deleted entity is not found for deletion.** -/
theorem deleteEntity_of_deleted (hc : c.Undisturbed) (hfree : c.locked = false)
    (hreads : s.ReadsLive table) (h : ∀ e ∈ s.rowsOf table id, e.deleted = true) :
    ∃ what, (s.deleteEntity c table id).1 = .error (.notFound what) := by
  unfold deleteEntity
  dsimp only
  rw [Transaction.execute_of_undisturbed hc (.inr hfree)]
  unfold deleteWork
  rcases hreads.governingSchema_cases with ⟨r, hr⟩ | hnone
  · rw [hr, changeEntity_of_deleted h]
    exact ⟨_, rfl⟩
  · rw [hnone]
    exact ⟨_, rfl⟩

/-- **A deleted entity is not found for an update**, once the payload is valid. -/
theorem updateEntity_of_deleted (hc : c.Undisturbed) (hfree : c.locked = false)
    (hreads : s.ReadsLive table) (h : ∀ e ∈ s.rowsOf table id, e.deleted = true)
    (hvalid : ∀ r, s.governingSchema table = .ok r →
      ∃ v, (kept.obtain r).1 = .ok v ∧ v.schema.issues payload = []) :
    ∃ what, (s.updateEntity c table id payload author kept).1 = .error (.notFound what) := by
  unfold updateEntity
  dsimp only
  rw [Transaction.answer_executeKeeping, Transaction.execute_of_undisturbed hc (.inr hfree)]
  unfold withValidator
  rcases hreads.governingSchema_cases with ⟨r, hr⟩ | hnone
  · obtain ⟨v, hv, hissues⟩ := hvalid r hr
    rcases hobtain : kept.obtain r with ⟨_ | w, kept'⟩
    · simp [hobtain] at hv
    · simp only [hobtain, Except.ok.injEq] at hv
      subst hv
      have hpayload : validated w payload = .ok ⟨w.schemaId, w.version, payload⟩ :=
        validated_eq_ok_iff.2 ⟨hissues, rfl⟩
      simp only [hr, hobtain, updateWork, hpayload, Transaction.check_of_undisturbed hc,
        changeEntity_of_deleted h, bind, Except.bind]
      exact ⟨_, rfl⟩
  · rw [hnone]
    exact ⟨_, rfl⟩

end Space

open Space

/-! ## Runs -/

variable {table : String} {id : EntityId}

theorem Site.befalls_next (site : Site) (step : Step) (table : String) (id : EntityId) :
    Befalls table id (site.event? table id step) (site.space.rowsOf table id)
      ((site.next step).space.rowsOf table id) := by
  cases step with
  | opening handle =>
    rcases site.next_cases (.opening handle) with ⟨-, migrations, hs⟩ | ⟨_, _, _, _, _, h, -⟩
    · rw [hs]
      exact .nothing
    · cases h
  | asking handle c limits r =>
    exact (answer_move c limits r site.space (site.kept handle)).befalls table id

/-- **The history of an entity determines its row.** -/
theorem Site.tells_after (run : List Step) (table : String) (id : EntityId) :
    Tells table id (fresh.eventsOf table id run) ((fresh.after run).space.rowsOf table id) := by
  induction run using List.reverseRecOn with
  | nil => exact ⟨none, rfl, rfl⟩
  | append_singleton run step ih =>
    rw [eventsOf_concat, after_concat]
    exact ih.befalls ((fresh.after run).befalls_next step table id)

/-- **What has been deleted stays as it is.** -/
theorem Site.deleted_after {run : List Step} {row : EntityRow}
    (h : (fresh.after run).space.rowsOf table id = [row]) (hdeleted : row.deleted = true)
    (later : List Step) :
    fresh.eventsOf table id (run ++ later) = fresh.eventsOf table id run ∧
      (fresh.after (run ++ later)).space.rowsOf table id = [row] := by
  induction later using List.reverseRecOn with
  | nil => exact ⟨by rw [List.append_nil], by rw [List.append_nil, h]⟩
  | append_singleton later step ih =>
    obtain ⟨hevents, hrows⟩ := ih
    have hstep := (fresh.after (run ++ later)).befalls_next step table id
    rw [hrows] at hstep
    obtain ⟨hnone, hsame⟩ := hstep.eq_of_deleted (by simp) (by simpa using hdeleted)
    rw [← List.append_assoc, eventsOf_concat, hnone, after_concat, hsame, hevents]
    exact ⟨List.append_nil _, rfl⟩

/-- Requests on schema versions and categories, and questions, leave all entities alone. -/
theorem Site.entities_next (site : Site) {step : Step}
    (h : step.Asks fun r => r.changesEntity = false) :
    (site.next step).space.entities = site.space.entities := by
  rcases site.next_cases step with ⟨-, migrations, hs⟩ | ⟨_, c, limits, r, a, rfl, -, hmove⟩
  · rw [hs]
  · exact hmove.entities h

/-! ## What it says -/

/-- **What is found of an entity is what its history says.** The history of an entity in a run is
empty or a life. The entity is found exactly if a live version governs its table and it has been
created, and, unless deleted ones are asked for, not been deleted; what is found is the row of its
life, with the payload that the stored text reads back as. After its deletion nothing happens to it
any more, and neither a deletion nor an update with a valid payload finds it. Requests that are not
about entities leave all of them alone. -/
theorem entity_by_history (run : List Step) (table : String) (id : EntityId) :
    let site := Site.fresh.after run
    let s := site.space
    ∃ life : Option Life, Site.fresh.eventsOf table id run = life.elim [] Life.events ∧
      (∀ c includeDeleted r, c.Undisturbed →
        (s.getEntity c table id includeDeleted = .ok r ↔
          s.IsGoverned table ∧ ∃ l, life = some l ∧ (includeDeleted = true ∨ l.deletion = none) ∧
            Json.read? l.last.payload.print = some r.payload ∧
            r = (l.row table id).withPayload r.payload)) ∧
      (∀ l, life = some l → l.deletion ≠ none →
        (∀ later, Site.fresh.eventsOf table id (run ++ later) = l.events ∧
          (Site.fresh.after (run ++ later)).space.rowsOf table id = [l.row table id]) ∧
        ∀ c, c.Undisturbed → c.locked = false → s.ReadsLive table →
          (∃ what, (s.deleteEntity c table id).1 = .error (.notFound what)) ∧
          ∀ payload author kept, (∀ r, s.governingSchema table = .ok r →
              ∃ v, (kept.obtain r).1 = .ok v ∧ v.schema.issues payload = []) →
            ∃ what, (s.updateEntity c table id payload author kept).1 = .error (.notFound what)) ∧
      ∀ step : Step, (step.Asks fun r => r.changesEntity = false) →
        (site.next step).space.entities = s.entities := by
  obtain ⟨life, hevents, hrows⟩ := Site.tells_after run table id
  refine ⟨life, hevents, fun c includeDeleted r hc => ?_, fun l hl hdeletion => ?_,
    fun step => Site.entities_next _⟩
  · rw [getEntity_eq_ok_iff hc, (Site.consistent_after run).isGoverned_iff, hrows]
    refine and_congr_right fun _ => ?_
    cases life with
    | none => simp
    | some l =>
      have hdeleted : ∀ payload : Json, ((l.row table id).withPayload payload).deleted = false ↔
          l.deletion = none := fun _ => Option.isSome_eq_false_iff.trans Option.isNone_iff_eq_none
      simp only [Option.map_some, Option.toList_some, List.head?_cons, Option.some.injEq,
        exists_eq_left', EntityRow.read_eq_ok]
      constructor
      · rintro ⟨⟨hread, hr⟩, hshown⟩
        rw [← hr, hdeleted] at hshown
        exact ⟨hshown, hread, hr.symm⟩
      · rintro ⟨hshown, hread, hr⟩
        rw [← hdeleted r.payload, ← hr] at hshown
        exact ⟨⟨hread, hr.symm⟩, hshown⟩
  · subst hl
    have hdeleted : (l.row table id).deleted = true := Option.isSome_iff_ne_none.2 hdeletion
    have hgone : ∀ e ∈ (Site.fresh.after run).space.rowsOf table id, e.deleted = true := by
      rw [hrows]
      exact fun e he => List.mem_singleton.1 he ▸ hdeleted
    refine ⟨fun later => ?_, fun c hc hfree hreads =>
      ⟨deleteEntity_of_deleted hc hfree hreads hgone, fun payload author kept =>
        updateEntity_of_deleted hc hfree hreads hgone⟩⟩
    obtain ⟨hlater, hrow⟩ := Site.deleted_after hrows hdeleted later
    exact ⟨hlater.trans hevents, hrow⟩

/-! ## A creation that goes through -/

/-- What an undisturbed creation answers and leaves behind, if nothing is kept, its payload is valid
and its identifier new. -/
theorem Space.answer_creating {s : Space} {c : Circumstances} {limits : PageLimits}
    {table : String} {payload : Json} {author : Option String} {r : SchemaRecord} {schema : Schema}
    (hc : c.Undisturbed) (hfree : c.locked = false) (hgoverning : s.governingSchema table = .ok r)
    (hcompile : Schema.compile r.definition = .ok schema) (hissues : schema.issues payload = [])
    (hnew : ∀ e ∈ s.entities, e.id ≠ ⟨c.fresh⟩) :
    let v : Validator := ⟨r.schemaId, r.version, schema⟩
    s.answer c limits (.createEntity table payload author) [] =
      (.entity (newEntity c table ⟨r.schemaId, r.version, payload⟩ author),
        { s with entities := s.entities ++ [newEntityRow c table author v payload] }, [v]) := by
  intro v
  have hcompiled : ValidatorCache.compiled r = .ok v := compiled_eq_ok_iff.2 ⟨rfl, rfl, hcompile⟩
  have hobtain : ValidatorCache.obtain [] r = (.ok v, [v]) := by
    simp only [ValidatorCache.obtain, ValidatorCache.find?, List.find?, hcompiled]
    rfl
  have hwork : createWork c table payload author v s =
      .ok (newEntity c table ⟨r.schemaId, r.version, payload⟩ author,
        { s with entities := s.entities ++ [newEntityRow c table author v payload] }) :=
    createWork_eq_ok_iff.2 ⟨hissues, Transaction.check_of_undisturbed hc _, rfl,
      insertEntity_eq_ok_iff.2 ⟨hnew, rfl⟩⟩
  have henter : Transaction.enter c .write = .ok () :=
    Transaction.enter_of_undisturbed hc (.inr hfree)
  simp only [answer, createEntity, Transaction.executeKeeping, henter, withValidator, hgoverning,
    hobtain, hwork, Transaction.settle, hc.sound, Transaction.isDone_of_undisturbed hc]
  rfl

/-! ## A payload that is altered -/

namespace Sample

/-- The double nearest to a number that is written `1e-25`, but for its last bit. -/
def tiny : Number := .double ⟨false, 8711228593176024, -136, by decide⟩

/-- The double to which the text of `tiny` is read back. -/
def lessTiny : Number := .double ⟨false, 8711228593176025, -136, by decide⟩

/-- The space after two versions and an entity have been created. -/
def stored (payload : Json) : Space where
  categories := [⟨"c", "C", false⟩]
  versions := [row ⟨1, 0, 0⟩ 2 false, row ⟨1, 0, 1⟩ 1 true]
  entities := [(Life.mk ⟨payload, ⟨first⟩, ⟨1, 0, 1⟩, none, 3⟩ [] none).row "notes" ⟨second⟩]
  migrations := [1, 2]

/-- The creation of an entity after two versions of a schema have been created. -/
def creation (payload : Json) : Step :=
  .asking 0 (.calm 3 second) .standard (.createEntity "notes" payload none)

theorem answer_creation {payload : Json} (h : schema.issues payload = []) :
    (Site.fresh.after (run.take 4)).space.answer (.calm 3 second) .standard
        (.createEntity "notes" payload none) [] =
      (.entity (newEntity (.calm 3 second) "notes" ⟨⟨first⟩, ⟨1, 0, 1⟩, payload⟩ none),
        stored payload, [⟨⟨first⟩, ⟨1, 0, 1⟩, schema⟩]) := by
  have hgoverning : (Site.fresh.after (run.take 4)).space.governingSchema "notes" =
      .ok ((row ⟨1, 0, 1⟩ 1 true).withDefinition definition) := by
    rw [after_four]
    decide +kernel
  have hnew : ∀ e ∈ (Site.fresh.after (run.take 4)).space.entities, e.id ≠ ⟨second⟩ := by
    rw [after_four]
    exact fun _ he => nomatch he
  refine (answer_creating (Circumstances.calm_undisturbed 3 second) rfl hgoverning
    compile_definition h hnew).trans ?_
  rw [after_four]
  rfl

/-- The space after an entity has been created. -/
theorem after_creation {payload : Json} (h : schema.issues payload = []) :
    (Site.fresh.after (run.take 4 ++ [creation payload])).space = stored payload := by
  have hkept : (Site.fresh.after (run.take 4)).kept 0 = [] := rfl
  rw [Site.after_concat, creation, Site.next, hkept, answer_creation h]

end Sample

/-- **A payload can be altered by being stored.** An entity is created with a number, and nothing
else happens to it. It is found with the neighbouring number. -/
theorem payload_altered :
    let payload : Json := .object [("title", .number Sample.tiny)]
    let run := Sample.run.take 4 ++ [Sample.creation payload]
    Site.fresh.eventsOf "notes" ⟨Sample.second⟩ run =
        [.created ⟨payload, ⟨Sample.first⟩, ⟨1, 0, 1⟩, none, 3⟩] ∧
      ∃ r, (Site.fresh.after run).space.getEntity (.calm 4 Sample.first) "notes" ⟨Sample.second⟩
          false = .ok r ∧
        r.payload = .object [("title", .number Sample.lessTiny)] ∧ r.payload ≠ payload := by
  intro payload run
  have hissues : Sample.schema.issues payload = [] := by decide +kernel
  have hanswer := Sample.answer_creation hissues
  have hnone : Site.fresh.eventsOf "notes" ⟨Sample.second⟩ (Sample.run.take 4) = [] := rfl
  have hkept : (Site.fresh.after (Sample.run.take 4)).kept 0 = [] := rfl
  constructor
  · rw [Site.eventsOf_concat, hnone, Sample.creation, Site.event?, hkept, hanswer,
      Sample.after_four]
    rfl
  · rw [show run = _ from rfl, Sample.after_creation hissues]
    let found : Entity Json := (Life.mk ⟨payload, ⟨Sample.first⟩, ⟨1, 0, 1⟩, none, 3⟩ [] none).row
      "notes" ⟨Sample.second⟩ |>.withPayload (.object [("title", .number Sample.lessTiny)])
    refine ⟨found, ?_, rfl, ?_⟩ <;> decide +kernel

end SchemaVault
