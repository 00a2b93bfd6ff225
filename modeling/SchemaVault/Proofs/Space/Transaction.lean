import SchemaVault.Space.Transaction
import Mathlib.Data.List.Forall2

/-!
# What a transaction leaves behind

A unit of work either goes through, and then its result is answered and the space that it leaves
is kept, or it does not, and then the space is as before: `execute_cases` for a plain unit of work,
`executeKeeping_cases` for one that also changes what is kept outside the space. A query that
nobody disturbs answers what its reading of the space answers (`query_of_undisturbed`).

The first section opens the steps of a unit of work: each statement says when a combination of
steps comes out well, and with what.
-/

namespace SchemaVault

/-- Nobody calls the operation off, it is not late, and the storage does not fail. -/
structure Circumstances.Undisturbed (c : Circumstances) : Prop where
  inTime : c.doneFrom = none
  sound : c.fault = none

/-- Circumstances in which nothing goes wrong. -/
def Circumstances.calm (now : Int64) (fresh : Identifier) : Circumstances where
  now := now
  fresh := fresh
  doneFrom := none
  locked := false
  fault := none

theorem Circumstances.calm_undisturbed (now : Int64) (fresh : Identifier) :
    (calm now fresh).Undisturbed := ⟨rfl, rfl⟩

namespace Transaction

/-! ## Steps -/

section Steps

variable {ε δ α β : Type}

theorem bind_eq_ok {x : Except ε α} {f : α → Except ε β} {b : β} :
    x >>= f = .ok b ↔ ∃ a, x = .ok a ∧ f a = .ok b := by
  cases x with
  | error e => simp [bind, Except.bind]
  | ok a => simp [bind, Except.bind]

theorem bind_eq_error {x : Except ε α} {f : α → Except ε β} {e : ε} :
    x >>= f = .error e ↔ x = .error e ∨ ∃ a, x = .ok a ∧ f a = .error e := by
  cases x with
  | error e => simp [bind, Except.bind]
  | ok a => simp [bind, Except.bind]

theorem pure_eq_ok {a b : α} : (pure a : Except ε α) = .ok b ↔ a = b := by
  simp [pure, Except.pure]

/-- A step that refuses unless a condition fails. -/
theorem refusal_eq_ok {p : Prop} [Decidable p] {e : ε} {f : β → Except ε α} {x : Except ε α}
    {a : α} : (if p then throw e >>= f else x) = .ok a ↔ ¬p ∧ x = .ok a := by
  by_cases hp : p
  · simp [hp, throw, throwThe, MonadExceptOf.throw, bind, Except.bind]
  · simp [hp]

theorem refusal_eq_error {p : Prop} [Decidable p] {e e' : ε} {f : β → Except ε α}
    {x : Except ε α} :
    (if p then throw e >>= f else x) = .error e' ↔ p ∧ e = e' ∨ ¬p ∧ x = .error e' := by
  by_cases hp : p
  · simp [hp, throw, throwThe, MonadExceptOf.throw, bind, Except.bind]
  · simp [hp]

theorem mapError_eq_ok {f : ε → δ} {x : Except ε α} {a : α} :
    x.mapError f = .ok a ↔ x = .ok a := by
  cases x with
  | error e => simp [Except.mapError]
  | ok a => simp [Except.mapError]

theorem mapError_eq_error {f : ε → δ} {x : Except ε α} {e : δ} :
    x.mapError f = .error e ↔ ∃ e', x = .error e' ∧ f e' = e := by
  cases x with
  | error e => simp [Except.mapError]
  | ok a => simp [Except.mapError]

/-- Going through a list goes well exactly if each of its steps does. -/
theorem mapM_eq_ok {f : α → Except ε β} {as : List α} {bs : List β} :
    as.mapM f = .ok bs ↔ List.Forall₂ (fun a b => f a = .ok b) as bs := by
  induction as generalizing bs with
  | nil =>
    rw [List.mapM_nil, pure_eq_ok]
    constructor
    · rintro rfl
      exact .nil
    · rintro ⟨⟩
      rfl
  | cons a as ih =>
    rw [List.mapM_cons, bind_eq_ok]
    constructor
    · rintro ⟨b, hb, h⟩
      obtain ⟨bs, hbs, h⟩ := bind_eq_ok.1 h
      obtain rfl := pure_eq_ok.1 h
      exact .cons hb (ih.1 hbs)
    · rintro (_ | ⟨hb, hbs⟩)
      exact ⟨_, hb, bind_eq_ok.2 ⟨_, ih.2 hbs, rfl⟩⟩

/-- A condition on every member of a list. -/
theorem forM_eq_ok {f : α → Except ε Unit} {as : List α} :
    as.forM f = .ok () ↔ ∀ a ∈ as, f a = .ok () := by
  induction as with
  | nil => simp [pure, Except.pure]
  | cons a as ih =>
    change (f a >>= fun _ => as.forM f) = .ok () ↔ _
    rw [bind_eq_ok]
    constructor
    · rintro ⟨_, ha, has⟩ b hb
      rcases List.mem_cons.1 hb with rfl | hb
      · exact ha
      · exact ih.1 has b hb
    · intro h
      exact ⟨(), h a List.mem_cons_self, ih.2 fun b hb => h b (List.mem_cons_of_mem _ hb)⟩

theorem forM_eq_error {f : α → Except ε Unit} {as : List α} {e : ε}
    (h : as.forM f = .error e) : ∃ a ∈ as, f a = .error e := by
  induction as with
  | nil => simp [pure, Except.pure] at h
  | cons a as ih =>
    change (f a >>= fun _ => as.forM f) = .error e at h
    rcases bind_eq_error.1 h with h | ⟨_, _, h⟩
    · exact ⟨a, List.mem_cons_self, h⟩
    · obtain ⟨a', ha', h⟩ := ih h
      exact ⟨a', List.mem_cons_of_mem _ ha', h⟩

theorem mapM_eq_error {f : α → Except ε β} {as : List α} {e : ε} (h : as.mapM f = .error e) :
    ∃ a ∈ as, f a = .error e := by
  induction as with
  | nil => simp [pure, Except.pure] at h
  | cons a as ih =>
    rw [List.mapM_cons] at h
    rcases bind_eq_error.1 h with h | ⟨b, -, h⟩
    · exact ⟨a, List.mem_cons_self, h⟩
    · rcases bind_eq_error.1 h with h | ⟨bs, -, h⟩
      · obtain ⟨a', ha', h⟩ := ih h
        exact ⟨a', List.mem_cons_of_mem _ ha', h⟩
      · simp [pure, Except.pure] at h

theorem exists_mapM_eq_ok {f : α → Except ε β} {as : List α} (h : ∀ a ∈ as, ∃ b, f a = .ok b) :
    ∃ bs, as.mapM f = .ok bs := by
  cases hmap : as.mapM f with
  | ok bs => exact ⟨bs, rfl⟩
  | error e =>
    obtain ⟨a, ha, herror⟩ := mapM_eq_error hmap
    obtain ⟨b, hb⟩ := h a ha
    cases hb.symm.trans herror

theorem forall₂_left_of_mem {R : α → β → Prop} {as : List α} {bs : List β}
    (h : List.Forall₂ R as bs) {a : α} (ha : a ∈ as) : ∃ b ∈ bs, R a b := by
  induction h with
  | nil => cases ha
  | cons hab _ ih =>
    rcases List.mem_cons.1 ha with rfl | ha
    · exact ⟨_, List.mem_cons_self, hab⟩
    · obtain ⟨b, hb, h⟩ := ih ha
      exact ⟨b, List.mem_cons_of_mem _ hb, h⟩

/-- What comes of every member of a list comes of the list. -/
theorem mapM_eq_map {f : α → Except ε β} {g : α → β} {as : List α}
    (h : ∀ a ∈ as, f a = .ok (g a)) : as.mapM f = .ok (as.map g) := by
  rw [mapM_eq_ok, List.forall₂_map_right_iff, List.forall₂_same]
  exact h

/-- One member of which nothing comes is enough, if all fail in one way. -/
theorem mapM_eq_error_of_mem {f : α → Except ε β} {as : List α} {e : ε}
    (herror : ∀ a e', f a = .error e' → e' = e) {a : α} (ha : a ∈ as) (h : f a = .error e) :
    as.mapM f = .error e := by
  cases hmap : as.mapM f with
  | error e' =>
    obtain ⟨a', -, ha'⟩ := mapM_eq_error hmap
    rw [herror a' e' ha']
  | ok bs =>
    obtain ⟨b, -, hb⟩ := forall₂_left_of_mem (mapM_eq_ok.1 hmap) ha
    cases hb.symm.trans h

end Steps

/-! ## Transactions -/

variable {α κ : Type} {c : Circumstances}

/-- A transaction ends well only if its work does. -/
theorem settle_cases (c : Circumstances) (outcome : Except StorageError (α × Space)) (s : Space) :
    (∃ e, settle c outcome s = (.error e, s)) ∨
      ∃ result after, outcome = .ok (result, after) ∧
        settle c outcome s = (.ok result, after) := by
  unfold settle
  cases outcome with
  | error e => exact .inl ⟨e, rfl⟩
  | ok p =>
    cases c.fault with
    | some e => exact .inl ⟨e, rfl⟩
    | none =>
      cases c.isDone .commit with
      | true => exact .inl ⟨_, rfl⟩
      | false => exact .inr ⟨p.1, p.2, rfl, rfl⟩

/-- **A transaction goes through or leaves the space alone.** -/
theorem execute_cases (c : Circumstances) (a : Access) (work : Work α) (s : Space) :
    (∃ e, execute c a work s = (.error e, s)) ∨
      ∃ result after, work s = .ok (result, after) ∧ execute c a work s = (.ok result, after) := by
  unfold execute
  cases enter c a with
  | error e => exact .inl ⟨e, rfl⟩
  | ok u => exact settle_cases c (work s) s

theorem check_eq_error {p : Checkpoint} {e : StorageError} (h : c.check p = .error e) :
    e = .cancelled := by
  unfold Circumstances.check at h
  split at h
  · exact (Except.error.inj h).symm
  · simp at h

/-- The refusal of a writer while another one holds the space. -/
def heldByWriter : StorageError := .refused StorageError.busyCode (some "database is locked")

theorem enter_eq_error {a : Access} {e : StorageError} (h : enter c a = .error e) :
    e = .cancelled ∨ e = heldByWriter := by
  rcases bind_eq_error.1 h with h | ⟨_, -, h⟩
  · exact .inl (check_eq_error h)
  · split at h
    · exact .inr (Except.error.inj h).symm
    · cases h

/-- **Why a transaction fails**: it is called off, another writer holds the space, its work fails,
or the storage does. -/
theorem execute_eq_error {a : Access} {work : Work α} {s : Space} {e : StorageError}
    (h : (execute c a work s).1 = .error e) :
    e = .cancelled ∨ e = heldByWriter ∨ work s = .error e ∨ c.fault = some e := by
  unfold execute at h
  cases henter : enter c a with
  | error e' =>
    simp only [henter, Except.error.injEq] at h
    exact h ▸ (enter_eq_error henter).imp_right .inl
  | ok u =>
    simp only [henter] at h
    cases hwork : work s with
    | error e' =>
      simp only [hwork, settle, Except.error.injEq] at h
      exact .inr (.inr (.inl (by rw [h])))
    | ok p =>
      cases hfault : c.fault with
      | some e' =>
        simp only [hwork, settle, hfault, Except.error.injEq] at h
        exact .inr (.inr (.inr (by rw [h])))
      | none =>
        simp only [hwork, settle, hfault] at h
        split at h
        · exact .inl (Except.error.inj h).symm
        · cases h

/-- A failure that neither the transaction nor the storage has of its own is that of the work. -/
theorem execute_eq_error_iff {a : Access} {work : Work α} {s : Space} {e : StorageError}
    (hcancelled : e ≠ .cancelled) (hheld : e ≠ heldByWriter) (hfault : c.fault ≠ some e) :
    (execute c a work s).1 = .error e ↔ enter c a = .ok () ∧ work s = .error e := by
  constructor
  · intro h
    rcases execute_eq_error h with rfl | rfl | hwork | hspoilt
    · exact absurd rfl hcancelled
    · exact absurd rfl hheld
    · refine ⟨?_, hwork⟩
      cases henter : enter c a with
      | ok u => rfl
      | error e' =>
        simp only [execute, henter, Except.error.injEq] at h
        subst h
        exact absurd (enter_eq_error henter) (not_or.2 ⟨hcancelled, hheld⟩)
    · exact absurd hspoilt hfault
  · rintro ⟨henter, hwork⟩
    simp only [execute, henter, hwork, settle]

/-- A transaction that also changes what is kept outside the space: either it does not begin, and
nothing changes at all, or its work runs, and what it keeps stays whether or not it goes through. -/
theorem executeKeeping_cases (c : Circumstances) (a : Access)
    (work : Space → κ → Except StorageError (α × Space) × κ) (s : Space) (kept : κ) :
    (∃ e, executeKeeping c a work s kept = (.error e, s, kept)) ∨
      (∃ e, executeKeeping c a work s kept = (.error e, s, (work s kept).2)) ∨
      ∃ result after, (work s kept).1 = .ok (result, after) ∧
        executeKeeping c a work s kept = (.ok result, after, (work s kept).2) := by
  unfold executeKeeping
  cases enter c a with
  | error e => exact .inl ⟨e, rfl⟩
  | ok u =>
    rcases settle_cases c (work s kept).1 s with ⟨e, h⟩ | ⟨result, after, hwork, h⟩
    · exact .inr (.inl ⟨e, by simp only [h]⟩)
    · exact .inr (.inr ⟨result, after, hwork, by simp only [h]⟩)

/-- What is kept outside the space has no part in how a transaction comes out. -/
theorem executeKeeping_fst (c : Circumstances) (a : Access)
    (work : Space → κ → Except StorageError (α × Space) × κ) (s : Space) (kept : κ) :
    ((executeKeeping c a work s kept).1, (executeKeeping c a work s kept).2.1) =
      execute c a (fun s => (work s kept).1) s := by
  unfold executeKeeping execute
  cases enter c a <;> rfl

@[inherit_doc executeKeeping_fst]
theorem answer_executeKeeping (c : Circumstances) (a : Access)
    (work : Space → κ → Except StorageError (α × Space) × κ) (s : Space) (kept : κ) :
    (executeKeeping c a work s kept).1 = (execute c a (fun s => (work s kept).1) s).1 :=
  congrArg Prod.fst (executeKeeping_fst c a work s kept)

/-! ## Undisturbed operations -/

theorem isDone_of_undisturbed (hc : c.Undisturbed) (p : Checkpoint) : c.isDone p = false := by
  rw [Circumstances.isDone, hc.inTime]
  rfl

theorem check_of_undisturbed (hc : c.Undisturbed) (p : Checkpoint) : c.check p = .ok () := by
  rw [Circumstances.check, isDone_of_undisturbed hc]
  rfl

/-- An operation that nobody disturbs begins, if it only reads or no other writer holds the
space. -/
theorem enter_of_undisturbed (hc : c.Undisturbed) {a : Access} (ha : a = .read ∨ c.locked = false) :
    enter c a = .ok () := by
  have hfree : ¬(a = .write ∧ c.locked = true) := by
    rintro ⟨rfl, hlocked⟩
    rcases ha with h | h
    · cases h
    · rw [h] at hlocked
      cases hlocked
  rw [enter, check_of_undisturbed hc]
  simp only [bind, Except.bind, if_neg hfree]
  rfl

/-- **An operation that nobody disturbs does what its work does.** -/
theorem execute_of_undisturbed (hc : c.Undisturbed) {a : Access}
    (ha : a = .read ∨ c.locked = false) (work : Work α) (s : Space) :
    (execute c a work s).1 = (work s).map (·.1) := by
  unfold execute settle
  rw [enter_of_undisturbed hc ha, hc.sound, isDone_of_undisturbed hc]
  rcases work s with e | ⟨result, after⟩ <;> rfl

/-- If nobody disturbs it, a transaction keeps what its work leaves. -/
theorem execute_of_work_ok (hc : c.Undisturbed) {a : Access} (ha : a = .read ∨ c.locked = false)
    {work : Work α} {s after : Space} {result : α} (h : work s = .ok (result, after)) :
    execute c a work s = (.ok result, after) := by
  unfold execute settle
  rw [enter_of_undisturbed hc ha, h, hc.sound, isDone_of_undisturbed hc]
  rfl

/-- If nobody disturbs it, a transaction fails with its work and leaves the space alone. -/
theorem execute_of_work_error (hc : c.Undisturbed) {a : Access} (ha : a = .read ∨ c.locked = false)
    {work : Work α} {s : Space} {e : StorageError} (h : work s = .error e) :
    execute c a work s = (.error e, s) := by
  unfold execute settle
  rw [enter_of_undisturbed hc ha, h]

theorem query_of_undisturbed (hc : c.Undisturbed) (q : Space → Except StorageError α) (s : Space) :
    query c q s = q s := by
  rw [query, execute_of_undisturbed hc (.inl rfl)]
  unfold reading
  cases q s <;> rfl

end Transaction

end SchemaVault
