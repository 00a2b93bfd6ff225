import SchemaVault.Proofs.Schemas.Identity

/-!
# Decision lists

A change of schema versions checks one condition after another. It is described by the list of its
rules, each of which has a condition and the failure that is told if the condition does not hold:
the first rule that does not hold decides, and if all of them hold, the change is carried out
(`Decides`). Since only one of the two can happen, such a description also says when the change
succeeds (`Decides.granted_iff`).

Work that is made of steps obeys the rules of its steps (`Obeys.of_refusal`, `Obeys.bind`), and so
does the operation that conducts it, if nobody disturbs it (`Obeys.decides`). The only index that a
change of a pinned space can violate is a rule, too (`Space.tableRule`).
-/

namespace SchemaVault

/-- A condition of an operation, with what is told if it does not hold. -/
structure Rule where
  holds : Prop
  refusal : Failure

/-- Whether a request comes out as the rules say that are tried in their order: the first that does
not hold refuses it, and it is granted if all of them hold. -/
def Decides (refused : Failure → Prop) (granted : Prop) : List Rule → Prop
  | [] => granted
  | rule :: rules =>
    (¬rule.holds → refused rule.refusal) ∧ (rule.holds → Decides refused granted rules)

section Decides

variable {refused refused' : Failure → Prop} {granted granted' : Prop} {rules rules' : List Rule}

/-- What follows from a refusal and what follows from a grant may be told instead. -/
theorem Decides.imp (h : Decides refused granted rules) (hrefused : ∀ f, refused f → refused' f)
    (hgranted : granted → granted') : Decides refused' granted' rules := by
  induction rules with
  | nil => exact hgranted h
  | cons rule rules ih =>
    exact ⟨fun hbroken => hrefused _ (h.1 hbroken), fun hholds => ih (h.2 hholds)⟩

/-- Rules after other rules decide what the others grant. -/
theorem decides_append :
    Decides refused granted (rules ++ rules') ↔
      Decides refused (Decides refused granted rules') rules := by
  induction rules with
  | nil => exact Iff.rfl
  | cons rule rules ih => exact and_congr_right' (imp_congr_right fun _ => ih)

/-- What is granted may depend on more rules, which need only decide it if the first ones hold. -/
theorem Decides.append (h : Decides refused granted rules)
    (hrefused : ∀ f, refused f → refused' f)
    (hgranted : (∀ rule ∈ rules, rule.holds) → granted → Decides refused' granted' rules') :
    Decides refused' granted' (rules ++ rules') := by
  induction rules with
  | nil => exact hgranted (fun _ hrule => (nomatch hrule)) h
  | cons rule rules ih =>
    refine ⟨fun hbroken => hrefused _ (h.1 hbroken), fun hholds => ih (h.2 hholds) fun hall => ?_⟩
    exact hgranted (List.forall_mem_cons.2 ⟨hholds, hall⟩)

/-- **Either all rules hold or a broken one decides.** -/
theorem Decides.cases (h : Decides refused granted rules) :
    (∀ rule ∈ rules, rule.holds) ∧ granted ∨
      ∃ rule ∈ rules, ¬rule.holds ∧ refused rule.refusal := by
  induction rules with
  | nil => exact .inl ⟨fun _ hrule => (nomatch hrule), h⟩
  | cons first rules ih =>
    by_cases hfirst : first.holds
    · rcases ih (h.2 hfirst) with ⟨hall, hgranted⟩ | ⟨rule, hrule, hbroken, hrefused⟩
      · exact .inl ⟨List.forall_mem_cons.2 ⟨hfirst, hall⟩, hgranted⟩
      · exact .inr ⟨rule, List.mem_cons_of_mem _ hrule, hbroken, hrefused⟩
    · exact .inr ⟨first, List.mem_cons_self, hfirst, h.1 hfirst⟩

/-- A request whose rules all hold is granted. -/
theorem Decides.of_forall (h : Decides refused granted rules) (hall : ∀ rule ∈ rules, rule.holds) :
    granted := by
  rcases h.cases with ⟨-, hgranted⟩ | ⟨rule, hrule, hbroken, -⟩
  · exact hgranted
  · exact absurd (hall rule hrule) hbroken

/-- **A request is granted exactly if all rules hold**, if it is not refused as well. -/
theorem Decides.granted_iff (h : Decides refused granted rules)
    (hone : ∀ f, refused f → ¬granted) : granted ↔ ∀ rule ∈ rules, rule.holds := by
  rcases h.cases with ⟨hall, hgranted⟩ | ⟨rule, hrule, hbroken, hrefused⟩
  · exact iff_of_true hgranted hall
  · exact iff_of_false (hone _ hrefused) fun hall => hbroken (hall rule hrule)

end Decides

/-! ## Work that obeys rules -/

/-- What is told of an operation that the storage cannot serve. -/
def storageFailed (operation : String) : Failure := .internal (operation ++ " failed")

/-- Conducts a change: runs its work as a transaction, and tells what has failed. -/
def conduct {α : Type} (operation : String) (c : Circumstances) (work : Work α) (s : Space) :
    Except Failure α × Space :=
  let (result, s) := Transaction.execute c .write work s
  (result.mapError (·.toSchemaFailure operation), s)

/-- Whether a change whose work comes out as given is told of a failure. -/
def FailsAs {α : Type} (operation : String) (outcome : Except StorageError α) (f : Failure) :
    Prop :=
  ∃ e, outcome = .error e ∧ e.toSchemaFailure operation = f

/-- Whether the work of a change comes out as some rules say: with a result if all of them hold,
and else with an error that is told as the first broken one says. -/
def Obeys {α : Type} (operation : String) (outcome : Except StorageError α) (result : α)
    (rules : List Rule) : Prop := Decides (FailsAs operation outcome) (outcome = .ok result) rules

section Obeys

variable {α β : Type} {operation : String} {outcome : Except StorageError α} {a : α} {b : β}
variable {f : Failure} {rules rules' : List Rule}

theorem failsAs_of_failed (h : outcome = .error (.failed f)) : FailsAs operation outcome f :=
  ⟨.failed f, h, rfl⟩

theorem failsAs_of_unconvertible (h : outcome = .error .unconvertible) :
    FailsAs operation outcome (storageFailed operation) := ⟨.unconvertible, h, rfl⟩

/-- A step that refuses if a condition does not hold obeys it as a rule. -/
theorem Obeys.of_refusal {p q : Prop} [Decidable q] (hq : q ↔ ¬p)
    (h : p → Obeys operation outcome a rules) :
    Obeys operation (if q then .error (.failed f) else outcome) a (⟨p, f⟩ :: rules) :=
  ⟨fun hbroken => failsAs_of_failed (if_pos (hq.2 hbroken)), fun hholds => by
    rw [if_neg (hq.not.2 (not_not.2 hholds))]
    exact h hholds⟩

/-- Work after other work obeys the rules of both. -/
theorem Obeys.bind {work : α → Except StorageError β} (h : Obeys operation outcome a rules)
    (h' : (∀ rule ∈ rules, rule.holds) → Obeys operation (work a) b rules') :
    Obeys operation (outcome >>= work) b (rules ++ rules') := by
  refine Decides.append h ?_ fun hall hok => ?_
  · rintro f ⟨e, rfl, hf⟩
    exact ⟨e, rfl, hf⟩
  · rw [hok]
    exact h' hall

/-- Work that goes on without a condition obeys the same rules. -/
theorem Obeys.bind_pure {g : α → β} (h : Obeys operation outcome a rules) :
    Obeys operation (outcome >>= fun a => pure (g a)) (g a) rules := by
  refine Decides.imp h ?_ ?_
  · rintro f ⟨e, rfl, hf⟩
    exact ⟨e, rfl, hf⟩
  · rintro rfl
    rfl

section Conduct

variable {c : Circumstances} {work : Work α} {s s' : Space} {e : StorageError}

theorem conduct_of_work_ok (hc : c.Undisturbed) (hfree : c.locked = false)
    (h : work s = .ok (a, s')) : conduct operation c work s = (.ok a, s') := by
  rw [conduct, Transaction.execute_of_work_ok hc (.inr hfree) h]
  rfl

theorem conduct_of_work_error (hc : c.Undisturbed) (hfree : c.locked = false)
    (h : work s = .error e) :
    conduct operation c work s = (.error (e.toSchemaFailure operation), s) := by
  rw [conduct, Transaction.execute_of_work_error hc (.inr hfree) h]
  rfl

/-- **An undisturbed operation obeys the rules of its work**, and leaves the space alone when it is
refused. -/
theorem Obeys.decides (hc : c.Undisturbed) (hfree : c.locked = false)
    (h : Obeys operation (work s) (a, s') rules) :
    Decides (fun f => conduct operation c work s = (.error f, s))
      (conduct operation c work s = (.ok a, s')) rules := by
  refine Decides.imp h ?_ (conduct_of_work_ok hc hfree)
  rintro f ⟨e, he, rfl⟩
  exact conduct_of_work_error hc hfree he

end Conduct

end Obeys

/-! ## Tables -/

namespace Space

variable {s : Space} {id : SchemaId} {row : VersionRow} {others : List VersionRow}

/-- The rule that no live version of another schema has a table. -/
def tableRule (s : Space) (id : SchemaId) (table : String) : Rule where
  holds := ∀ other ∈ s.versions, other.isLive → other.schemaId ≠ id → other.tableName ≠ table
  refusal := tableHeld

/-- **The unique indices are one rule** for the live row of a schema whose slug no other schema has,
when all other live rows are of other schemas. -/
theorem checkLive_obeys {operation : String} (hrow : row.isLive) (hid : row.schemaId = id)
    (hslug : ∀ o ∈ s.versions, o.schemaId ≠ id → o.slug ≠ row.slug)
    (hothers : ∀ o : VersionRow, o.isLive → (o ∈ others ↔ o ∈ s.versions ∧ o.schemaId ≠ id)) :
    Obeys operation (checkLive others row) () [s.tableRule id row.tableName] := by
  have hapart : ∀ o ∈ others, o.isLive → o.slug ≠ row.slug ∧ o.schemaId ≠ row.schemaId := by
    intro o ho hlive
    obtain ⟨hmem, hschema⟩ := (hothers o hlive).1 ho
    exact ⟨hslug o hmem hschema, hid.symm ▸ hschema⟩
  have hok : checkLive others row = .ok () ↔ (s.tableRule id row.tableName).holds := by
    rw [checkLive_eq_ok_iff_table hrow hapart]
    constructor
    · intro h o ho hlive hschema
      exact h o ((hothers o hlive).2 ⟨ho, hschema⟩) hlive
    · intro h o ho hlive
      obtain ⟨hmem, hschema⟩ := (hothers o hlive).1 ho
      exact h o hmem hlive hschema
  refine ⟨fun hheld => ?_, fun hfree => hok.2 hfree⟩
  cases hrefused : checkLive others row with
  | ok u => exact absurd (hok.1 hrefused) hheld
  | error e => exact ⟨e, rfl, toSchemaFailure_of_table (violates_of_checkLive hrefused hapart) _⟩

end Space

end SchemaVault
