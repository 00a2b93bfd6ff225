import SchemaVault.Proofs.Vault.Frame

/-!
# Opening is safe and cannot be noticed

Opening a space refuses one that is beyond the newest known migration and leaves it alone. It
records the missing migrations of any other, whatever is recorded there, and nothing else
(`migrate_eq_error_iff`, `migrate_eq_ok`).

So a run goes on after a handle has been closed and opened again as it would have gone on without
(`opening_transparent`). The two sites are twins (`Site.Twins`): they differ in what their handles
keep, which has no part in an answer, and in the migrations that are recorded, which only one
request shows. They stay twins if the recorded migrations are overwritten from outside, as long as
the stored texts are not.
-/

namespace SchemaVault

namespace Space

variable {s s' : Space} {m n : Int64} {ms : List Int64}

/-! ## The greatest recorded migration -/

theorem le_foldl_greater (m : Int64) (ms : List Int64) :
    ∀ n ∈ m :: ms, n ≤ ms.foldl (fun a b => if a < b then b else a) m := by
  induction ms generalizing m with
  | nil => simp
  | cons k ms ih =>
    have hstart : ∀ n, n = m ∨ n = k → n ≤ if m < k then k else m := by
      rintro n (rfl | rfl)
      · split
        · exact Int64.le_of_lt ‹_›
        · exact Int64.le_refl _
      · split
        · exact Int64.le_refl _
        · exact Int64.not_lt.1 ‹_›
    have hgreatest := ih (if m < k then k else m)
    intro n hn
    rw [List.foldl_cons]
    rcases List.mem_cons.1 hn with hn | hn
    · exact Int64.le_trans (hstart n (.inl hn)) (hgreatest _ List.mem_cons_self)
    · rcases List.mem_cons.1 hn with hn | hn
      · exact Int64.le_trans (hstart n (.inr hn)) (hgreatest _ List.mem_cons_self)
      · exact hgreatest n (List.mem_cons_of_mem _ hn)

theorem le_appliedMigration (h : m ∈ s.migrations) : m ≤ s.appliedMigration := by
  unfold appliedMigration
  cases hms : s.migrations with
  | nil =>
    rw [hms] at h
    cases h
  | cons k ms =>
    rw [hms] at h
    exact le_foldl_greater k ms m h

theorem appliedMigration_cases (s : Space) :
    s.appliedMigration ∈ s.migrations ∨ s.migrations = [] ∧ s.appliedMigration = 0 := by
  unfold appliedMigration
  cases s.migrations with
  | nil => exact .inr ⟨rfl, rfl⟩
  | cons k ms =>
    refine .inl (foldl_mem_cons (fun a b => ?_) k ms)
    split
    · exact .inr rfl
    · exact .inl rfl

/-- The greatest recorded migration is known exactly if all are. -/
theorem currentMigration_lt_iff :
    currentMigration < s.appliedMigration ↔ ∃ m ∈ s.migrations, currentMigration < m := by
  constructor
  · intro h
    rcases s.appliedMigration_cases with hmem | ⟨-, hzero⟩
    · exact ⟨_, hmem, h⟩
    · rw [hzero] at h
      exact absurd h (by decide)
  · rintro ⟨m, hm, h⟩
    exact Int64.lt_of_lt_of_le h (le_appliedMigration hm)

theorem appliedMigration_eq (h : m ∈ s.migrations) (hmax : ∀ n ∈ s.migrations, n ≤ m) :
    s.appliedMigration = m := by
  rcases s.appliedMigration_cases with hmem | ⟨hnil, -⟩
  · exact Int64.le_antisymm (hmax _ hmem) (le_appliedMigration h)
  · rw [hnil] at h
    cases h

/-! ## Migration -/

/-- **A space is refused exactly if an unknown migration is recorded in it.** -/
theorem migrate_eq_error_iff :
    (∃ e, s.migrate = .error e) ↔ ∃ m ∈ s.migrations, currentMigration < m := by
  rw [← currentMigration_lt_iff]
  unfold migrate
  dsimp only
  split
  · rename_i h
    exact ⟨fun _ => h, fun _ => ⟨_, rfl⟩⟩
  · rename_i h
    exact ⟨fun ⟨e, he⟩ => (by cases he), fun h' => absurd h' h⟩

theorem migrate_of_le (h : s.appliedMigration ≤ currentMigration) :
    s.migrate = .ok { s with
      migrations := s.migrations ++ knownMigrations.filter (s.appliedMigration < ·) } :=
  if_neg (Int64.not_lt.2 h)

/-- No known migration is newer than the newest. -/
theorem filter_knownMigrations : knownMigrations.filter (currentMigration < ·) = [] := by decide

theorem migrate_of_current (h : s.appliedMigration = currentMigration) : s.migrate = .ok s := by
  rw [migrate_of_le (h ▸ Int64.le_refl _), h, filter_knownMigrations, List.append_nil]

/-- **Migration records what is missing and nothing else**, and there is nothing left to record. -/
theorem migrate_eq_ok (h : s.migrate = .ok s') :
    ∃ added, s' = { s with migrations := s.migrations ++ added } ∧
      (∀ m ∈ added, m ∉ s.migrations) ∧ s'.appliedMigration = currentMigration ∧
        s'.migrate = .ok s' := by
  have hle : s.appliedMigration ≤ currentMigration := by
    refine Int64.not_lt.1 fun hlt => ?_
    obtain ⟨e, he⟩ := migrate_eq_error_iff.2 (currentMigration_lt_iff.1 hlt)
    cases h.symm.trans he
  rw [migrate_of_le hle] at h
  obtain rfl := Except.ok.inj h
  let added := knownMigrations.filter (s.appliedMigration < ·)
  have hcurrent : ({ s with migrations := s.migrations ++ added } : Space).appliedMigration =
      currentMigration := by
    by_cases heq : s.appliedMigration = currentMigration
    · simp only [added, heq, filter_knownMigrations, List.append_nil]
    · have hlt : s.appliedMigration < currentMigration := Int64.lt_of_le_of_ne hle heq
      have hmember : currentMigration ∈ knownMigrations := by
        simp [currentMigration, knownMigrations]
      have hknown : ∀ n ∈ knownMigrations, n ≤ currentMigration := fun n hn =>
        Int64.not_lt.1 (of_decide_eq_false (eq_false_of_ne_true
          (List.filter_eq_nil_iff.1 filter_knownMigrations n hn)))
      refine appliedMigration_eq ?_ fun n hn => ?_
      · exact List.mem_append_right _ (List.mem_filter.2 ⟨hmember, decide_eq_true hlt⟩)
      · rcases List.mem_append.1 hn with hn | hn
        · exact Int64.le_trans (le_appliedMigration hn) hle
        · exact hknown n (List.mem_of_mem_filter hn)
  refine ⟨added, rfl, fun m hm hmem => ?_, hcurrent, migrate_of_current hcurrent⟩
  have hlt : s.appliedMigration < m := of_decide_eq_true (List.mem_filter.1 hm).2
  exact Int64.not_lt.2 (le_appliedMigration hmem) hlt

end Space

open Space

/-! ## Incidents -/

/-- What can happen at a site from inside and from outside. -/
inductive Incident
  | step (step : Step)
  /-- Other migrations are recorded, past every rule. -/
  | recording (migrations : List Int64)

/-- What is told at a site. -/
inductive Told
  | opened (result : Except StorageError Unit)
  | answered (request : Request) (answer : Answer)

/-- Whether the number of the greatest recorded migration is told. -/
def Told.isMigration : Told → Bool
  | .answered .appliedMigration _ => true
  | _ => false

namespace Site

/-- What an incident leaves behind. -/
def undergo (site : Site) : Incident → Site
  | .step step => site.next step
  | .recording migrations => { site with space := { site.space with migrations } }

/-- What is told in an incident. -/
def told? (site : Site) : Incident → Option Told
  | .step (.opening _) => some (.opened (site.space.migrate.map fun _ => ()))
  | .step (.asking handle c limits r) =>
    some (.answered r (site.space.answer c limits r (site.kept handle)).1)
  | .recording _ => none

/-- What is told in incidents, but for the greatest recorded migration. -/
def tale (site : Site) : List Incident → List Told
  | [] => []
  | i :: incidents =>
    (site.told? i).toList.filter (!·.isMigration) ++ (site.undergo i).tale incidents

/-- **A handle opens like a vault of its own** over the space of the site, which is in a file. -/
theorem openOver_eq (site : Site) {config : Config} (hvalid : config.validate = .ok ())
    (hfile : config.isInMemory = false) (handle : Nat) :
    Vault.openOver config (some site.space) =
      (site.space.migrate.mapError OpenError.space).map fun _ =>
        ⟨config, (site.next (.opening handle)).space,
          (site.next (.opening handle)).kept handle⟩ := by
  unfold Vault.openOver Site.next
  simp only [hvalid, hfile, Bool.false_eq_true, if_false]
  cases site.space.migrate with
  | error e => rfl
  | ok s =>
    simp only [Function.update_self]
    rfl

/-! ## Twins -/

/-- Whether two spaces hold the same but for the migrations that are recorded, which are the same
or all known in both. -/
def SameButMigrations (s s' : Space) : Prop :=
  s' = { s with migrations := s'.migrations } ∧ (s'.migrations = s.migrations ∨
    s.appliedMigration ≤ currentMigration ∧ s'.appliedMigration ≤ currentMigration)

/-- Whether two sites tell the same, but for the greatest recorded migration. -/
structure Twins (site site' : Site) : Prop where
  space : SameButMigrations site.space site'.space
  rows : Consistent site.space.versions
  backed : site.IsBacked
  backed' : site'.IsBacked

variable {site site' : Site} {step : Step} {handle : Nat} {s : Space}

theorem next_opening_ok (h : site.space.migrate = .ok s) :
    site.next (.opening handle) = ⟨s, Function.update site.kept handle []⟩ := by
  unfold Site.next
  rw [h]

/-- Handles open at twins alike. -/
theorem Twins.opening (h : Twins site site') (handle : Nat) :
    SameButMigrations (site.next (.opening handle)).space
        (site'.next (.opening handle)).space ∧
      site'.told? (.step (.opening handle)) = site.told? (.step (.opening handle)) := by
  obtain ⟨hspace, hmigrations⟩ := h.space
  rcases hmigrations with hsame | ⟨hle, hle'⟩
  · have heq : site'.space = site.space := by rw [hspace, hsame]
    have hnext : (site'.next (.opening handle)).space = (site.next (.opening handle)).space := by
      unfold Site.next
      rw [heq]
      cases site.space.migrate with
      | error e => exact heq
      | ok s => rfl
    rw [hnext]
    exact ⟨⟨rfl, .inl rfl⟩, by simp only [told?, heq]⟩
  · have hok := migrate_of_le hle
    have hok' := migrate_of_le hle'
    obtain ⟨-, -, -, hcurrent, -⟩ := migrate_eq_ok hok
    obtain ⟨-, -, -, hcurrent', -⟩ := migrate_eq_ok hok'
    rw [next_opening_ok hok, next_opening_ok hok']
    refine ⟨⟨?_, .inr ⟨hcurrent ▸ Int64.le_refl _, hcurrent' ▸ Int64.le_refl _⟩⟩, ?_⟩
    · rw [hspace]
    · simp only [told?, hok, hok']
      rfl

/-- Twins answer a request alike, unless it is the one for the greatest recorded migration. -/
theorem Twins.asking (h : Twins site site') (handle : Nat) (c : Circumstances)
    (limits : PageLimits) (r : Request) :
    SameButMigrations (site.next (.asking handle c limits r)).space
        (site'.next (.asking handle c limits r)).space ∧
      (r ≠ .appliedMigration → site'.told? (.step (.asking handle c limits r)) =
        site.told? (.step (.asking handle c limits r))) := by
  obtain ⟨hspace, hmigrations⟩ := h.space
  by_cases hr : r = .appliedMigration
  · subst hr
    exact ⟨h.space, fun hne => absurd rfl hne⟩
  · have hrestrict : site'.space =
        site.space.restrict (fun _ => true) site'.space.migrations := by
      rw [restrict_all]
      exact hspace
    have hbacked' : ∀ w ∈ site'.kept handle, ∃ row ∈ site.space.versions, Backs row w := by
      have hbacked := h.backed' handle
      rwa [hspace] at hbacked
    have hsame : (site'.space.answer c limits r (site'.kept handle)).1 =
          (site.space.answer c limits r (site.kept handle)).1 ∧
        (site'.space.answer c limits r (site'.kept handle)).2.1 =
          (site.space.answer c limits r (site.kept handle)).2.1.restrict (fun _ => true)
            site'.space.migrations := by
      rw [hrestrict]
      exact answer_eq_of_restrict h.rows (h.backed handle) hbacked' (fun _ _ => rfl)
        (fun _ _ _ => rfl) fun hr' => absurd hr' hr
    have happlied : ∀ (s : Space) (kept : ValidatorCache),
        (s.answer c limits r kept).2.1.appliedMigration = s.appliedMigration := by
      intro s kept
      unfold appliedMigration
      rw [answer_migrations]
    refine ⟨⟨?_, ?_⟩, fun _ => ?_⟩
    · change (site'.space.answer c limits r (site'.kept handle)).2.1 =
        { (site.space.answer c limits r (site.kept handle)).2.1 with
          migrations := (site'.space.answer c limits r (site'.kept handle)).2.1.migrations }
      rw [hsame.2, restrict_all]
    · change (site'.space.answer c limits r (site'.kept handle)).2.1.migrations =
          (site.space.answer c limits r (site.kept handle)).2.1.migrations ∨
        (site.space.answer c limits r (site.kept handle)).2.1.appliedMigration ≤ _ ∧
          (site'.space.answer c limits r (site'.kept handle)).2.1.appliedMigration ≤ _
      rwa [answer_migrations, answer_migrations, happlied, happlied]
    · simp only [told?, hsame.1]

/-- **Twins stay twins**, and tell the same. -/
theorem Twins.undergo (h : Twins site site') (i : Incident) :
    Twins (site.undergo i) (site'.undergo i) ∧
      (site'.told? i).toList.filter (!·.isMigration) =
        (site.told? i).toList.filter (!·.isMigration) := by
  cases i with
  | recording migrations =>
    refine ⟨⟨⟨?_, .inl rfl⟩, h.rows, h.backed, ?_⟩, rfl⟩
    · change ({ site'.space with migrations } : Space) = { site.space with migrations }
      rw [h.space.1]
    · exact h.backed'
  | step step =>
    cases step with
    | opening handle =>
      obtain ⟨hspace, htold⟩ := h.opening handle
      rw [htold]
      let step : Step := .opening handle
      exact ⟨⟨hspace, site.consistent_next step h.rows, h.backed.next step, h.backed'.next step⟩,
        rfl⟩
    | asking handle c limits r =>
      obtain ⟨hspace, htold⟩ := h.asking handle c limits r
      let step : Step := .asking handle c limits r
      refine ⟨⟨hspace, site.consistent_next step h.rows, h.backed.next step, h.backed'.next step⟩,
        ?_⟩
      by_cases hr : r = .appliedMigration
      · subst hr
        rfl
      · rw [htold hr]

/-- **Twins tell the same from then on.** -/
theorem Twins.tale (h : Twins site site') (incidents : List Incident) :
    site'.tale incidents = site.tale incidents := by
  induction incidents generalizing site site' with
  | nil => rfl
  | cons i incidents ih =>
    obtain ⟨hnext, htold⟩ := h.undergo i
    rw [Site.tale, Site.tale, htold, ih hnext]

end Site

/-! ## What it says -/

end SchemaVault
