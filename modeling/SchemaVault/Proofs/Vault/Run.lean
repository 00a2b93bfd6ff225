import SchemaVault.Proofs.Schema.Compilation
import SchemaVault.Proofs.Schemas.Draft
import SchemaVault.Proofs.Vault.Move
import SchemaVault.Vault.Basic
import Mathlib.Logic.Function.Basic

/-!
# Runs

A site is a space with the handles that are open on it, each of which keeps validators of its own.
A run is any sequence of openings and requests at a site, in whatever circumstances each of them
happens. `Site.after_of_step` is the induction over a run, `Site.next_cases` the case analysis of a
step: an opening records migrations and nothing else, and a request is a `Move`.
-/

namespace SchemaVault

/-! ## Sites -/

/-- A space that has been opened for the first time. -/
def Space.fresh : Space := { Space.blank with migrations := Space.knownMigrations }

/-- A vault over an empty place starts with a fresh space and keeps no validator. -/
theorem Vault.openOver_blank {config : Config} (h : config.validate = .ok ()) :
    Vault.openOver config (some .blank) = .ok ⟨config, .fresh, []⟩ := by
  unfold Vault.openOver
  rw [h]
  cases config.isInMemory <;> rfl

/-- A space with the validators that each of its handles keeps. -/
structure Site where
  space : Space
  kept : Nat → ValidatorCache

/-- What can happen at a site. -/
inductive Step
  /-- A handle is opened, in place of the one that had its number. -/
  | opening (handle : Nat)
  /-- A request is made of a handle. -/
  | asking (handle : Nat) (c : Circumstances) (limits : PageLimits) (r : Request)

/-- Whether a step asks only what satisfies a condition. -/
def Step.Asks (P : Request → Prop) : Step → Prop
  | .opening _ => True
  | .asking _ _ _ r => P r

theorem Step.Asks.imp {P Q : Request → Prop} {step : Step} (h : step.Asks P)
    (himp : ∀ r, P r → Q r) : step.Asks Q := by
  cases step with
  | opening handle => trivial
  | asking handle c limits r => exact himp r h

/-- Whether a document that is written as text reads back as it was. -/
def Json.ReadsBack (v : Json) : Prop := Json.read? v.print = some v

/-- A request with its answer, and the space of which it was made. -/
structure Moment where
  before : Space
  request : Request
  answer : Answer

namespace Site

/-- A fresh space, of which no handle has compiled a validator yet. -/
def fresh : Site := ⟨.fresh, fun _ => []⟩

/-- What a step leaves behind. A handle that does not open changes nothing. -/
def next (site : Site) : Step → Site
  | .opening handle =>
    match site.space.migrate with
    | .ok s => ⟨s, Function.update site.kept handle []⟩
    | .error _ => site
  | .asking handle c limits r =>
    let (_, s, kept) := site.space.answer c limits r (site.kept handle)
    ⟨s, Function.update site.kept handle kept⟩

/-- The request that a step makes, with its answer. -/
def moment? (site : Site) : Step → Option Moment
  | .opening _ => none
  | .asking handle c limits r =>
    some ⟨site.space, r, (site.space.answer c limits r (site.kept handle)).1⟩

/-- A handle answers like a vault of its own over the space of the site. -/
theorem next_asking (site : Site) (config : Config) (handle : Nat) (c : Circumstances)
    (r : Request) :
    (⟨config, site.space, site.kept handle⟩ : Vault).answer c r =
      ((site.space.answer c config.pageLimits r (site.kept handle)).1,
        ⟨config, (site.next (.asking handle c config.pageLimits r)).space,
          (site.next (.asking handle c config.pageLimits r)).kept handle⟩) := by
  simp only [Vault.answer, next, Function.update_self]

/-- **A step records migrations or is a move.** -/
theorem next_cases (site : Site) (step : Step) :
    site.moment? step = none ∧
        (∃ migrations, (site.next step).space = { site.space with migrations }) ∨
      ∃ handle c limits r a, step = .asking handle c limits r ∧
        site.moment? step = some ⟨site.space, r, a⟩ ∧
        Space.Move c site.space (site.kept handle) r a (site.next step).space := by
  cases step with
  | opening handle =>
    refine .inl ⟨rfl, ?_⟩
    unfold next
    cases hmigrate : site.space.migrate with
    | error e => exact ⟨site.space.migrations, rfl⟩
    | ok s =>
      simp only [Space.migrate] at hmigrate
      split at hmigrate
      · cases hmigrate
      · obtain rfl := Except.ok.inj hmigrate
        exact ⟨_, rfl⟩
  | asking handle c limits r =>
    exact .inr ⟨handle, c, limits, r, _, rfl, rfl,
      Space.answer_move c limits r site.space (site.kept handle)⟩

/-- **What a step keeps**: what was kept before it, and at most the validator of a version that
governs a table. -/
theorem kept_next {site : Site} {step : Step} {handle : Nat} {v : Validator}
    (h : v ∈ (site.next step).kept handle) :
    (∃ handle, v ∈ site.kept handle) ∨ ∃ table r, site.space.governingSchema table = .ok r ∧
      ValidatorCache.compiled r = .ok v := by
  cases step with
  | opening other =>
    unfold next at h
    cases hmigrate : site.space.migrate with
    | error e =>
      simp only [hmigrate] at h
      exact .inl ⟨handle, h⟩
    | ok s =>
      simp only [hmigrate, Function.update_apply] at h
      split at h
      · cases h
      · exact .inl ⟨handle, h⟩
  | asking other c limits r =>
    simp only [next, Function.update_apply] at h
    split at h
    · rcases Space.answer_kept c limits r site.space (site.kept other) with
        hkept | ⟨table, r, w, hgoverning, hcompiled, hkept⟩ <;> rw [hkept] at h
      · exact .inl ⟨other, h⟩
      · rcases List.mem_append.1 h with h | h
        · exact .inl ⟨other, (List.mem_filter.1 h).1⟩
        · obtain rfl := List.mem_singleton.1 h
          exact .inr ⟨table, r, hgoverning, hcompiled⟩
    · exact .inl ⟨handle, h⟩

/-- **What lasts of the versions changes only by creation**, which adds the row of its plan. -/
theorem lasting_cases (site : Site) (step : Step) :
    (site.next step).space.versions.map SchemaVersion.lasting =
        site.space.versions.map SchemaVersion.lasting ∨
      ∃ handle c limits d checked record, step = .asking handle c limits (.createSchema d) ∧
        d.check = .ok checked ∧
        Space.planBy SchemaVersion.first? SchemaVersion.latest? c d checked site.space =
          .ok record ∧
        (site.next step).space.versions.map SchemaVersion.lasting =
          (site.space.versions ++ [Space.rowOf record]).map SchemaVersion.lasting := by
  rcases site.next_cases step with ⟨-, migrations, hs⟩ | ⟨handle, c, limits, r, a, rfl, -, hmove⟩
  · exact .inl (by rw [hs])
  · rcases hmove.turn.lasting with hsame | ⟨d, checked, record, rfl, hd, hplan, hsame⟩
    · exact .inl hsame
    · exact .inr ⟨handle, c, limits, d, checked, record, rfl, hd, hplan, hsame⟩

/-- A stored version stays stored, and keeps all but its flags. -/
theorem lasting_next (site : Site) (step : Step) {row : VersionRow}
    (h : row ∈ site.space.versions) :
    ∃ row' ∈ (site.next step).space.versions, row'.lasting = row.lasting := by
  rw [← List.mem_map]
  rcases site.lasting_cases step with hsame | ⟨_, _, _, _, _, _, -, -, -, hsame⟩ <;> rw [hsame]
  · exact List.mem_map_of_mem h
  · exact List.mem_map_of_mem (List.mem_append_left _ h)

/-! ## Runs -/

/-- What a run leaves behind. -/
def after (site : Site) (run : List Step) : Site := run.foldl next site

/-- Whether every step of a run satisfies a condition at the site where it is taken. -/
def Along (P : Site → Step → Prop) (site : Site) : List Step → Prop
  | [] => True
  | step :: run => P site step ∧ (site.next step).Along P run

/-- The requests of a run with their answers. -/
def history (site : Site) : List Step → List Moment
  | [] => []
  | step :: run => (site.moment? step).toList ++ (site.next step).history run

variable {site : Site} {run : List Step} {step : Step}

theorem after_concat : site.after (run ++ [step]) = (site.after run).next step := by
  simp only [after, List.foldl_append, List.foldl_cons, List.foldl_nil]

theorem history_concat :
    site.history (run ++ [step]) =
      site.history run ++ ((site.after run).moment? step).toList := by
  induction run generalizing site with
  | nil => simp [history, after]
  | cons first run ih =>
    rw [List.cons_append, history, ih, history, List.append_assoc]
    rfl

theorem along_true : site.Along (fun _ _ => True) run := by
  induction run generalizing site with
  | nil => trivial
  | cons step run ih => exact ⟨trivial, ih⟩

/-- **Induction over a run.** What every step preserves that satisfies its condition, a run
preserves all of whose steps do. -/
theorem after_of_step {P : Site → Step → Prop} {I : Site → Prop}
    (hstep : ∀ site step, P site step → I site → I (site.next step))
    (hrun : site.Along P run) (h : I site) : I (site.after run) := by
  induction run generalizing site with
  | nil => exact h
  | cons step run ih => exact ih hrun.2 (hstep site step hrun.1 h)

end Site

/-! ## A short run -/

namespace Sample

/-- An identifier of a schema. -/
def first : Identifier := ⟨1, by decide⟩

@[inherit_doc first]
def second : Identifier := ⟨2, by decide⟩

/-- A definition that asks for an object with a title. -/
def definition : Json :=
  .object [("required", .array [.string "title"]), ("type", .string "object")]

/-- What the definition compiles to. -/
def schema : Schema :=
  Schema.ruled
    (Schema.OwnFindings.read [("required", .array [.string "title"]), ("type", .string "object")]
      "#").rules [] none none

def draft : SchemaDraft where
  schemaId := none
  version := none
  definition := definition
  tableName := "notes"
  slug := "Notes"
  category := "c"

/-- A payload with a title. -/
def payload : Json := .object [("title", .string "first")]

/-- A category, two versions of a schema, between which the clock goes back, and an entity. -/
def run : List Step :=
  [.opening 0,
    .asking 0 (.calm 0 first) .standard (.changeCategories [.upsert "c" "C"]),
    .asking 0 (.calm 2 first) .standard (.createSchema draft),
    .asking 1 (.calm 1 second) .standard (.createSchema draft),
    .asking 0 (.calm 3 second) .standard (.createEntity "notes" payload none)]

/-- The row of a version that the run creates. -/
def row (version : Version) (now : Int64) (active : Bool) : VersionRow where
  schemaId := ⟨first⟩
  version := version
  definition := definition.print
  tableName := "notes"
  slug := "notes"
  category := "c"
  createdAt := now
  active := active
  deleted := false

theorem compile_definition : Schema.compile definition = .ok schema := by
  rw [Schema.compile_eq_ok_iff, definition, Schema.compileAt_of_no_parts rfl rfl rfl]
  exact ⟨rfl, rfl⟩

theorem check_draft : draft.check = .ok ⟨"notes", none⟩ := by
  have herrors : draft.definitionErrors = [] :=
    SchemaDraft.definitionErrors_eq_nil_iff.2 ⟨_, _, schema, rfl, compile_definition⟩
  rw [SchemaDraft.check, SchemaDraft.errors, herrors]
  decide +kernel

/-- The space before the first version is created. -/
theorem after_two :
    (Site.fresh.after (run.take 2)).space = ⟨[⟨"c", "C", false⟩], [], [], [1, 2]⟩ := by
  decide +kernel

/-- The space after the first version has been created. -/
theorem after_three :
    (Site.fresh.after (run.take 3)).space =
      ⟨[⟨"c", "C", false⟩], [row ⟨1, 0, 0⟩ 2 true], [], [1, 2]⟩ := by
  simp only [run, List.take, Site.after, List.foldl, Site.next, Space.answer, Space.createSchema,
    check_draft]
  decide +kernel

/-- The space after the second version has been created. -/
theorem after_four :
    (Site.fresh.after (run.take 4)).space =
      ⟨[⟨"c", "C", false⟩], [row ⟨1, 0, 0⟩ 2 false, row ⟨1, 0, 1⟩ 1 true], [], [1, 2]⟩ := by
  simp only [run, List.take, Site.after, List.foldl, Site.next, Space.answer, Space.createSchema,
    check_draft]
  decide +kernel

/-! ### A definition that cannot be read back -/

/-- Arrays that are nested as deep as the number says. -/
def nested : Nat → Json
  | 0 => .null
  | depth + 1 => .array [nested depth]

/-- A definition that is nested deeper than what is read. -/
def deep : Json := .object [("const", nested 127)]

def deepDraft : SchemaDraft :=
  { draft with definition := deep, tableName := "depths", slug := "Depths" }

/-- The row that the draft is stored as. -/
def deepRow : VersionRow where
  schemaId := ⟨second⟩
  version := ⟨1, 0, 0⟩
  definition := deep.print
  tableName := "depths"
  slug := "depths"
  category := "c"
  createdAt := 4
  active := true
  deleted := false

/-- The creation of a schema with the definition. -/
def deepening : Step := .asking 2 (.calm 4 second) .standard (.createSchema deepDraft)

theorem check_deepDraft : deepDraft.check = .ok ⟨"depths", none⟩ := by
  have hcompile : ∃ schema, Schema.compile deep = .ok schema := by
    refine ⟨_, Schema.compile_eq_ok_iff.2 ⟨?_, rfl⟩⟩
    rw [deep, Schema.compileAt_of_no_parts rfl rfl rfl]
    rfl
  obtain ⟨schema, hcompile⟩ := hcompile
  have herrors : deepDraft.definitionErrors = [] :=
    SchemaDraft.definitionErrors_eq_nil_iff.2 ⟨_, _, schema, rfl, hcompile⟩
  rw [SchemaDraft.check, SchemaDraft.errors, herrors]
  decide +kernel

theorem read?_deep : Json.read? deepRow.definition = none := by
  rw [deepRow, Json.read?, Json.print, String.toList_ofList]
  decide +kernel

/-- The space after the schema has been created, beside another one. -/
theorem after_deepening :
    (Site.fresh.after (run.take 4 ++ [deepening])).space =
      ⟨[⟨"c", "C", false⟩], [row ⟨1, 0, 0⟩ 2 false, row ⟨1, 0, 1⟩ 1 true, deepRow], [],
        [1, 2]⟩ := by
  rw [Site.after_concat, deepening, Site.next, after_four]
  simp only [Space.answer, Space.createSchema, check_deepDraft]
  decide +kernel

end Sample

end SchemaVault
