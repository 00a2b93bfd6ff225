import SchemaVault.Proofs.Schemas.Slug
import Mathlib.Computability.Language

/-!
# Slugs as joined runs

A text is normalized in one pass that keeps in mind whether a gap is pending. What the pass comes to
is a split and a join: the lower case of the text is split at the characters that are no slug
characters, the empty pieces are dropped, and what is left is joined by hyphens (`join_eq`). The
pieces are the runs of slug characters that cannot be made longer (`mem_runs_iff`).

The inductions follow the gaps: a text is a run, or a run, a gap character and a text
(`induction_on_gaps`). The form of a slug, `[a-z0-9]+(-[a-z0-9]+)*`, is given as a language, and the
normal slugs are its words (`isNormal_iff_mem_kebab`). Since a gap ends a run, a text is normalized
in its parts wherever a gap parts it (`normalize_append_gap`).
-/

namespace SchemaVault.Slug

open scoped Computability

variable {c x : Char} {cs run as bs : List Char} {s : String}

/-! ## Runs -/

/-- The runs of slug characters in their order: what stands between the other characters, but for
the empty pieces. -/
def runs (cs : List Char) : List (List Char) :=
  (cs.splitOnP fun c => !isSlugChar c).filter fun run => !run.isEmpty

/-- A run of slug characters that cannot be made longer where it stands in a text. -/
structure IsMaximalRun (cs run : List Char) : Prop where
  nonempty : run ≠ []
  slugChars : ∀ c ∈ run, isSlugChar c = true
  maximal : ∃ before after, cs = before ++ run ++ after ∧
    (∀ c ∈ before.getLast?, isSlugChar c = false) ∧ ∀ c ∈ after.head?, isSlugChar c = false

theorem runs_of_all (h : ∀ c ∈ run, isSlugChar c = true) :
    runs run = if run = [] then [] else [run] := by
  rw [runs, List.splitOnP_eq_singleton fun c hc => by rw [h c hc]; rfl]
  cases run <;> rfl

/-- A character that is no slug character ends the runs before it. -/
theorem runs_append_cons (hx : isSlugChar x = false) (as bs : List Char) :
    runs (as ++ x :: bs) = runs as ++ runs bs := by
  rw [runs, List.splitOnP_append_cons as bs (by rw [hx]; rfl), List.filter_append]
  rfl

/-- Induction over the characters that are no slug characters. -/
theorem induction_on_gaps {P : List Char → Prop} (cs : List Char)
    (run : ∀ run, (∀ c ∈ run, isSlugChar c = true) → P run)
    (gap : ∀ run x rest, (∀ c ∈ run, isSlugChar c = true) → isSlugChar x = false → P rest →
      P (run ++ x :: rest)) : P cs := by
  -- The run before `cs` is kept aside, for the induction takes one character at a time.
  suffices h : ∀ before, (∀ c ∈ before, isSlugChar c = true) → P (before ++ cs) from
    h [] (List.forall_mem_nil _)
  induction cs with
  | nil => exact fun before hbefore => run _ (by rwa [List.append_nil])
  | cons c cs ih =>
    intro before hbefore
    cases hc : isSlugChar c with
    | true =>
      rw [List.append_cons]
      refine ih _ fun d hd => ?_
      rcases List.mem_append.1 hd with hd | hd
      · exact hbefore d hd
      · rwa [List.mem_singleton.1 hd]
    | false => exact gap before c cs hbefore hc (ih [] (List.forall_mem_nil _))

theorem isMaximalRun_of_mem_runs (cs : List Char) : ∀ run ∈ runs cs, IsMaximalRun cs run := by
  have hwhole : ∀ {word run : List Char}, (∀ c ∈ word, isSlugChar c = true) → run ∈ runs word →
      run = word ∧ word ≠ [] := by
    intro word run hword hrun
    rw [runs_of_all hword] at hrun
    split at hrun
    · cases hrun
    · rename_i hne
      exact ⟨List.mem_singleton.1 hrun, hne⟩
  induction cs using induction_on_gaps with
  | run word hword =>
    intro run hrun
    obtain ⟨rfl, hne⟩ := hwhole hword hrun
    exact ⟨hne, hword, [], [], by simp, nofun, nofun⟩
  | gap word x rest hword hx ih =>
    intro run hrun
    rw [runs_append_cons hx] at hrun
    rcases List.mem_append.1 hrun with hrun | hrun
    · obtain ⟨rfl, hne⟩ := hwhole hword hrun
      refine ⟨hne, hword, [], x :: rest, rfl, nofun, fun c hc => ?_⟩
      rwa [← Option.some.inj hc]
    · obtain ⟨hne, hall, before, after, rfl, hbefore, hafter⟩ := ih run hrun
      refine ⟨hne, hall, word ++ x :: before, after, by simp, fun c hc => ?_, hafter⟩
      rw [List.getLast?_append_cons] at hc
      cases before with
      | nil =>
        rwa [← Option.some.inj hc]
      | cons y before => exact hbefore c (by rwa [List.getLast?_cons_cons] at hc)

theorem mem_runs_of_isMaximalRun (h : IsMaximalRun cs run) : run ∈ runs cs := by
  obtain ⟨hne, hrun, before, after, rfl, hbefore, hafter⟩ := h
  have hright : run ∈ runs (run ++ after) := by
    have hself : run ∈ runs run := by
      rw [runs_of_all hrun, if_neg hne]
      exact List.mem_singleton_self run
    cases after with
    | nil => rwa [List.append_nil]
    | cons y after =>
      rw [runs_append_cons (hafter y rfl)]
      exact List.mem_append_left _ hself
  rcases List.eq_nil_or_concat before with rfl | ⟨before, x, rfl⟩
  · exact hright
  · rw [List.append_assoc, List.concat_eq_append, List.append_assoc, List.singleton_append,
      runs_append_cons (hbefore x (by simp))]
    exact List.mem_append_right _ hright

/-- **The runs are the maximal ones.** -/
theorem mem_runs_iff : run ∈ runs cs ↔ IsMaximalRun cs run :=
  ⟨isMaximalRun_of_mem_runs cs run, mem_runs_of_isMaximalRun⟩

/-! ## Joining -/

theorem join_of_gap (hx : isSlugChar x = false) (begun gap : Bool) (rest : List Char) :
    join begun gap (x :: rest) = join begun true rest := by
  rw [join, hx]
  rfl

theorem join_of_run (hne : run ≠ []) (hrun : ∀ c ∈ run, isSlugChar c = true) (begun gap : Bool)
    (rest : List Char) :
    join begun gap (run ++ rest) =
      (if begun && gap then '-' :: run else run) ++ join true false rest := by
  induction run generalizing begun gap with
  | nil => exact absurd rfl hne
  | cons c run ih =>
    obtain ⟨hc, hrun⟩ := List.forall_mem_cons.1 hrun
    have htail : join true false (run ++ rest) = run ++ join true false rest := by
      cases run with
      | nil => rfl
      | cons d run => exact ih (List.cons_ne_nil d run) hrun true false
    rw [List.cons_append, join, if_pos hc, htail]
    split <;> rfl

/-- After a run and a gap, every run is joined by a hyphen. -/
theorem join_begun (cs : List Char) : join true true cs = (runs cs).flatMap ('-' :: ·) := by
  induction cs using induction_on_gaps with
  | run run hrun =>
    rw [runs_of_all hrun]
    split
    · rename_i hnil
      rw [hnil]
      rfl
    · rename_i hne
      have h := join_of_run hne hrun true true []
      rw [List.append_nil] at h
      rw [h]
      simp [join]
  | gap run x rest hrun hx ih =>
    rw [runs_append_cons hx, runs_of_all hrun, List.flatMap_append, ← ih]
    split
    · rename_i hnil
      rw [hnil, List.nil_append, join_of_gap hx]
      rfl
    · rename_i hne
      rw [join_of_run hne hrun, join_of_gap hx]
      simp

/-- Before the first run, the hyphen is left out. -/
theorem join_unbegun (gap : Bool) (cs : List Char) :
    join false gap cs = (join true true cs).tail := by
  induction cs generalizing gap with
  | nil => rfl
  | cons c cs ih =>
    cases hc : isSlugChar c with
    | true => simp [join, hc]
    | false => rw [join_of_gap hc, join_of_gap hc, ih]

theorem intercalate_eq_tail (sep : Char) (words : List (List Char)) :
    [sep].intercalate words = (words.flatMap (sep :: ·)).tail := by
  induction words with
  | nil => rfl
  | cons word words ih =>
    cases words with
    | nil => simp
    | cons next words =>
      rw [List.intercalate_cons_cons, ih]
      simp

/-- **Joining puts a hyphen between each two runs.** -/
theorem join_eq (gap : Bool) (cs : List Char) :
    join false gap cs = ['-'].intercalate (runs cs) := by
  rw [join_unbegun, join_begun, intercalate_eq_tail]

theorem join_eq_nil_iff (gap : Bool) : join false gap cs = [] ↔ runs cs = [] := by
  rw [join_eq]
  constructor
  · intro h
    cases hruns : runs cs with
    | nil => rfl
    | cons run words =>
      have hrun : IsMaximalRun cs run := mem_runs_iff.1 (hruns ▸ List.mem_cons_self)
      rw [hruns, intercalate_eq_tail, List.flatMap_cons, List.cons_append, List.tail_cons,
        List.append_eq_nil_iff] at h
      exact absurd h.1 hrun.nonempty
  · intro h
    rw [h]
    rfl

theorem runs_eq_nil_iff : runs cs = [] ↔ ∀ c ∈ cs, isSlugChar c = false := by
  rw [← join_eq_nil_iff false]
  suffices h : ∀ gap, join false gap cs = [] ↔ ∀ c ∈ cs, isSlugChar c = false from h false
  induction cs with
  | nil => simp [join]
  | cons c cs ih =>
    intro gap
    cases hc : isSlugChar c with
    | true => simp [join, hc]
    | false => simp [join_of_gap hc, hc, ih]

/-! ## The form of a slug -/

/-- A single slug character. -/
def slugChar : Language Char := {word | ∃ c, isSlugChar c = true ∧ word = [c]}

/-- The language `[a-z0-9]+`. -/
def word : Language Char := slugChar * slugChar∗

/-- The language `[a-z0-9]+(-[a-z0-9]+)*`. -/
def kebab : Language Char := word * (({['-']} : Language Char) * word)∗

theorem mem_kstar_slugChar : run ∈ slugChar∗ ↔ ∀ c ∈ run, isSlugChar c = true := by
  rw [Language.mem_kstar]
  constructor
  · rintro ⟨words, rfl, hwords⟩ c hc
    obtain ⟨w, hw, hc⟩ := List.mem_flatten.1 hc
    obtain ⟨d, hd, rfl⟩ := hwords w hw
    rwa [List.mem_singleton.1 hc]
  · intro h
    refine ⟨run.map fun c => [c], (List.flatMap_singleton' run).symm, fun w hw => ?_⟩
    obtain ⟨c, hc, rfl⟩ := List.mem_map.1 hw
    exact ⟨c, h c hc, rfl⟩

theorem mem_word_iff : run ∈ word ↔ run ≠ [] ∧ ∀ c ∈ run, isSlugChar c = true := by
  rw [word, Language.mem_mul]
  constructor
  · rintro ⟨_, ⟨c, hc, rfl⟩, cs, hcs, rfl⟩
    exact ⟨List.cons_ne_nil c cs, List.forall_mem_cons.2 ⟨hc, mem_kstar_slugChar.1 hcs⟩⟩
  · rintro ⟨hne, h⟩
    cases run with
    | nil => exact absurd rfl hne
    | cons c cs =>
      obtain ⟨hc, hcs⟩ := List.forall_mem_cons.1 h
      exact ⟨[c], ⟨c, hc, rfl⟩, cs, mem_kstar_slugChar.2 hcs, rfl⟩

theorem normal_of_mem_word (h : run ∈ word) : Normal run := by
  rw [mem_word_iff] at h
  obtain ⟨hne, h⟩ := h
  induction run with
  | nil => exact absurd rfl hne
  | cons c run ih =>
    obtain ⟨hc, hrun⟩ := List.forall_mem_cons.1 h
    cases run with
    | nil => exact .single hc
    | cons d run => exact .cons hc (ih (List.cons_ne_nil d run) hrun)

theorem normal_append_hyphen (h : run ∈ word) (hcs : Normal cs) : Normal (run ++ '-' :: cs) := by
  rw [mem_word_iff] at h
  obtain ⟨hne, h⟩ := h
  induction run with
  | nil => exact absurd rfl hne
  | cons c run ih =>
    obtain ⟨hc, hrun⟩ := List.forall_mem_cons.1 h
    cases run with
    | nil => exact .hyphen hc hcs
    | cons d run => exact .cons hc (ih (List.cons_ne_nil d run) hrun)

theorem mem_kebab_of_normal (h : Normal cs) : cs ∈ kebab := by
  have hchar : ∀ {c}, isSlugChar c = true → [c] ∈ word := fun hc =>
    mem_word_iff.2 ⟨List.cons_ne_nil _ [], by simpa using hc⟩
  induction h with
  | single hc => exact ⟨_, hchar hc, [], Language.nil_mem_kstar _, rfl⟩
  | cons hc _ ih =>
    obtain ⟨run, hrun, rest, hrest, rfl⟩ := ih
    obtain ⟨-, hall⟩ := mem_word_iff.1 hrun
    exact ⟨_ :: run, mem_word_iff.2 ⟨List.cons_ne_nil _ run, List.forall_mem_cons.2 ⟨hc, hall⟩⟩,
      rest, hrest, rfl⟩
  | hyphen hc _ ih =>
    obtain ⟨run, hrun, rest, hrest, rfl⟩ := ih
    obtain ⟨words, rfl, hwords⟩ := Language.mem_kstar.1 hrest
    refine ⟨_, hchar hc, ('-' :: run) ++ words.flatten, ?_, rfl⟩
    exact Language.join_mem_kstar (L := ('-' :: run) :: words)
      (List.forall_mem_cons.2 ⟨⟨['-'], rfl, run, hrun, rfl⟩, hwords⟩)

theorem normal_of_mem_kebab (h : cs ∈ kebab) : Normal cs := by
  obtain ⟨run, hrun, rest, hrest, rfl⟩ := h
  obtain ⟨words, rfl, hwords⟩ := Language.mem_kstar.1 hrest
  clear hrest
  induction words generalizing run with
  | nil =>
    change Normal (run ++ [])
    rw [List.append_nil]
    exact normal_of_mem_word hrun
  | cons w words ih =>
    obtain ⟨⟨_, rfl, next, hnext, rfl⟩, hrest⟩ := List.forall_mem_cons.1 hwords
    have h := normal_append_hyphen hrun (ih next hnext hrest)
    simpa using h

/-- **The normal slugs are the words of the form** `[a-z0-9]+(-[a-z0-9]+)*`. -/
theorem isNormal_iff_mem_kebab : IsNormal s ↔ s.toList ∈ kebab :=
  ⟨mem_kebab_of_normal, normal_of_mem_kebab⟩

/-! ## Normalizing -/

/-- The lower case of a text, character by character. -/
def lowered (s : String) : List Char := s.toList.flatMap Text.lowercase

/-- **A text is normalized to its runs with hyphens between them.** -/
theorem normalize_eq (s : String) :
    normalize s = "-".intercalate ((runs (lowered s)).map String.ofList) := by
  rw [normalize, chars, join_eq, ← String.toList_inj, String.toList_ofList,
    String.toList_intercalate, List.map_map]
  simp [lowered, Function.comp_def]

theorem normalize_eq_empty_iff : normalize s = "" ↔ runs (lowered s) = [] := by
  rw [normalize, String.ofList_eq_empty_iff, chars, join_eq_nil_iff]
  rfl

theorem lowercase_ne_nil (c : Char) : Text.lowercase c ≠ [] := by
  unfold Text.lowercase
  split
  · exact List.cons_ne_nil _ _
  · split <;> exact List.cons_ne_nil _ _

theorem runs_append_gap {gap : List Char} (hne : gap ≠ [])
    (hgap : ∀ c ∈ gap, isSlugChar c = false) (as bs : List Char) :
    runs (as ++ gap ++ bs) = runs as ++ runs bs := by
  induction gap generalizing as with
  | nil => exact absurd rfl hne
  | cons c gap ih =>
    obtain ⟨hc, hgap⟩ := List.forall_mem_cons.1 hgap
    rw [List.append_assoc, List.cons_append, runs_append_cons hc]
    cases gap with
    | nil => rfl
    | cons d gap => exact congrArg _ (ih (List.cons_ne_nil d gap) hgap [])

/-- **A gap parts a text.** Whatever stands before and after it is normalized on its own. -/
theorem normalize_append_gap (hx : ∀ c ∈ Text.lowercase x, isSlugChar c = false) (a b : String) :
    normalize (a ++ String.singleton x ++ b) =
      "-".intercalate ([normalize a, normalize b].filter (· ≠ "")) := by
  have hlowered : lowered (a ++ String.singleton x ++ b) =
      lowered a ++ Text.lowercase x ++ lowered b := by
    simp [lowered]
  have hwhole : normalize (a ++ String.singleton x ++ b) = "-".intercalate
      ((runs (lowered a)).map String.ofList ++ (runs (lowered b)).map String.ofList) := by
    rw [normalize_eq, hlowered, runs_append_gap (lowercase_ne_nil x) hx, List.map_append]
  rw [hwhole]
  by_cases ha : runs (lowered a) = [] <;> by_cases hb : runs (lowered b) = []
  · simp [ha, hb, normalize_eq]
  · have hne : normalize b ≠ "" := normalize_eq_empty_iff.not.2 hb
    simp [ha, normalize_eq_empty_iff.2 ha, hne, ← normalize_eq]
  · have hne : normalize a ≠ "" := normalize_eq_empty_iff.not.2 ha
    simp [hb, normalize_eq_empty_iff.2 hb, hne, ← normalize_eq]
  · have hnea : normalize a ≠ "" := normalize_eq_empty_iff.not.2 ha
    have hneb : normalize b ≠ "" := normalize_eq_empty_iff.not.2 hb
    rw [String.intercalate_append_of_ne_nil (by simpa using ha) (by simpa using hb), ← normalize_eq,
      ← normalize_eq]
    simp [hnea, hneb]

theorem normalize_eq_self_iff : normalize s = s ↔ s = "" ∨ s.toList ∈ kebab := by
  rw [← isNormal_iff_mem_kebab, isNormal_iff]
  by_cases hs : s = ""
  · subst hs
    exact iff_of_true rfl (.inl rfl)
  · simp [hs]

/-! ## What it says -/

/-- **Normalizing is canonical.** Every text is normalized to the maximal runs of slug characters in
its lower case, joined by hyphens. So the outcome is empty exactly if there is no such character,
and has the form of a slug otherwise. Normalizing it again changes nothing, and what is left
unchanged is the empty text and every text of this form. A character without slug characters in its
lower case parts a text: the slugs of the parts are joined, unless one of them is empty. -/
theorem normalize_canonical (raw : String) :
    normalize raw = "-".intercalate ((runs (lowered raw)).map String.ofList) ∧
      (∀ run, run ∈ runs (lowered raw) ↔ IsMaximalRun (lowered raw) run) ∧
      (normalize raw = "" ↔ ∀ c ∈ lowered raw, isSlugChar c = false) ∧
      (normalize raw ≠ "" → (normalize raw).toList ∈ kebab) ∧
      normalize (normalize raw) = normalize raw ∧
      (normalize raw = raw ↔ raw = "" ∨ raw.toList ∈ kebab) ∧
      ∀ x b, (∀ c ∈ Text.lowercase x, isSlugChar c = false) →
        normalize (raw ++ String.singleton x ++ b) =
          "-".intercalate ([normalize raw, normalize b].filter (· ≠ "")) := by
  have hform : normalize raw ≠ "" → (normalize raw).toList ∈ kebab := fun hne =>
    isNormal_iff_mem_kebab.1 ((normalize_cases raw).resolve_left hne)
  refine ⟨normalize_eq raw, fun run => mem_runs_iff, ?_, hform, ?_, normalize_eq_self_iff,
    fun x b hx => normalize_append_gap hx raw b⟩
  · rw [normalize_eq_empty_iff, runs_eq_nil_iff]
  · exact normalize_eq_self_iff.2 (or_iff_not_imp_left.2 hform)

/-- The Kelvin sign is lowered to `k`, and a capital `I` with a dot to an `i` with a mark over it,
which ends the run. -/
theorem normalize_canonical_sample :
    (∀ c ∈ Text.lowercase '_', isSlugChar c = false) ∧
      normalize "\u212Aİz" ≠ "" ∧ (normalize "\u212Aİz").toList ∈ kebab ∧
      normalize ("\u212Aİz" ++ String.singleton '_' ++ " 9--") = "ki-z-9" := by
  have hgap : ∀ c ∈ Text.lowercase '_', isSlugChar c = false := by
    have hlower : Text.lowercase '_' = ['_'] := by decide +kernel
    rw [hlower, List.forall_mem_singleton]
    decide +kernel
  have hleft : normalize "\u212Aİz" = "ki-z" := by decide +kernel
  have hright : normalize " 9--" = "9" := by decide +kernel
  have hne : normalize "\u212Aİz" ≠ "" := by rw [hleft]; decide
  obtain ⟨-, -, -, hform, -, -, hparts⟩ := normalize_canonical "\u212Aİz"
  refine ⟨hgap, hne, hform hne, ?_⟩
  rw [hparts '_' " 9--" hgap, hleft, hright]
  decide +kernel

end SchemaVault.Slug
