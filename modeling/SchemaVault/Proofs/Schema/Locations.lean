import SchemaVault.Proofs.Json.Ordered
import SchemaVault.Proofs.Schema.Compilation
import SchemaVault.Schema.Check

/-!
# Where issues are

An issue tells where it is by a text, and here locations are what these texts stand for. `Location`
leads from a payload inwards, and `Location.text` writes it down: the payload itself as `$`, its
members by their bare names, and all else after the place it lies in. `Checks` says which part of a
payload is checked against which part of a schema, and where.

Each issue belongs to a location at which something is wrong, or to a member that a schema requires
and the object there lacks (`issue_located`). Its path is the text of that location, but for one
kind of location. The check recognises the payload by its path, and a member of the payload that is
itself named `$` has the same path. What lies below such a member is told as if the member were the
payload, as `x` for instance, where `$.x` is meant (`mislocated_below_root_sign`).
-/

namespace SchemaVault

/-! ## Locations -/

/-- A location in a document, from the document inwards. -/
inductive Location
  /-- The document itself. -/
  | root
  /-- A member of the object at a location. -/
  | member (parent : Location) (name : String)
  /-- An item of the array at a location. -/
  | item (parent : Location) (index : Nat)

namespace Location

/-- **The text of a location.** Only the members of the document itself go by their bare names. -/
def text : Location → String
  | root => "$"
  | member root name => name
  | member parent name => parent.text ++ "." ++ name
  | item parent index => parent.text ++ "[" ++ toString index ++ "]"

/-- The path under which a check tells a location. -/
def path : Location → String
  | root => Schema.rootPath
  | member parent name => Schema.memberPath parent.path name
  | item parent index => Schema.itemPath parent.path index

/-- A location without the members named `$` with which it begins. -/
def unmarked : Location → Location
  | root => root
  | member parent name =>
    match parent.unmarked with
    | root => if name = "$" then root else member root name
    | inner => member inner name
  | item parent index => item parent.unmarked index

/-- Whether a location leads through a member of the member `$` of the document. -/
def BelowRootSign : Location → Prop
  | root => False
  | member (member root "$") _ => True
  | member parent _ => parent.BelowRootSign
  | item parent _ => parent.BelowRootSign

/-! ## Texts and paths -/

theorem text_member {l : Location} (h : l ≠ root) (name : String) :
    (member l name).text = l.text ++ "." ++ name :=
  text.eq_3 l name h

theorem belowRootSign_member {l : Location} (h : l ≠ member root "$") (name : String) :
    (member l name).BelowRootSign ↔ l.BelowRootSign :=
  (BelowRootSign.eq_3 l name h).to_iff

theorem dotted_ne_rootSign (s t : String) : s ++ "." ++ t ≠ "$" := by
  intro h
  have hmem : '.' ∈ (s ++ "." ++ t).toList := by simp
  rw [h] at hmem
  exact absurd hmem (by decide)

theorem bracketed_ne_rootSign (s t : String) : s ++ "[" ++ t ++ "]" ≠ "$" := by
  intro h
  have hmem : '[' ∈ (s ++ "[" ++ t ++ "]").toList := by simp
  rw [h] at hmem
  exact absurd hmem (by decide)

/-- Only the document and its member `$` are written as the root sign alone. -/
theorem text_eq_rootSign_iff {l : Location} : l.text = "$" ↔ l = root ∨ l = member root "$" := by
  cases l with
  | root => simp [text]
  | member parent name =>
    by_cases hroot : parent = root
    · subst hroot
      simp [text]
    · simp [text_member hroot, dotted_ne_rootSign, hroot]
  | item parent index => simp [text, bracketed_ne_rootSign]

theorem unmarked_ne_member_root (l : Location) : l.unmarked ≠ member root "$" := by
  cases l with
  | root => simp [unmarked]
  | member parent name =>
    unfold unmarked
    split
    · split
      · simp
      · simpa
    · rename_i hinner
      simpa using fun h => absurd h hinner
  | item parent index => simp [unmarked]

/-- **The path of a location is the text of the location without the members `$` at its begin.** -/
theorem path_eq (l : Location) : l.path = l.unmarked.text := by
  induction l with
  | root => rfl
  | member parent name ih =>
    have hroot : parent.path = "$" ↔ parent.unmarked = root := by
      rw [ih, text_eq_rootSign_iff, or_iff_left parent.unmarked_ne_member_root]
    rw [path, Schema.memberPath, Schema.rootPath, unmarked]
    by_cases h : parent.unmarked = root
    · rw [if_pos (hroot.2 h), h]
      dsimp only
      split
      · assumption
      · rfl
    · rw [if_neg (mt hroot.1 h), ih]
      split
      · exact absurd ‹_› h
      · exact (text_member h name).symm
  | item parent index ih => rw [path, Schema.itemPath, ih, unmarked, text]

/-- A location below the root sign is told by a path that is too short. -/
theorem length_path_lt {l : Location} (h : l.BelowRootSign) : l.path.length < l.text.length := by
  have hdot : ".".length = 1 := rfl
  induction l with
  | root => exact h.elim
  | member parent name ih =>
    have hroot : parent ≠ root := by
      rintro rfl
      exact ((belowRootSign_member (by simp) name).1 h).elim
    rw [text_member hroot, path, Schema.memberPath]
    simp only [String.length_append]
    by_cases hsign : parent = member root "$"
    · rw [hsign, path, path, if_pos (by rfl)]
      omega
    · have hparent := ih ((belowRootSign_member hsign name).1 h)
      split
      · omega
      · simp only [String.length_append]
        omega
  | item parent index ih =>
    have hparent := ih h
    simp only [path, text, Schema.itemPath, String.length_append]
    omega

/-- **The path of a location is its text, unless it is below the root sign.** -/
theorem path_eq_text_iff {l : Location} : l.path = l.text ↔ ¬l.BelowRootSign := by
  constructor
  · intro h hbelow
    exact absurd (congrArg String.length h) (Nat.ne_of_lt (length_path_lt hbelow))
  · intro h
    induction l with
    | root => rfl
    | member parent name ih =>
      by_cases hsign : parent = member root "$"
      · subst hsign
        exact absurd trivial h
      · by_cases hroot : parent = root
        · subst hroot
          rfl
        · have hparent := ih (mt (belowRootSign_member hsign name).2 h)
          have hne : parent.text ≠ Schema.rootPath :=
            mt text_eq_rootSign_iff.1 (not_or.2 ⟨hroot, hsign⟩)
          rw [text_member hroot, path, Schema.memberPath, hparent, if_neg hne]
    | item parent index ih => rw [path, text, Schema.itemPath, ih h]

end Location

/-- Whether a location leads from a document to a part of it. -/
inductive Json.Leads (v : Json) : Location → Json → Prop
  | root : v.Leads .root v
  | member {l : Location} {members : Members} {name : String} {w : Json}
      (h : v.Leads l (.object members)) (hmember : (name, w) ∈ members) :
      v.Leads (.member l name) w
  | item {l : Location} {vs : List Json} {index : Nat} {w : Json} (h : v.Leads l (.array vs))
      (hitem : vs[index]? = some w) : v.Leads (.item l index) w

namespace Schema

/-! ## What is checked where -/

/-- **What is checked where**, when a payload is checked against a schema: the payload against the
schema, each member of an object against what is declared for it or else for further members, and
each item of an array against what is asked of items. -/
inductive Checks (s : Schema) (v : Json) : Location → Schema → Json → Prop
  | root : s.Checks v .root s v
  | property {l r properties additional items} {members : Json.Members} {name t w}
      (h : s.Checks v l (ruled r properties additional items) (.object members))
      (hdeclared : (name, t) ∈ properties) (hmember : members.lookup name = some w) :
      s.Checks v (.member l name) t w
  | additional {l r properties items} {members : Json.Members} {name t w}
      (h : s.Checks v l (ruled r properties (some t) items) (.object members))
      (hmember : (name, w) ∈ undeclared properties members) : s.Checks v (.member l name) t w
  | item {l r properties additional} {vs : List Json} {index t w}
      (h : s.Checks v l (ruled r properties additional (some t)) (.array vs))
      (hitem : vs[index]? = some w) : s.Checks v (.item l index) t w

/-- The names that a schema requires. -/
def neededNames : Schema → List String
  | always _ => []
  | ruled r _ _ _ => r.required

/-- Whether something is wrong with the part of a payload at a location: what the part is checked
against has an issue there. -/
def Rejects (s : Schema) (v : Json) (l : Location) : Prop :=
  ∃ t w, v.Leads l w ∧ s.Checks v l t w ∧ ∃ message, ⟨l.path, message⟩ ∈ t.issuesAt w l.path

/-- Whether a member that is required at a location is missing there. -/
def Misses (s : Schema) (v : Json) : Location → Prop
  | .member l name => ∃ t members, v.Leads l (.object members) ∧
      s.Checks v l t (.object members) ∧ name ∈ t.neededNames ∧ members.lookup name = none
  | _ => False

/-- Whether an issue is told under the path of a location where something is wrong or missing. -/
def Locates (s : Schema) (v : Json) (i : Issue) : Prop :=
  ∃ l : Location, i.path = l.path ∧ (s.Rejects v l ∨ s.Misses v l)

variable {s t : Schema} {v w : Json} {l : Location} {i : Issue} {r : Rules} {path : String}
  {α : Type}

/-- What is checked at a location is the part of the payload there. -/
theorem Checks.leads (h : s.Checks v l t w) : v.Leads l w := by
  induction h with
  | root => exact .root
  | property _ _ hmember ih => exact .member ih (Json.mem_of_lookup hmember)
  | additional _ hmember ih => exact .member ih (List.mem_filter.1 hmember |>.1)
  | item _ hitem ih => exact .item ih hitem

/-! ## Issues of the rules for a document itself -/

theorem path_of_mem_issueIf {violated : Bool} {message : String}
    (h : i ∈ issueIf violated path message) : i.path = path := by
  unfold issueIf at h
  split at h
  · rw [List.mem_singleton.1 h]
  · cases h

theorem path_of_mem_issueOf {rule : Option α} {violated : α → Bool} {message : α → String}
    (h : i ∈ issueOf rule path violated message) : i.path = path := by
  cases rule with
  | none => cases h
  | some a => exact path_of_mem_issueIf h

theorem path_of_mem_valueIssues (h : i ∈ valueIssues r v path) : i.path = path :=
  (List.mem_append.1 h).elim path_of_mem_issueOf path_of_mem_issueOf

theorem path_of_mem_textIssues {x : String} (h : i ∈ textIssues r x path) : i.path = path := by
  simp only [textIssues, List.mem_append, or_assoc] at h
  rcases h with h | h | h | h <;> exact path_of_mem_issueOf h

theorem path_of_mem_numberIssues {n : Number} (h : i ∈ numberIssues r n path) :
    i.path = path := by
  simp only [numberIssues, List.mem_append, or_assoc] at h
  rcases h with h | h | h | h | h <;> exact path_of_mem_issueOf h

theorem path_of_mem_countIssues {vs : List Json} (h : i ∈ countIssues r vs path) :
    i.path = path := by
  simp only [countIssues, List.mem_append, or_assoc] at h
  rcases h with h | h | h
  · exact path_of_mem_issueOf h
  · exact path_of_mem_issueOf h
  · exact path_of_mem_issueIf h

/-- The path of a missing name is that of the member which it would be. -/
theorem mem_requiredIssues {members : Json.Members} (h : i ∈ requiredIssues r members path) :
    ∃ name ∈ r.required, members.lookup name = none ∧ i.path = memberPath path name := by
  obtain ⟨name, hname, hi⟩ := List.mem_flatMap.1 h
  refine ⟨name, hname, ?_, path_of_mem_issueIf hi⟩
  unfold issueIf at hi
  split at hi
  · exact Option.isNone_iff_eq_none.1 ‹_›
  · cases hi

/-! ## Issues of whole payloads -/

/-- The issue of a part at its own location. -/
theorem Checks.rejects (h : s.Checks v l t w) (hi : i ∈ t.issuesAt w l.path)
    (hpath : i.path = l.path) : s.Rejects v l := by
  refine ⟨t, w, h.leads, h, i.message, ?_⟩
  rw [← hpath] at hi ⊢
  exact hi

/-- **Each issue has the path of a location where something is wrong or missing.** By induction on
the schema: what is checked at a location has issues of its own, for missing names, and those that
are found further inside. -/
theorem locates_of_mem (t : Schema) (w : Json) (path : String) :
    ∀ l : Location, l.path = path → s.Checks v l t w →
      ∀ i ∈ t.issuesAt w path, s.Locates v i := by
  apply issuesAt.induct
    (fun t w path => ∀ l : Location, l.path = path → s.Checks v l t w →
      ∀ i ∈ t.issuesAt w path, s.Locates v i)
    (fun items vs path => ∀ l : Location, l.path = path →
      (∀ t ∈ items, ∀ index w, vs[index]? = some w → s.Checks v (.item l index) t w) →
      ∀ i ∈ itemIssues items vs path, s.Locates v i)
    (fun additional members path => ∀ l : Location, l.path = path →
      (∀ t ∈ additional, ∀ m ∈ members, s.Checks v (.member l m.1) t m.2) →
      ∀ i ∈ additionalIssues additional members path, s.Locates v i)
    (fun properties members path => ∀ l : Location, l.path = path →
      (∀ p ∈ properties, ∀ w, members.lookup p.1 = some w → s.Checks v (.member l p.1) p.2 w) →
      ∀ i ∈ propertyIssues properties members path, s.Locates v i)
  case case1 =>
    intro path w l _ _ i hi
    rw [issuesAt] at hi
    cases hi
  case case2 =>
    rintro w _ l rfl h i hi
    have hpath : i.path = l.path := by
      rw [issuesAt] at hi
      rw [List.mem_singleton.1 hi]
    exact ⟨l, hpath, .inl (h.rejects hi hpath)⟩
  case case3 =>
    rintro r properties additional items w _ _ hwrong l rfl h i hi
    have hpath : i.path = l.path := by
      rw [issuesAt.eq_def] at hi
      dsimp only at hi
      rw [if_pos hwrong] at hi
      exact path_of_mem_issueOf hi
    exact ⟨l, hpath, .inl (h.rejects hi hpath)⟩
  case case4 =>
    rintro r properties additional items w _ _ hright hproperties hadditional hitems l rfl h i hi
    have hown (hpath : i.path = l.path) : s.Locates v i := ⟨l, hpath, .inl (h.rejects hi hpath)⟩
    rw [issuesAt.eq_def] at hi
    dsimp only at hi
    rw [if_neg hright] at hi
    rcases List.mem_append.1 hi with hi | hi
    · exact hown (path_of_mem_valueIssues hi)
    · cases w with
      | null | bool => cases hi
      | string x => exact hown (path_of_mem_textIssues hi)
      | number n => exact hown (path_of_mem_numberIssues hi)
      | array vs =>
        rcases List.mem_append.1 hi with hi | hi
        · exact hown (path_of_mem_countIssues hi)
        · refine hitems vs l rfl (fun t ht index w hw => ?_) i hi
          obtain rfl := Option.mem_def.1 ht
          exact h.item hw
      | object members =>
        simp only [List.mem_append, or_assoc] at hi
        rcases hi with hi | hi | hi
        · obtain ⟨name, hname, hnone, hpath⟩ := mem_requiredIssues hi
          exact ⟨.member l name, hpath, .inr ⟨_, members, h.leads, h, hname, hnone⟩⟩
        · exact hproperties members l rfl (fun p hp w hw => h.property hp hw) i hi
        · refine hadditional members l rfl (fun t ht m hm => ?_) i hi
          obtain rfl := Option.mem_def.1 ht
          exact h.additional hm
  case case5 =>
    intro path members l _ _ i hi
    rw [propertyIssues] at hi
    cases hi
  case case6 =>
    rintro name t properties members _ ih ihs l rfl h i hi
    obtain ⟨hfirst, hrest⟩ := List.forall_mem_cons.1 h
    rw [propertyIssues] at hi
    rcases List.mem_append.1 hi with hi | hi
    · split at hi
      · rename_i w hw
        exact ih w (.member l name) rfl (hfirst w hw) i hi
      · cases hi
    · exact ihs l rfl hrest i hi
  case case7 =>
    intro vs path l _ _ i hi
    rw [itemIssues] at hi
    cases hi
  case case8 =>
    rintro t vs _ ih l rfl h i hi
    rw [itemIssues] at hi
    obtain ⟨⟨w, index⟩, hw, hi⟩ := List.mem_flatMap.1 hi
    exact ih w index (.item l index) rfl (h t rfl index w (List.mem_zipIdx_iff_getElem?.1 hw)) i hi
  case case9 =>
    intro members path l _ _ i hi
    rw [additionalIssues] at hi
    cases hi
  case case10 =>
    rintro members _ l rfl h i hi
    rw [additionalIssues] at hi
    obtain ⟨m, hm, rfl⟩ := List.mem_map.1 hi
    have hchecks := h _ rfl m hm
    refine ⟨.member l m.1, rfl, .inl ?_⟩
    -- The schema of such a member allows nothing, so that it has an issue of its own.
    exact ⟨_, m.2, hchecks.leads, hchecks, _, by rw [issuesAt]; exact List.mem_singleton_self _⟩
  case case11 =>
    rintro t members _ hsome ih l rfl h i hi
    rw [additionalIssues.eq_3 _ _ _ hsome] at hi
    obtain ⟨m, hm, hi⟩ := List.mem_flatMap.1 hi
    exact ih m (.member l m.1) rfl (h t rfl m hm) i hi

end Schema

/-! ## What it says -/

/-- **Each issue tells where it is.** It belongs to a location at which the payload is wrong, or to
a member that is missing where the schema requires it. Its path is the text of that location without
the members named `$` with which the location begins, and hence the text of the location itself,
unless the location is below the member `$` of the payload. -/
theorem issue_located (s : Schema) (v : Json) : ∀ i ∈ s.issues v, ∃ l : Location,
    (s.Rejects v l ∨ s.Misses v l) ∧ i.path = l.unmarked.text ∧
      (i.path = l.text ↔ ¬l.BelowRootSign) := by
  intro i hi
  obtain ⟨l, hpath, hwrong⟩ :=
    Schema.locates_of_mem s v Schema.rootPath .root rfl .root i hi
  exact ⟨l, hwrong, hpath.trans l.path_eq, hpath ▸ l.path_eq_text_iff⟩

/-! ## Below the root sign -/

namespace Sample

/-- A definition that declares a member and asks for nothing else. -/
def declaring (name : String) (d : Json) : Json :=
  .object [("properties", .object [(name, d)])]

/-- A schema that declares a member and asks for nothing else. -/
def declaringSchema (name : String) (s : Schema) : Schema :=
  .ruled (Schema.OwnFindings.read [] "#").rules [(name, s)] none none

theorem compileAt_declaring (name : String) (d : Json) (pointer : String) :
    ∃ inner, Schema.compileAt (declaring name d) pointer =
      ⟨declaringSchema name (Schema.compileAt d inner).value,
        (Schema.compileAt d inner).issues⟩ := by
  refine ⟨Schema.keywordPointer (Schema.keywordPointer pointer "properties")
    (Json.escapeToken name), ?_⟩
  have hproperties : Schema.compileProperties [("properties", .object [(name, d)])] pointer =
      Schema.compileMembers [(name, d)] (Schema.keywordPointer pointer "properties") := rfl
  rw [declaring, Schema.compileAt_object, Schema.compilePart_of_none rfl,
    Schema.compilePart_of_none rfl, hproperties, Schema.compileMembers, Schema.compileMembers]
  have hvalues :
      (Schema.OwnFindings.read [("properties", .object [(name, d)])] pointer).valueIssues = [] := rfl
  have hrequired :
      (Schema.OwnFindings.read [("properties", .object [(name, d)])] pointer).required.issues =
        [] := rfl
  have hitems :
      (Schema.OwnFindings.read [("properties", .object [(name, d)])] pointer).itemIssues = [] := rfl
  simp only [Schema.Finding.clean, hvalues, hrequired, hitems, List.append_nil, List.nil_append]
  rfl

/-- A payload whose member is called like the root sign is allowed no member `x` in it. -/
def marked : Json := declaring "$" (declaring "x" (.bool false))

def markedSchema : Schema := declaringSchema "$" (declaringSchema "x" (.always false))

/-- A payload with such a member. -/
def markedPayload : Json := .object [("$", .object [("x", .null)])]

theorem compile_marked : Schema.compile marked = .ok markedSchema := by
  obtain ⟨pointer, houter⟩ := compileAt_declaring "$" (declaring "x" (.bool false)) "#"
  obtain ⟨inner, hinner⟩ := compileAt_declaring "x" (.bool false) pointer
  rw [hinner, Schema.compileAt] at houter
  rw [Schema.compile, marked, houter]
  rfl

theorem leads_marked {l : Location} {w : Json} (h : markedPayload.Leads l w) :
    l = .root ∧ w = markedPayload ∨ l = .member .root "$" ∧ w = .object [("x", .null)] ∨
      l = .member (.member .root "$") "x" ∧ w = .null := by
  induction h with
  | root => exact .inl ⟨rfl, rfl⟩
  | member _ hmember ih =>
    rcases ih with ⟨rfl, hw⟩ | ⟨rfl, hw⟩ | ⟨rfl, hw⟩
    · cases hw
      cases List.mem_singleton.1 hmember
      exact .inr (.inl ⟨rfl, rfl⟩)
    · cases hw
      cases List.mem_singleton.1 hmember
      exact .inr (.inr ⟨rfl, rfl⟩)
    · cases hw
  | item _ _ ih => rcases ih with ⟨-, hw⟩ | ⟨-, hw⟩ | ⟨-, hw⟩ <;> cases hw

theorem neededNames_marked {l : Location} {t : Schema} {w : Json}
    (h : markedSchema.Checks markedPayload l t w) : t.neededNames = [] := by
  have hparts : t = markedSchema ∨ t = declaringSchema "x" (.always false) ∨ t = .always false := by
    induction h with
    | root => exact .inl rfl
    | property _ hdeclared _ ih =>
      rcases ih with hs | hs | hs
      · cases hs
        cases List.mem_singleton.1 hdeclared
        exact .inr (.inl rfl)
      · cases hs
        cases List.mem_singleton.1 hdeclared
        exact .inr (.inr rfl)
      · cases hs
    | additional _ _ ih | item _ _ ih => rcases ih with hs | hs | hs <;> cases hs
  rcases hparts with rfl | rfl | rfl <;> rfl

theorem not_misses_marked (l : Location) : ¬markedSchema.Misses markedPayload l := by
  cases l with
  | root | item => exact id
  | member parent name =>
    rintro ⟨t, members, -, hchecks, hname, -⟩
    rw [neededNames_marked hchecks] at hname
    cases hname

theorem mem_issues_marked :
    ⟨"x", "no value is allowed here"⟩ ∈ markedSchema.issues markedPayload := by
  decide +kernel

/-- The one issue of the payload is at the member `x`, which is below the root sign. -/
theorem issue_located_marked :
    ⟨"x", "no value is allowed here"⟩ ∈ markedSchema.issues markedPayload ∧
      ∃ l : Location, markedSchema.Rejects markedPayload l ∧ l.BelowRootSign ∧ l.text = "$.x" ∧
        l.unmarked.text = "x" := by
  obtain ⟨l, hwrong, hpath, hiff⟩ := issue_located markedSchema markedPayload _ mem_issues_marked
  obtain ⟨_, _, hleads, -⟩ := hwrong.resolve_right (not_misses_marked l)
  refine ⟨mem_issues_marked, l, hwrong.resolve_right (not_misses_marked l), ?_⟩
  rcases leads_marked hleads with ⟨rfl, -⟩ | ⟨rfl, -⟩ | ⟨rfl, -⟩
  · exact absurd hpath (by decide +kernel)
  · exact absurd hpath (by decide +kernel)
  · exact ⟨trivial, rfl, rfl⟩

end Sample

/-- **An issue below the root sign is told where nothing is**, neither a part of the payload nor a
missing member. -/
theorem mislocated_below_root_sign :
    Schema.compile Sample.marked = .ok Sample.markedSchema ∧
      ∃ i ∈ Sample.markedSchema.issues Sample.markedPayload, i.path = "x" ∧ ∀ l : Location,
        (∃ w, Sample.markedPayload.Leads l w) ∨
          Sample.markedSchema.Misses Sample.markedPayload l → l.text ≠ i.path := by
  refine ⟨Sample.compile_marked, _, Sample.mem_issues_marked, rfl, ?_⟩
  rintro l (⟨w, hleads⟩ | hmisses)
  · rcases Sample.leads_marked hleads with ⟨rfl, -⟩ | ⟨rfl, -⟩ | ⟨rfl, -⟩ <;> decide +kernel
  · exact absurd hmisses (Sample.not_misses_marked l)

end SchemaVault
