import SchemaVault.Proofs.Entities.Listing
import SchemaVault.Proofs.Failure
import SchemaVault.Proofs.Text

/-!
# What a listing is ordered by

A sort column names a key after the blanks around it have been taken off (`SortKey.IsNamedBy`): a
system column by one of its spellings, a declared property by its name, and the creation time if
nothing is left. A request that names a key is answered with the page of that key, and any other
request is refused (`sort_column_resolves`).

A declared property whose own name has blanks around it, or is empty, is out of reach. Its name
stands for the property or the column without the blanks, or for the creation time, or for nothing
(`blank_property_not_sorted`).
-/

namespace SchemaVault

/-! ## Named keys -/

namespace SortKey

/-- The spellings of a system column. -/
def spellings : SortKey → List String
  | createdAt => ["createdAt", "created_at"]
  | updatedAt => ["updatedAt", "updated_at"]
  | entityId => ["entityId", "entity_id"]
  | property _ => []

/-- **What key a sort column names** where some properties are declared. The blanks around the
column do not count. -/
inductive IsNamedBy (declared : List String) : (column : Option String) → SortKey → Prop
  | absent : IsNamedBy declared none createdAt
  | blank {column : String} (h : Text.trim column = "") :
      IsNamedBy declared (some column) createdAt
  | system {column : String} {key : SortKey} (h : Text.trim column ∈ key.spellings) :
      IsNamedBy declared (some column) key
  | property {column name : String} (hname : Text.trim column = name) (hne : name ≠ "")
      (hother : ∀ key : SortKey, name ∉ key.spellings) (hsortable : isSortableName name)
      (hdeclared : name ∈ declared) : IsNamedBy declared (some column) (property name)

variable {declared : List String} {column : String} {key : SortKey}

theorem ofColumn?_of_spelling (h : column ∈ key.spellings) :
    ofColumn? column declared = some key := by
  cases key with
  | property name => cases h
  | _ =>
    simp only [spellings, List.mem_cons, List.not_mem_nil, or_false] at h
    rcases h with rfl | rfl <;> rfl

/-- A column with no spelling of a system column can only be a property. -/
theorem ofColumn?_of_forall_notMem (h : ∀ key : SortKey, column ∉ key.spellings) :
    ofColumn? column declared =
      if isSortableName column && declared.contains column then some (property column)
      else none := by
  unfold ofColumn?
  split
  · exact absurd (by simp [spellings]) (h createdAt)
  · exact absurd (by simp [spellings]) (h createdAt)
  · exact absurd (by simp [spellings]) (h updatedAt)
  · exact absurd (by simp [spellings]) (h updatedAt)
  · exact absurd (by simp [spellings]) (h entityId)
  · exact absurd (by simp [spellings]) (h entityId)
  · rfl

/-- **A declared property is named by its own name** exactly if the name is not empty and has no
blank at either end. -/
theorem isNamedBy_own_name_iff {name : String} (hdeclared : name ∈ declared)
    (hsortable : isSortableName name) (hother : ∀ key : SortKey, name ∉ key.spellings) :
    IsNamedBy declared (some name) (property name) ↔ name ≠ "" ∧
      (∀ c ∈ name.toList.head?, ¬Text.isBlank c) ∧ ∀ c ∈ name.toList.getLast?, ¬Text.isBlank c := by
  rw [← Text.trim_eq_self_iff]
  constructor
  · intro h
    cases h with
    | system h => cases h
    | property hname hne => exact ⟨hne, hname⟩
  · rintro ⟨hne, hname⟩
    exact .property hname hne hother hsortable hdeclared

end SortKey

/-! ## Requests -/

namespace ListOptions

variable {o : ListOptions} {limits : PageLimits} {declared : List String} {column : String}
variable {key : SortKey}

theorem given_of_blank (h : Text.trim column = "") : given (some column) = none := by
  rw [given, Option.map_some, h]
  rfl

theorem given_of_ne (h : Text.trim column ≠ "") :
    given (some column) = some (Text.trim column) := by
  rw [given, Option.map_some, Option.filter_some]
  simp [h]

/-- A key that is named is the key of the request. -/
theorem sortKey_of_isNamedBy (h : SortKey.IsNamedBy declared o.sortColumn key) :
    o.sortKey declared = (key, []) := by
  unfold sortKey
  generalize o.sortColumn = column at h
  cases h with
  | absent => rfl
  | blank hblank => rw [given_of_blank hblank]
  | @system column _ hsystem =>
    have hne : Text.trim column ≠ "" := by
      intro hempty
      rw [hempty] at hsystem
      cases key <;> simp [SortKey.spellings] at hsystem
    rw [given_of_ne hne]
    dsimp only
    rw [SortKey.ofColumn?_of_spelling hsystem]
  | property hname hne hother hsortable hdeclared =>
    subst hname
    rw [given_of_ne hne]
    dsimp only
    rw [SortKey.ofColumn?_of_forall_notMem hother, hsortable, List.contains_iff_mem.2 hdeclared]
    rfl

/-- A request names one key at most. -/
theorem eq_of_isNamedBy {column : Option String} {key' : SortKey}
    (h : SortKey.IsNamedBy declared column key) (h' : SortKey.IsNamedBy declared column key') :
    key = key' := by
  let o : ListOptions := ⟨none, none, column, none, false⟩
  have hkey : o.sortKey declared = (key, []) := sortKey_of_isNamedBy h
  have hkey' : o.sortKey declared = (key', []) := sortKey_of_isNamedBy h'
  exact congrArg Prod.fst (hkey.symm.trans hkey')

/-- What is told of a column that names no key. -/
def unknownColumn (column : String) : String :=
  "cannot sort by " ++ Text.quoted column ++ ": not a system column or declared property"

/-- A request that names no key is at fault for its column. -/
theorem sortKey_of_not_isNamedBy (h : ∀ key, ¬SortKey.IsNamedBy declared o.sortColumn key) :
    ∃ column, o.sortColumn = some column ∧
      o.sortKey declared = (.createdAt, [("sortColumn", unknownColumn (Text.trim column))]) := by
  unfold sortKey
  generalize o.sortColumn = asked at h
  cases asked with
  | none => exact absurd .absent (h .createdAt)
  | some column =>
    have hne : Text.trim column ≠ "" := fun hblank => h _ (.blank hblank)
    have hother : ∀ key : SortKey, Text.trim column ∉ key.spellings :=
      fun key hsystem => h key (.system hsystem)
    have hproperty : ¬(SortKey.isSortableName (Text.trim column) &&
        declared.contains (Text.trim column)) := by
      rw [Bool.and_eq_true, List.contains_iff_mem]
      rintro ⟨hsortable, hdeclared⟩
      exact h _ (.property rfl hne hother hsortable hdeclared)
    refine ⟨column, rfl, ?_⟩
    rw [given_of_ne hne]
    dsimp only
    rw [SortKey.ofColumn?_of_forall_notMem hother, if_neg hproperty]
    rfl

/-- The order of a request is settled, or the request is at fault for it. -/
theorem direction_cases (o : ListOptions) : o.direction = (o.direction.1, []) ∨
    ∃ message, o.direction = (o.direction.1, [("sortOrder", message)]) := by
  unfold direction
  split
  · exact .inl rfl
  · split
    · exact .inl rfl
    · exact .inr ⟨_, rfl⟩

/-- A request is refused for all that is wrong with it. -/
theorem resolve_eq_error_of_ne_nil {pairs : List (String × String)}
    (hpairs : (o.sortKey declared).2 ++ o.direction.2 = pairs) (hne : pairs ≠ []) :
    o.resolve limits declared = .error (.validation (.ofPairs pairs)) := by
  have hcheck : (FieldErrors.ofPairs pairs).check = .error (.validation (.ofPairs pairs)) := by
    rw [FieldErrors.check, FieldErrors.ofPairs_isEmpty, if_neg (by simpa using hne)]
  unfold resolve
  dsimp only
  rw [hpairs, hcheck]
  rfl

/-- **A request that names no key is refused for its column**, and for its order with it. -/
theorem resolve_of_not_isNamedBy (h : ∀ key, ¬SortKey.IsNamedBy declared o.sortColumn key) :
    ∃ errors, o.resolve limits declared = .error (.validation errors) ∧
      errors.fields =
        if o.direction.2 = [] then ["sortColumn"] else ["sortColumn", "sortOrder"] := by
  obtain ⟨column, -, hkey⟩ := sortKey_of_not_isNamedBy h
  rcases o.direction_cases with horder | ⟨message, horder⟩
  · refine ⟨_, resolve_eq_error_of_ne_nil rfl ?_, ?_⟩ <;> rw [hkey, horder]
    · simp
    · rfl
  · have hlater : ¬"sortOrder" < "sortColumn" := by decide
    refine ⟨_, resolve_eq_error_of_ne_nil rfl ?_, ?_⟩ <;> rw [hkey, horder]
    · simp
    · simp [FieldErrors.ofPairs, FieldErrors.push, FieldErrors.insert, FieldErrors.fields,
        FieldErrors.empty, hlater]

/-- A request that names a key is refused for its order alone. -/
theorem resolve_of_bad_order (h : SortKey.IsNamedBy declared o.sortColumn key)
    (hbad : o.direction.2 ≠ []) :
    ∃ errors, o.resolve limits declared = .error (.validation errors) ∧
      errors.fields = ["sortOrder"] := by
  have hkey := sortKey_of_isNamedBy h
  rcases o.direction_cases with horder | ⟨message, horder⟩
  · exact absurd (congrArg Prod.snd horder) hbad
  · refine ⟨_, resolve_eq_error_of_ne_nil rfl ?_, ?_⟩ <;> rw [hkey, horder]
    · simp
    · rfl

end ListOptions

/-! ## What it says -/

/-- **What a listing is ordered by.** A sort column names one key at most. If it names one, what is
answered is the page of that key, unless the request is refused for its order; there is such a page
if the payloads to be listed can be read and the page has an offset. If it names none, the request
is refused for its column, and for its order with it. A declared property that can be sorted by and
is not taken for a system column is named by its own name exactly if the name is not empty and has
no blank at either end. -/
theorem sort_column_resolves (run : List Step) {table : String} {schema : Schema}
    {c : Circumstances} (hschema : (Site.fresh.after run).space.IsGovernedBy table schema)
    (hc : c.Undisturbed) (limits : PageLimits) (o : ListOptions) (handle : Nat) :
    let site := Site.fresh.after run
    let s := site.space
    let declared := schema.propertyNames
    let answer := (s.listEntities c limits table o (site.kept handle)).1
    (∀ key key', SortKey.IsNamedBy declared o.sortColumn key →
      SortKey.IsNamedBy declared o.sortColumn key' → key = key') ∧
    (∀ key, SortKey.IsNamedBy declared o.sortColumn key →
      (∀ order, o.direction = (order, []) →
        let l : Listing := ⟨PageLimits.clampPage o.page, limits.clampSize o.pageSize, key, order,
          o.includeDeleted⟩
        answer = (s.pageOf table l).mapError (·.toFailure "list entities") ∧
          ((∀ row ∈ s.matchingEntities table o.includeDeleted, (Json.read? row.payload).isSome) →
            l.before < 2 ^ 63 → ∃ page, answer = .ok page ∧ s.pageOf table l = .ok page)) ∧
      (o.direction.2 ≠ [] → ∃ errors, answer = .error (.validation errors) ∧
        errors.fields = ["sortOrder"])) ∧
    ((∀ key, ¬SortKey.IsNamedBy declared o.sortColumn key) → ∃ errors,
      answer = .error (.validation errors) ∧ errors.fields =
        if o.direction.2 = [] then ["sortColumn"] else ["sortColumn", "sortOrder"]) ∧
    ∀ name ∈ declared, SortKey.isSortableName name → (∀ key : SortKey, name ∉ key.spellings) →
      (SortKey.IsNamedBy declared (some name) (.property name) ↔ name ≠ "" ∧
        (∀ c ∈ name.toList.head?, ¬Text.isBlank c) ∧
        ∀ c ∈ name.toList.getLast?, ¬Text.isBlank c) := by
  intro site s declared answer
  obtain ⟨r, v, hgoverning, hobtain, hv⟩ :=
    hschema.obtain (Site.consistent_after run) (Site.isBacked_after run handle)
  have hrefused {f : Failure} (h : o.resolve limits declared = .error f) : answer = .error f :=
    Space.listEntities_eq_error hc hgoverning hobtain (hv ▸ h)
  refine ⟨fun key key' => ListOptions.eq_of_isNamedBy, fun key hnamed => ⟨?_, ?_⟩, ?_,
    fun name => SortKey.isNamedBy_own_name_iff⟩
  · intro order horder l
    have hresolve := ListOptions.resolve_eq_ok (ListOptions.sortKey_of_isNamedBy hnamed) horder
      limits
    have hanswer : answer = (s.pageOf table l).mapError (·.toFailure "list entities") :=
      Space.listEntities_eq_pageOf hc hgoverning hobtain (hv ▸ hresolve)
    refine ⟨hanswer, fun hreads hbefore => ?_⟩
    obtain ⟨offset, hoffset, -⟩ := Listing.exists_offset (PageLimits.clampPage_pos o.page) hbefore
    obtain ⟨page, hpage⟩ := Space.exists_pageOf hreads hoffset
    exact ⟨page, by rw [hanswer, hpage]; rfl, hpage⟩
  · intro hbad
    obtain ⟨errors, hresolve, hfields⟩ := ListOptions.resolve_of_bad_order hnamed hbad
    exact ⟨errors, hrefused hresolve, hfields⟩
  · intro hnone
    obtain ⟨errors, hresolve, hfields⟩ := ListOptions.resolve_of_not_isNamedBy hnone
    exact ⟨errors, hrefused hresolve, hfields⟩

namespace Sample

/-- A request for an order by a column. -/
def sortedBy (column order : String) : ListOptions := ⟨none, none, some column, some order, false⟩

/-- Three tasks come in the order of their declared rank, with blanks around the column, and an
unknown column is refused together with an unknown order. -/
theorem sort_column_resolves_sample :
    let site := Site.fresh.after twoTables
    let answer (o : ListOptions) :=
      (site.space.listEntities (.calm 10 first) .standard "tasks" o (site.kept 0)).1
    site.space.IsGovernedBy "tasks" rankingSchema ∧
    (∃ page, answer (sortedBy " rank " "ASC") = .ok page ∧
      page.records.map (·.id.id.value) = [5, 6, 3]) ∧
    ∃ errors, answer (sortedBy "title" "sideways") = .error (.validation errors) ∧
      errors.fields = ["sortColumn", "sortOrder"] := by
  intro site answer
  have hresolves (o : ListOptions) := sort_column_resolves twoTables governed_tasks
    (Circumstances.calm_undisturbed 10 first) .standard o 0
  refine ⟨governed_tasks, ?_, ?_⟩
  · have hnamed : SortKey.IsNamedBy rankingSchema.propertyNames (some " rank ")
        (.property "rank") := by
      have htrim : Text.trim " rank " = "rank" := by decide +kernel
      have hother : ∀ key : SortKey, "rank" ∉ key.spellings := by
        intro key
        cases key <;> simp [SortKey.spellings]
      exact .property htrim (by decide) hother (by decide +kernel) (by decide +kernel)
    let l : Listing := ⟨1, 20, .property "rank", .ascending, false⟩
    let o := sortedBy " rank " "ASC"
    have hl : (⟨PageLimits.clampPage o.page, PageLimits.standard.clampSize o.pageSize,
        .property "rank", .ascending, o.includeDeleted⟩ : Listing) = l := by decide +kernel
    obtain ⟨hanswer, -⟩ := ((hresolves o).2.1 _ hnamed).1 .ascending (by decide +kernel)
    obtain ⟨rows, hperm, hordered, hsorted⟩ := SortKey.sorted_eq exists_rank
      (Space.nodup_matchingEntities (Site.length_rowsOf_le twoTables "tasks") false)
    obtain rfl := eq_of_ranked hordered hperm
    have hpage : site.space.pageOf "tasks" l =
        ((slice 20 1 rankedTasks).mapM EntityRow.read).map fun records => ⟨records, 3, 1, 20⟩ := by
      have hascending := hsorted .ascending _ (.refl _)
      rw [matching_tasks] at hascending
      exact Space.pageOf_eq (l := l) matching_tasks hascending (by decide) (by decide +kernel)
    rw [show slice 20 1 rankedTasks = rankedTasks from rfl, EntityRow.mapM_read reads_ranked]
      at hpage
    rw [hl, hpage] at hanswer
    exact ⟨_, hanswer, rfl⟩
  · have hnone : ∀ key, ¬SortKey.IsNamedBy rankingSchema.propertyNames (some "title") key := by
      have htrim : Text.trim "title" = "title" := by decide +kernel
      rintro key (_ | hblank | hsystem | ⟨rfl, -, -, -, hdeclared⟩)
      · rw [htrim] at hblank
        exact absurd hblank (by decide)
      · rw [htrim] at hsystem
        cases key <;> simp [SortKey.spellings] at hsystem
      · rw [htrim] at hdeclared
        exact absurd hdeclared (by decide +kernel)
    exact (hresolves (sortedBy "title" "sideways")).2.2.1 hnone

/-- **A declared property with a blank in its name is out of reach.** Where the property without the
blank is declared too, the listing is ordered by that, and otherwise it is refused. A property with
an empty name stands back behind the creation time. -/
theorem blank_property_not_sorted :
    (sortedBy " a" "asc").resolve .standard [" a", "a"] =
        .ok ⟨1, 20, .property "a", .ascending, false⟩ ∧
      (sortedBy " a" "asc").resolve .standard [" a"] =
        .error (.invalid "sortColumn" (ListOptions.unknownColumn "a")) ∧
      (sortedBy "" "asc").resolve .standard [""] =
        .ok ⟨1, 20, .createdAt, .ascending, false⟩ := by
  decide +kernel

end Sample

end SchemaVault
