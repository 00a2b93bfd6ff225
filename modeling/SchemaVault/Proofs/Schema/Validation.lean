import SchemaVault.Proofs.Schema.Reports
import SchemaVault.Schema.Validator

/-!
# Checking finds the violations

A definition is compiled and a payload checked against what it compiles to. For a definition that
compiles, the issues that are found are exactly as many as there are violations of the definition
as it stands (`validation_exact`), so a payload is accepted exactly if it satisfies the definition.

A payload is told once of each keyword that it misses (`Schema.issuesAt_ruled`). What is left is to
count what its parts are told, and `length_issuesAt` does so by induction on the definition.
-/

namespace SchemaVault

open Definition

namespace Schema

variable {pointer : String} {members : Json.Members}

/-! ## Required names -/

/-- The names that are read as required are those that the definition requires. -/
theorem required_eq (h : (OwnFindings.read members pointer).required.issues = []) :
    (OwnFindings.read members pointer).rules.required = requiredNames members := by
  simp only [OwnFindings.rules, OwnFindings.read, optional, requiredNames] at h ⊢
  cases hasked : members.lookup "required" with
  | none => rfl
  | some asked =>
    rw [hasked] at h
    obtain ⟨names, rfl, hvalue⟩ := readRequired_clean h
    dsimp only
    rw [hvalue, Option.getD_some]

/-- The issues of the names that an object lacks. -/
theorem length_requiredIssues (h : (OwnFindings.read members pointer).required.issues = [])
    (ms : Json.Members) (path : String) :
    (requiredIssues (OwnFindings.read members pointer).rules ms path).length =
      (missing members (.object ms)).length := by
  rw [requiredIssues, required_eq h, missing]
  induction requiredNames members with
  | nil => rfl
  | cons name names ih =>
    rw [List.flatMap_cons, List.length_append, ih, List.filter_cons]
    cases (ms.lookup name).isNone with
    | false => simp [issueIf]
    | true => simp [issueIf, Nat.add_comm]

/-! ## Issues of whole documents -/

/-- What is compiled for members, when nothing is wrong with it, are the definitions declared. -/
theorem compileProperties_clean (h : (compileProperties members pointer).issues = []) :
    compileProperties members pointer =
      compileMembers (declared members) (keywordPointer pointer "properties") := by
  unfold compileProperties declared at *
  cases hasked : members.lookup "properties" with
  | none => exact (compileMembers.eq_1 _).symm
  | some asked =>
    rw [hasked] at h
    cases asked with
    | object ps => rfl
    | _ => cases h

/-- The members for which nothing is declared are the same for a definition and for what it compiles
to. -/
theorem undeclared_compileProperties (h : (compileProperties members pointer).issues = [])
    (ms : Json.Members) :
    undeclared (compileProperties members pointer).value ms =
      Definition.undeclared members (.object ms) := by
  have hany (name : String) : (compileProperties members pointer).value.any (·.1 == name) =
      (declared members).any (·.1 == name) := by
    have hnames := map_fst_compileMembers (declared members) (keywordPointer pointer "properties")
    rw [← compileProperties_clean h] at hnames
    simpa only [List.any_map, Function.comp_def] using congrArg (List.any · (· == name)) hnames
  simp only [undeclared, Definition.undeclared, membersOf, hany]

/-- The issues of the members that are not declared, when a definition is there for them. A
definition that allows nothing has one for each, as it has for any payload. -/
theorem length_additionalIssues (s : Schema) (ms : Json.Members) (path : String) :
    (additionalIssues (some s) ms path).length =
      (ms.map fun m => (issuesAt s m.2 (memberPath path m.1)).length).sum := by
  by_cases hnothing : s = always false
  · subst hnothing
    rw [additionalIssues, List.length_map]
    induction ms with
    | nil => rfl
    | cons m ms ih =>
      rw [List.length_cons, ih, List.map_cons, List.sum_cons, issuesAt]
      exact Nat.add_comm ..
  · rw [additionalIssues, List.length_flatMap]
    rintro rfl
    exact hnothing rfl

/-- The issues of an object of rules, whose parts have as many as the definition has violations. -/
theorem length_issuesAt_ruled {properties : List (String × Schema)}
    {additional items : Option Schema}
    (hvalues : (OwnFindings.read members pointer).valueIssues = [])
    (hrequired : (OwnFindings.read members pointer).required.issues = [])
    (hcounts : (OwnFindings.read members pointer).itemIssues = [])
    (hundeclared : ∀ ms, undeclared properties ms = Definition.undeclared members (.object ms))
    (hproperties : ∀ ms path, (propertyIssues properties ms path).length =
      violationsOfDeclared (declared members) ms)
    (hadditional : ∀ ms path, (additionalIssues additional ms path).length =
      violationsUnder members "additionalProperties" (ms.map (·.2)))
    (hitems : ∀ vs path, (itemIssues items vs path).length = violationsUnder members "items" vs)
    (v : Json) (path : String) :
    (issuesAt (ruled (OwnFindings.read members pointer).rules properties additional items) v
      path).length = violations (.object members) v := by
  rw [issuesAt_ruled hvalues hcounts, violations]
  split
  · rw [List.length_append, length_filterMap_report]
    cases v with
    | null | bool | string | number => simp [innerIssues, Definition.undeclared]
    | array vs => simp [innerIssues, hitems, Definition.undeclared]
    | object ms =>
      simp only [innerIssues, List.length_append, length_requiredIssues hrequired, hproperties,
        hadditional, hundeclared]
      simp [Nat.add_assoc]
  · rename_i hwrong
    rw [length_kindIssues hvalues, Bool.eq_false_iff.2 hwrong]
    rfl

/-- **A definition that compiles finds its violations.** By induction on the definition: the issues
of a compiled definition are as many as the violations of the definition, and so for its parts. -/
theorem length_issuesAt (definition : Json) (pointer : String) :
    (compileAt definition pointer).issues = [] → ∀ v path,
      (issuesAt (compileAt definition pointer).value v path).length = violations definition v := by
  apply compileAt.induct
    (fun definition pointer => (compileAt definition pointer).issues = [] → ∀ v path,
      (issuesAt (compileAt definition pointer).value v path).length = violations definition v)
    (fun members keyword pointer => (compilePart members keyword pointer).issues = [] →
      (∀ ms path, (additionalIssues (compilePart members keyword pointer).value ms path).length =
        violationsUnder members keyword (ms.map (·.2))) ∧
      ∀ vs path, (itemIssues (compilePart members keyword pointer).value vs path).length =
        violationsUnder members keyword vs)
    (fun ps pointer => (compileMembers ps pointer).issues = [] → ∀ ms path,
      (propertyIssues (compileMembers ps pointer).value ms path).length =
        violationsOfDeclared ps ms)
  case case1 =>
    intro pointer allowed _ v path
    rw [compileAt, Finding.clean]
    cases allowed <;> simp [issuesAt, violations]
  case case2 =>
    intro pointer members hproperties hadditional hitems h
    rw [compileAt_object] at h ⊢
    simp only [List.append_eq_nil_iff, and_assoc] at h
    obtain ⟨hvalues, hdeclared, hrequired, hrest, hvs, hcounts⟩ := h
    refine length_issuesAt_ruled hvalues hrequired hcounts (undeclared_compileProperties hdeclared)
      ?_ (hadditional hrest).1 (hitems hvs).2
    have hcompiled := compileProperties_clean hdeclared
    rw [hcompiled] at hdeclared ⊢
    unfold declared at hdeclared ⊢
    split at hdeclared
    · rename_i ps hps
      exact hproperties ps hps hdeclared
    · intro ms path
      rw [compileMembers, violationsOfDeclared]
      rfl
  case case3 =>
    intro pointer definition hbool hobject h
    rw [compileAt.eq_3 _ _ hbool hobject] at h
    cases h
  case case4 =>
    intro members keyword pointer hnone _
    simp [compilePart_of_none hnone, violationsUnder_of_none hnone, Finding.clean,
      additionalIssues, itemIssues]
  case case5 =>
    intro members keyword pointer d hd ih h
    rw [compilePart_of_some hd] at h ⊢
    refine ⟨fun ms path => ?_, fun vs path => ?_⟩
    · rw [length_additionalIssues, violationsUnder_of_some hd, List.map_map]
      simp only [ih h, Function.comp_def]
    · rw [itemIssues, List.length_flatMap, violationsUnder_of_some hd]
      have hitem : (fun p : Json × Nat =>
          (issuesAt (compileAt d (keywordPointer pointer keyword)).value p.1
            (itemPath path p.2)).length) = violations d ∘ Prod.fst := by
        funext p
        exact ih h p.1 _
      rw [hitem, ← List.map_map, List.zipIdx_map_fst]
  case case6 =>
    intro pointer _ ms path
    rw [compileMembers, violationsOfDeclared]
    rfl
  case case7 =>
    intro pointer name d ps ih ihs h ms path
    rw [compileMembers] at h ⊢
    obtain ⟨hfirst, hrest⟩ := List.append_eq_nil_iff.1 h
    rw [propertyIssues, violationsOfDeclared, List.length_append, ihs hrest]
    cases hw : ms.lookup name with
    | none => rfl
    | some w => simp only [Option.elim_some, ih hfirst]

/-- What a definition compiles to has no issue with the payloads that satisfy the definition. -/
theorem issues_eq_nil_iff {definition : Json} {s : Schema} (h : compile definition = .ok s)
    (v : Json) : s.issues v = [] ↔ Satisfied definition v := by
  obtain ⟨hclean, rfl⟩ := compile_eq_ok_iff.1 h
  rw [← violations_eq_zero_iff, ← List.length_eq_zero_iff, issues, length_issuesAt _ _ hclean]

end Schema

/-! ## Payloads -/

/-- **Checking finds exactly the violations.** For a definition that compiles, the issues found in a
payload are as many as the violations of the definition, and the payload is stamped exactly if it
satisfies the definition; otherwise all issues are told. -/
theorem validation_exact {id : SchemaId} {version : Version} {definition : Json}
    {validator : Validator} (h : Validator.ofDefinition id version definition = .ok validator)
    (v : Json) :
    (validator.schema.issues v).length = violations definition v ∧
      (validator.validate v = .ok ⟨id, version, v⟩ ↔ Satisfied definition v) ∧
      (validator.validate v = .error (validator.schema.issues v) ↔ ¬Satisfied definition v) := by
  unfold Validator.ofDefinition at h
  cases hcompile : Schema.compile definition with
  | error e =>
    rw [hcompile] at h
    cases h
  | ok schema =>
    rw [hcompile] at h
    cases h
    obtain ⟨hclean, rfl⟩ := Schema.compile_eq_ok_iff.1 hcompile
    rw [← violations_eq_zero_iff, ← Schema.length_issuesAt definition "#" hclean v Schema.rootPath]
    refine ⟨rfl, ?_⟩
    unfold Validator.validate Schema.issues
    cases (Schema.compileAt definition "#").value.issuesAt v Schema.rootPath with
    | nil => simp
    | cons issue issues => simp

/-! ## An example -/

namespace Sample

/-- The definition of a text. -/
def tag : Json := .object [("type", .string "string")]

/-- A definition that asks for texts, each once. -/
def tags : Json := .object [("items", tag), ("uniqueItems", .bool true)]

theorem issues_tags : (Schema.compileAt tags "#").issues = [] := by
  rw [tags, Schema.compileAt_object, Schema.compilePart_of_none rfl,
    Schema.compilePart_of_some (d := tag) rfl, tag, Schema.compileAt_object,
    Schema.compilePart_of_none rfl, Schema.compilePart_of_none rfl]
  rfl

theorem violations_tag (v : Json) : violations tag v = (!Kind.string.accepts v).toNat := by
  have hallowed : allowsKind [("type", .string "string")] v = Kind.string.accepts v := by
    cases v <;> rfl
  have hmisses (k : Keyword) : misses [("type", .string "string")] v k = false := by
    cases k <;> rfl
  have hmissing : missing [("type", .string "string")] v = [] := by
    cases v <;> rfl
  have hdeclared : declared [("type", .string "string")] = [] := rfl
  rw [tag, violations, hallowed, countP_misses_eq_zero_iff.2 hmisses, hmissing, hdeclared,
    violationsOfDeclared, violationsUnder_of_none rfl, violationsUnder_of_none rfl]
  cases Kind.string.accepts v <;> rfl

/-- In a payload that repeats an item which is no text, the items and their repetition count. -/
theorem violations_tags :
    violations tags (.array [.string "a", .bool true, .bool true]) = 3 := by
  rw [tags, violations, violationsUnder_of_none rfl, violationsUnder_of_some (d := tag) rfl]
  simp only [itemsOf, List.map, violations_tag, membersOf, violationsOfDeclared_nil]
  decide +kernel

/-- All three are told. -/
theorem validation_exact_tags :
    ∃ validator, Validator.ofDefinition default default tags = .ok validator ∧
      (validator.schema.issues (.array [.string "a", .bool true, .bool true])).length = 3 := by
  have hcompile : Validator.ofDefinition default default tags =
      .ok ⟨default, default, (Schema.compileAt tags "#").value⟩ := by
    rw [Validator.ofDefinition, Schema.compile_eq_ok_iff.2 ⟨issues_tags, rfl⟩]
    rfl
  exact ⟨_, hcompile, (validation_exact hcompile _).1.trans violations_tags⟩

end Sample

end SchemaVault
