import SchemaVault.Schema.Compile

/-!
# How definitions compile

The equations by which a definition compiles part by part: an object by its own keywords and by the
parts that are definitions themselves (`compileAt_object`), a part that may be absent, and the
members of an object one by one.
-/

namespace SchemaVault

theorem Kind.name_of_ofName? {name : String} {k : Kind} (h : Kind.ofName? name = some k) :
    name = k.name := by
  unfold Kind.ofName? at h
  split at h <;> cases h <;> rfl

namespace Schema

variable {members : Json.Members} {pointer keyword : String}

/-- Compiles what is declared under `properties`. -/
def compileProperties (members : Json.Members) (pointer : String) :
    Finding (List (String × Schema)) :=
  match members.lookup "properties" with
  | none => .clean []
  | some (.object ps) => compileMembers ps (keywordPointer pointer "properties")
  | some _ => .flawed [] (keywordPointer pointer "properties") "must be an object"

theorem compileAt_object (members : Json.Members) (pointer : String) :
    compileAt (.object members) pointer =
      let own := OwnFindings.read members pointer
      let properties := compileProperties members pointer
      let additional := compilePart members "additionalProperties" pointer
      let items := compilePart members "items" pointer
      ⟨ruled own.rules properties.value additional.value items.value,
        own.valueIssues ++ properties.issues ++ own.required.issues ++ additional.issues ++
          items.issues ++ own.itemIssues⟩ := by
  rw [compileAt]
  unfold compileProperties
  dsimp only
  split <;> simp only [*]

theorem compilePart_of_none (h : members.lookup keyword = none) :
    compilePart members keyword pointer = .clean none := by
  rw [compilePart]
  split
  · rfl
  · rename_i hd
    cases hd.symm.trans h

theorem compilePart_of_some {d : Json} (h : members.lookup keyword = some d) :
    compilePart members keyword pointer =
      ⟨some (compileAt d (keywordPointer pointer keyword)).value,
        (compileAt d (keywordPointer pointer keyword)).issues⟩ := by
  rw [compilePart]
  split
  · rename_i hnone
    cases hnone.symm.trans h
  · rename_i d' hd
    obtain rfl := Option.some.inj (hd.symm.trans h)
    rfl

/-- A definition without definitions in it compiles to its own rules. -/
theorem compileAt_of_no_parts (hproperties : members.lookup "properties" = none)
    (hadditional : members.lookup "additionalProperties" = none)
    (hitems : members.lookup "items" = none) :
    compileAt (.object members) pointer =
      let own := OwnFindings.read members pointer
      ⟨ruled own.rules [] none none, own.valueIssues ++ own.required.issues ++ own.itemIssues⟩ := by
  have hdeclared : compileProperties members pointer = .clean [] := by
    unfold compileProperties
    rw [hproperties]
  rw [compileAt_object, compilePart_of_none hadditional, compilePart_of_none hitems, hdeclared]
  simp only [Finding.clean, List.append_nil]

/-- Compiling the definitions of members keeps their names. -/
theorem map_fst_compileMembers (ps : Json.Members) (pointer : String) :
    (compileMembers ps pointer).value.map (·.1) = ps.map (·.1) := by
  induction ps with
  | nil => rw [compileMembers]; rfl
  | cons p ps ih =>
    obtain ⟨name, d⟩ := p
    rw [compileMembers]
    exact congrArg (name :: ·) ih

/-- A definition compiles exactly if nothing is found wrong with it. -/
theorem compile_eq_ok_iff {definition : Json} {schema : Schema} :
    compile definition = .ok schema ↔
      (compileAt definition "#").issues = [] ∧ (compileAt definition "#").value = schema := by
  unfold compile
  simp only [List.isEmpty_iff]
  split <;> simp [*]

/-- What does not compile has an issue. -/
theorem issues_ne_nil {definition : Json} {e : CompileError} (h : compile definition = .error e) :
    e.issues ≠ [] := by
  unfold compile at h
  dsimp only at h
  split at h
  · cases h
  · rename_i hissues
    rw [← Except.error.inj h]
    simpa using hissues

end Schema

end SchemaVault
