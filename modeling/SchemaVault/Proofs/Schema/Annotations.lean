import SchemaVault.Proofs.Json.Members
import SchemaVault.Proofs.Schema.Places

/-!
# Annotations

A keyword that is not supported is an annotation. Leaving annotations out, here and there or all of
them, makes no difference to what a definition compiles to, nor to the issues if it does not compile
(`compile_trim`).

Only definitions have annotations. The members of `properties` are names that are declared, whatever
they are called, and the values under the other keywords are not looked into. So `trim` goes down
where definitions stand, and nowhere else.
-/

namespace SchemaVault

namespace Definition

/-- The keywords that are supported. A value under `const` is never malformed. -/
def supported : List String := "const" :: Schema.keywords

/-- Which members to leave out of which definitions, given by the path from the whole definition. -/
abbrev Choice := (path : List String) → (name : String) → Bool

theorem partKeywords_subset_supported : partKeywords ⊆ supported := by
  decide

namespace Choice

/-- What a choice comes to in the value at the end of a reference token. -/
def under (c : Choice) (token : String) : Choice := fun path => c (token :: path)

/-- Whether a member is an annotation that is to be left out of the definition itself. -/
def leavesOut (c : Choice) (name : String) : Bool := !supported.contains name && c [] name

end Choice

mutual

/-- A definition without the annotations chosen, in itself and in the definitions in it. -/
def trim (c : Choice) : (definition : Json) → Json
  | .object members => .object (trimMembers c members)
  | d => d

/-- The members of a definition without the annotations chosen. -/
def trimMembers (c : Choice) : (members : Json.Members) → Json.Members
  | [] => []
  | (name, v) :: members =>
    if c.leavesOut name then trimMembers c members
    else
      (name,
        if name ∈ partKeywords then trim (c.under name) v
        else if name = "properties" then
          match v with
          | .object ps => .object (trimDeclared (c.under name) ps)
          | v => v
        else v) :: trimMembers c members

/-- The definitions declared for names, each without the annotations chosen. -/
def trimDeclared (c : Choice) : (declared : Json.Members) → Json.Members
  | [] => []
  | (name, d) :: ps => (name, trim (c.under name) d) :: trimDeclared c ps

end

/-- What is left of the value under a keyword. -/
def trimUnder (c : Choice) (keyword : String) (v : Json) : Json :=
  if keyword ∈ partKeywords then trim (c.under keyword) v
  else if keyword = "properties" then
    match v with
    | .object ps => .object (trimDeclared (c.under keyword) ps)
    | v => v
  else v

variable {c : Choice} {members : Json.Members} {keyword name : String} {v : Json}

theorem trimMembers_cons :
    trimMembers c ((name, v) :: members) =
      if c.leavesOut name then trimMembers c members
      else (name, trimUnder c name v) :: trimMembers c members := by
  cases v <;> rfl

/-- What is found under a name after annotations have been left out. -/
theorem lookup_trimMembers :
    (trimMembers c members).lookup name =
      if c.leavesOut name then none else (members.lookup name).map (trimUnder c name) := by
  induction members with
  | nil => simp [trimMembers]
  | cons first members ih =>
    obtain ⟨n, v⟩ := first
    rw [trimMembers_cons, Json.lookup_cons]
    by_cases hname : name = n
    · subst hname
      rw [if_pos rfl]
      split
      · rename_i hleft
        rw [ih, if_pos hleft]
      · rw [Json.lookup_cons, if_pos rfl, Option.map_some]
    · rw [if_neg hname]
      split
      · exact ih
      · rw [Json.lookup_cons, if_neg hname, ih]

/-- Supported keywords stay, whatever is chosen. -/
theorem lookup_trimMembers_of_supported (h : keyword ∈ supported) :
    (trimMembers c members).lookup keyword =
      (members.lookup keyword).map (trimUnder c keyword) := by
  rw [lookup_trimMembers, if_neg]
  simp [Choice.leavesOut, h]

/-- The values under keywords that ask something of a payload itself, or require names of it, stay
as they are. -/
theorem lookup_trimMembers_own (h : keyword ∈ supported) (hpart : keyword ∉ partKeywords)
    (hproperties : keyword ≠ "properties") :
    (trimMembers c members).lookup keyword = members.lookup keyword := by
  have hsame : trimUnder c keyword = id :=
    funext fun _ => (if_neg hpart).trans (if_neg hproperties)
  rw [lookup_trimMembers_of_supported h, hsame, Option.map_id_fun, id]

end Definition

open Definition

namespace Schema

variable {c : Choice} {members : Json.Members} {pointer : String}

theorem read_trimMembers :
    OwnFindings.read (trimMembers c members) pointer = OwnFindings.read members pointer := by
  have hown (keyword : String) (h : keyword ∈ supported ∧ keyword ∉ partKeywords ∧
      keyword ≠ "properties") :
      (trimMembers c members).lookup keyword = members.lookup keyword :=
    lookup_trimMembers_own h.1 h.2.1 h.2.2
  unfold OwnFindings.read optional
  simp only [hown "type" (by decide), hown "enum" (by decide), hown "const" (by decide),
    hown "minLength" (by decide), hown "maxLength" (by decide), hown "pattern" (by decide),
    hown "format" (by decide), hown "minimum" (by decide), hown "maximum" (by decide),
    hown "exclusiveMinimum" (by decide), hown "exclusiveMaximum" (by decide),
    hown "multipleOf" (by decide), hown "required" (by decide), hown "minItems" (by decide),
    hown "maxItems" (by decide), hown "uniqueItems" (by decide)]

/-- **Annotations make no difference to what is compiled.** By induction on the definition, for all
choices at once, since a choice comes to another one in each part. -/
theorem compileAt_trim (c : Choice) (definition : Json) (pointer : String) :
    compileAt (trim c definition) pointer = compileAt definition pointer := by
  revert c
  apply compileAt.induct
    (fun definition pointer => ∀ c, compileAt (trim c definition) pointer =
      compileAt definition pointer)
    (fun members keyword pointer => keyword ∈ partKeywords → ∀ c,
      compilePart (trimMembers c members) keyword pointer = compilePart members keyword pointer)
    (fun ps pointer => ∀ c, compileMembers (trimDeclared c ps) pointer = compileMembers ps pointer)
  case case1 =>
    intro pointer allowed c
    rfl
  case case2 =>
    intro pointer members hproperties hadditional hitems c
    have hdeclared : compileProperties (trimMembers c members) pointer =
        compileProperties members pointer := by
      unfold compileProperties
      rw [lookup_trimMembers_of_supported (by decide)]
      cases hasked : members.lookup "properties" with
      | none => rfl
      | some asked =>
        cases asked with
        | object ps => exact hproperties ps hasked _
        | _ => rfl
    rw [trim, compileAt_object, compileAt_object, read_trimMembers, hdeclared,
      hadditional (by decide), hitems (by decide)]
  case case3 =>
    intro pointer definition hbool hobject c
    rw [trim]
    exact hobject
  case case4 =>
    intro members keyword pointer hnone hpart c
    rw [compilePart_of_none hnone, compilePart_of_none]
    rw [lookup_trimMembers_of_supported (partKeywords_subset_supported hpart), hnone]
    rfl
  case case5 =>
    intro members keyword pointer d hd ih hpart c
    have htrimmed : (trimMembers c members).lookup keyword = some (trim (c.under keyword) d) := by
      rw [lookup_trimMembers_of_supported (partKeywords_subset_supported hpart), hd]
      exact congrArg some (if_pos hpart)
    rw [compilePart_of_some htrimmed, compilePart_of_some hd, ih]
  case case6 =>
    intro pointer c
    rw [trimDeclared]
  case case7 =>
    intro pointer name d ps ih ihs c
    rw [trimDeclared, compileMembers, compileMembers, ih, ihs]

end Schema

/-- **Annotations have no effect.** Without the annotations chosen, a definition has the same issues
in the same order, and compiles to the same schema if it has none: the same members are declared,
and the same issues found in every payload. -/
theorem compile_trim (c : Choice) (d : Json) : Schema.compile (trim c d) = Schema.compile d := by
  rw [Schema.compile, Schema.compile, Schema.compileAt_trim]

/-- A member called like an annotation stays declared, and the values under `enum` stay as they
are. -/
example :
    trim (fun _ name => name == "title") (.object [
      ("enum", .array [.object [("title", .null)]]),
      ("properties", .object [("title", .object [("title", .null), ("type", .string "string")])]),
      ("title", .null)]) =
    .object [
      ("enum", .array [.object [("title", .null)]]),
      ("properties", .object [("title", .object [("type", .string "string")])])] := by
  decide +kernel

end SchemaVault
