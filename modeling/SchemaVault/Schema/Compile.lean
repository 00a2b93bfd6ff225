import SchemaVault.Json.Pointer
import SchemaVault.Json.Printer
import SchemaVault.Schema.Basic
import SchemaVault.Text.Quoted

/-!
# Compiling schemas

A definition is a JSON document, and compiling it finds everything that is wrong with it at once.
Each issue says where it is, by a JSON pointer after a number sign, and what is wrong there. The
keywords of a definition are read in a fixed order, and so are the issues reported. Keywords that
are not known are annotations and have no effect.
-/

namespace SchemaVault

/-- Something wrong with a definition, and where. -/
structure CompileIssue where
  pointer : String
  message : String
  deriving DecidableEq

/-- An issue in one line. -/
def CompileIssue.text (i : CompileIssue) : String := i.pointer ++ ": " ++ i.message

/-- A definition with issues. -/
structure CompileError where
  issues : List CompileIssue
  deriving DecidableEq

/-- The wording of the error; it only counts the issues. -/
def CompileError.message (e : CompileError) : String :=
  "invalid schema definition (" ++ toString e.issues.length ++ " problem(s))"

namespace Schema

/-- A part of a schema and the issues found while reading it, in the order found. -/
structure Finding (α : Type) where
  value : α
  issues : List CompileIssue

namespace Finding

/-- A part without issues. -/
def clean {α : Type} (value : α) : Finding α := ⟨value, []⟩

/-- A part with a single issue. -/
def flawed {α : Type} (value : α) (pointer message : String) : Finding α :=
  ⟨value, [⟨pointer, message⟩]⟩

end Finding

/-! ## Keywords of the document itself -/

/-- The place of a keyword. -/
def keywordPointer (pointer keyword : String) : String := pointer ++ "/" ++ keyword

/-- Reads a keyword that may be absent. -/
def optional {α : Type} (members : Json.Members) (pointer keyword : String)
    (read : String → Json → Finding (Option α)) : Finding (Option α) :=
  match members.lookup keyword with
  | none => .clean none
  | some v => read (keywordPointer pointer keyword) v

/-- The names of kinds. Each unknown one is an issue, and the others count. -/
def readKindNames (pointer : String) : List Json → Finding (List Kind)
  | [] => .clean []
  | v :: vs =>
    let rest := readKindNames pointer vs
    match v.text?.bind Kind.ofName? with
    | some k => ⟨k :: rest.value, rest.issues⟩
    | none => ⟨rest.value, ⟨pointer, "unknown type " ++ v.print⟩ :: rest.issues⟩

/-- The kinds: a name, or a list of one name at least. -/
def readKinds (pointer : String) (v : Json) : Finding (Option (List Kind)) :=
  let names? := match v with
    | .string _ => some [v]
    | .array (x :: xs) => some (x :: xs)
    | _ => none
  match names? with
  | some names =>
    let found := readKindNames pointer names
    ⟨some found.value, found.issues⟩
  | none =>
    .flawed none pointer "must be a type name or a non-empty array of type names"

/-- The allowed values. -/
def readAllowed (pointer : String) (v : Json) : Finding (Option (List Json)) :=
  match v.items? with
  | some values => .clean (some values)
  | none => .flawed none pointer "must be an array"

/-- A bound on a number of characters or items. -/
def readCount (pointer : String) (v : Json) : Finding (Option UInt64) :=
  match v.uint64? with
  | some n => .clean (some n)
  | none => .flawed none pointer "must be a non-negative integer"

/-- A pattern. -/
def readPattern (pointer : String) (v : Json) : Finding (Option Pattern) :=
  match v.text? with
  | none => .flawed none pointer "must be a string"
  | some source =>
    match Pattern.ofSource source with
    | .ok p => .clean (some p)
    | .error fault => .flawed none pointer ("invalid regular expression: " ++ fault.message)

/-- A format. -/
def readFormat (pointer : String) (v : Json) : Finding (Option (String × Format)) :=
  match v.text? with
  | some name => .clean (some (name, Format.ofName name))
  | none => .flawed none pointer "must be a string"

/-- A bound on a number. -/
def readNumber (pointer : String) (v : Json) : Finding (Option Number) :=
  match v.number? with
  | some n => .clean (some n)
  | none => .flawed none pointer "must be a number"

/-- The step of a number. -/
def readStep (pointer : String) (v : Json) : Finding (Option Number) :=
  match v.number? with
  | some n =>
    if n.isPositive then .clean (some n)
    else .flawed (some n) pointer "must be greater than 0"
  | none => .flawed none pointer "must be a number"

/-- The required names from place `i` on, after those in `seen`. -/
def readNames (pointer : String) (seen : List String) (i : Nat) :
    List Json → Finding (List String)
  | [] => .clean []
  | v :: vs =>
    let here := keywordPointer pointer (toString i)
    match v.text? with
    | none =>
      let rest := readNames pointer seen (i + 1) vs
      ⟨rest.value, ⟨here, "must be a string"⟩ :: rest.issues⟩
    | some name =>
      if seen.contains name then
        let rest := readNames pointer seen (i + 1) vs
        ⟨rest.value, ⟨here, "duplicate entry " ++ Text.quoted name⟩ :: rest.issues⟩
      else
        let rest := readNames pointer (name :: seen) (i + 1) vs
        ⟨name :: rest.value, rest.issues⟩

/-- The required names. -/
def readRequired (pointer : String) (v : Json) : Finding (Option (List String)) :=
  match v.items? with
  | some names =>
    let found := readNames pointer [] 0 names
    ⟨some found.value, found.issues⟩
  | none => .flawed none pointer "must be an array of strings"

/-- A switch. -/
def readSwitch (pointer : String) (v : Json) : Finding (Option Bool) :=
  match v.bool? with
  | some b => .clean (some b)
  | none => .flawed none pointer "must be a boolean"

/-! ## Whole definitions -/

theorem sizeOf_lookup {k : String} {ms : List (String × Json)} {v : Json}
    (h : ms.lookup k = some v) : sizeOf v < sizeOf ms := by
  induction ms with
  | nil => simp at h
  | cons m ms ih =>
    obtain ⟨n, w⟩ := m
    rw [List.lookup_cons] at h
    split at h
    · simp only [Option.some.injEq] at h
      subst h
      simp
      omega
    · have := ih h
      simp
      omega

/-- What reading the keywords of the document itself has found. -/
structure OwnFindings where
  kinds : Finding (Option (List Kind))
  allowed : Finding (Option (List Json))
  constant : Option Json
  minLength : Finding (Option UInt64)
  maxLength : Finding (Option UInt64)
  pattern : Finding (Option Pattern)
  format : Finding (Option (String × Format))
  minimum : Finding (Option Number)
  maximum : Finding (Option Number)
  exclusiveMinimum : Finding (Option Number)
  exclusiveMaximum : Finding (Option Number)
  multipleOf : Finding (Option Number)
  required : Finding (Option (List String))
  minItems : Finding (Option UInt64)
  maxItems : Finding (Option UInt64)
  uniqueItems : Finding (Option Bool)

namespace OwnFindings

/-- Reads the keywords of the document itself. -/
def read (members : Json.Members) (pointer : String) : OwnFindings where
  kinds := optional members pointer "type" readKinds
  allowed := optional members pointer "enum" readAllowed
  constant := members.lookup "const"
  minLength := optional members pointer "minLength" readCount
  maxLength := optional members pointer "maxLength" readCount
  pattern := optional members pointer "pattern" readPattern
  format := optional members pointer "format" readFormat
  minimum := optional members pointer "minimum" readNumber
  maximum := optional members pointer "maximum" readNumber
  exclusiveMinimum := optional members pointer "exclusiveMinimum" readNumber
  exclusiveMaximum := optional members pointer "exclusiveMaximum" readNumber
  multipleOf := optional members pointer "multipleOf" readStep
  required := optional members pointer "required" readRequired
  minItems := optional members pointer "minItems" readCount
  maxItems := optional members pointer "maxItems" readCount
  uniqueItems := optional members pointer "uniqueItems" readSwitch

/-- The rules found. -/
def rules (f : OwnFindings) : Rules where
  kinds := f.kinds.value
  allowed := f.allowed.value
  constant := f.constant
  minLength := f.minLength.value
  maxLength := f.maxLength.value
  pattern := f.pattern.value
  format := f.format.value
  minimum := f.minimum.value
  maximum := f.maximum.value
  exclusiveMinimum := f.exclusiveMinimum.value
  exclusiveMaximum := f.exclusiveMaximum.value
  multipleOf := f.multipleOf.value
  required := f.required.value.getD []
  minItems := f.minItems.value
  maxItems := f.maxItems.value
  uniqueItems := f.uniqueItems.value.getD false

/-- The issues of the keywords for values, texts and numbers, which come first. -/
def valueIssues (f : OwnFindings) : List CompileIssue :=
  f.kinds.issues ++ f.allowed.issues ++ f.minLength.issues ++ f.maxLength.issues ++
    f.pattern.issues ++ f.format.issues ++ f.minimum.issues ++ f.maximum.issues ++
    f.exclusiveMinimum.issues ++ f.exclusiveMaximum.issues ++ f.multipleOf.issues

/-- The issues of the keywords for the number of items, which come last. -/
def itemIssues (f : OwnFindings) : List CompileIssue :=
  f.minItems.issues ++ f.maxItems.issues ++ f.uniqueItems.issues

end OwnFindings

mutual

/-- Compiles the definition at a place. -/
def compileAt (definition : Json) (pointer : String) : Finding Schema :=
  match definition with
  | .bool allowed => .clean (always allowed)
  | .object members =>
    let own := OwnFindings.read members pointer
    let properties : Finding (List (String × Schema)) :=
      match _h : members.lookup "properties" with
      | none => .clean []
      | some (.object ms) => compileMembers ms (keywordPointer pointer "properties")
      | some _ => .flawed [] (keywordPointer pointer "properties") "must be an object"
    let additional := compilePart members "additionalProperties" pointer
    let items := compilePart members "items" pointer
    ⟨ruled own.rules properties.value additional.value items.value,
      own.valueIssues ++ properties.issues ++ own.required.issues ++ additional.issues ++
        items.issues ++ own.itemIssues⟩
  | v =>
    .flawed (always true) pointer
      ("schema must be an object or boolean, got " ++ (Kind.of v).name)
  termination_by (sizeOf definition, 0)
  decreasing_by
    · have := sizeOf_lookup _h
      simp at this ⊢
      omega
    · simp
      omega
    · simp
      omega

/-- Compiles the definition under a keyword, if it is there. -/
def compilePart (members : Json.Members) (keyword pointer : String) :
    Finding (Option Schema) :=
  match _h : members.lookup keyword with
  | none => .clean none
  | some v =>
    let found := compileAt v (keywordPointer pointer keyword)
    ⟨some found.value, found.issues⟩
  termination_by (sizeOf members, 1)
  decreasing_by
    exact Prod.Lex.left _ _ (sizeOf_lookup _h)

/-- Compiles the definitions of properties. -/
def compileMembers (members : Json.Members) (pointer : String) :
    Finding (List (String × Schema)) :=
  match members with
  | [] => .clean []
  | (name, v) :: ms =>
    let found := compileAt v (keywordPointer pointer (Json.escapeToken name))
    let rest := compileMembers ms pointer
    ⟨(name, found.value) :: rest.value, found.issues ++ rest.issues⟩
  termination_by (sizeOf members, 0)

end

/-- Compiles a definition, or lists everything that is wrong with it. -/
def compile (definition : Json) : Except CompileError Schema :=
  let found := compileAt definition "#"
  if found.issues.isEmpty then .ok found.value else .error ⟨found.issues⟩

end Schema

end SchemaVault
