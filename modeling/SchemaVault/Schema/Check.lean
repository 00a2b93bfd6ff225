import SchemaVault.Failure
import SchemaVault.Json.Printer
import SchemaVault.Schema.Basic

/-!
# Checking documents

Checking a document against a schema finds every violation, in a fixed order, and says where it
is. At each place the kind comes first, and a document of the wrong kind is not looked at further;
then the allowed values, the bounds of the document's own kind, the required names, the declared
properties in their order, and the remaining members in theirs.

A place is written `$` for the document itself, and otherwise as the names and indices that lead
to it, as in `address.city` and `tags[2]`.
-/

namespace SchemaVault

/-- A violation of a schema, and where. -/
structure Issue where
  path : String
  message : String
  deriving DecidableEq

/-- A violation in one line. -/
def Issue.text (i : Issue) : String := i.path ++ ": " ++ i.message

/-- The violations by place. -/
def FieldErrors.ofIssues (issues : List Issue) : FieldErrors :=
  .ofPairs (issues.map fun i => (i.path, i.message))

namespace Schema

/-! ## Places -/

/-- The place of the document itself. -/
def rootPath : String := "$"

/-- The place of a member. -/
def memberPath (parent name : String) : String :=
  if parent = rootPath then name else parent ++ "." ++ name

/-- The place of an item. -/
def itemPath (parent : String) (index : Nat) : String :=
  parent ++ "[" ++ toString index ++ "]"

/-! ## Rules for a document itself -/

/-- A violation, if the condition says so. -/
def issueIf (violated : Bool) (path message : String) : List Issue :=
  if violated then [⟨path, message⟩] else []

/-- A violation of a rule that may be absent. -/
def issueOf {α : Type} (rule : Option α) (path : String) (violated : α → Bool)
    (message : α → String) : List Issue :=
  match rule with
  | none => []
  | some a => issueIf (violated a) path (message a)

/-- The violation of the kinds. -/
def kindIssues (r : Rules) (v : Json) (path : String) : List Issue :=
  issueOf r.kinds path (fun kinds => !kinds.any (·.accepts v)) fun kinds =>
    "expected " ++ " or ".intercalate (kinds.map Kind.name) ++ ", got " ++ (Kind.of v).name

/-- The violations of the allowed values and of the constant. -/
def valueIssues (r : Rules) (v : Json) (path : String) : List Issue :=
  issueOf r.allowed path (fun allowed => !allowed.any (·.same v)) (fun allowed =>
    "must be one of [" ++ ", ".intercalate (allowed.map Json.print) ++ "]") ++
  issueOf r.constant path (fun constant => !constant.same v) fun constant =>
    "must equal " ++ constant.print

/-- The violations of the rules for texts. -/
def textIssues (r : Rules) (s : String) (path : String) : List Issue :=
  issueOf r.minLength path (fun n => s.length < n.toNat)
    (fun n => "must be at least " ++ toString n.toNat ++ " characters long") ++
  issueOf r.maxLength path (fun n => n.toNat < s.length)
    (fun n => "must be at most " ++ toString n.toNat ++ " characters long") ++
  issueOf r.pattern path (fun p => !p.isFoundIn s) (fun p => "must match pattern " ++ p.source) ++
  issueOf r.format path (fun f => !f.2.accepts s) (fun f => "must be a valid " ++ f.1)

/-- The violations of the rules for numbers. -/
def numberIssues (r : Rules) (n : Number) (path : String) : List Issue :=
  issueOf r.minimum path (fun m => (n.compare m).isLT) (fun m => "must be >= " ++ m.text) ++
  issueOf r.maximum path (fun m => (n.compare m).isGT) (fun m => "must be <= " ++ m.text) ++
  issueOf r.exclusiveMinimum path (fun m => !(n.compare m).isGT)
    (fun m => "must be > " ++ m.text) ++
  issueOf r.exclusiveMaximum path (fun m => !(n.compare m).isLT)
    (fun m => "must be < " ++ m.text) ++
  issueOf r.multipleOf path (fun step => !n.isMultiple step)
    (fun step => "must be a multiple of " ++ step.text)

/-- The required names that an object lacks. -/
def requiredIssues (r : Rules) (members : Json.Members) (path : String) : List Issue :=
  r.required.flatMap fun name =>
    issueIf (members.lookup name).isNone (memberPath path name) "is required"

/-- Whether an item is the same as an earlier one. -/
def hasDuplicate : List Json → Bool
  | [] => false
  | v :: vs => vs.any (fun w => w.same v) || hasDuplicate vs

/-- The violations of the rules for the number of items. -/
def countIssues (r : Rules) (items : List Json) (path : String) : List Issue :=
  issueOf r.minItems path (fun n => items.length < n.toNat)
    (fun n => "must contain at least " ++ toString n.toNat ++ " items") ++
  issueOf r.maxItems path (fun n => n.toNat < items.length)
    (fun n => "must contain at most " ++ toString n.toNat ++ " items") ++
  issueIf (r.uniqueItems && hasDuplicate items) path "items must be unique"

/-! ## Whole documents -/

/-- The members that no property is declared for. -/
def undeclared (properties : List (String × Schema)) (members : Json.Members) : Json.Members :=
  members.filter fun m => !properties.any (·.1 == m.1)

mutual

/-- The violations of a schema by the document at a place. -/
def issuesAt : Schema → Json → (path : String) → List Issue
  | always true, _, _ => []
  | always false, _, path => [⟨path, "no value is allowed here"⟩]
  | ruled r properties additional items, v, path =>
    let wrongKind := kindIssues r v path
    if !wrongKind.isEmpty then wrongKind
    else
      valueIssues r v path ++
        match v with
        | .string s => textIssues r s path
        | .number n => numberIssues r n path
        | .object members =>
          requiredIssues r members path ++ propertyIssues properties members path ++
            additionalIssues additional (undeclared properties members) path
        | .array vs => countIssues r vs path ++ itemIssues items vs path
        | .bool _ | .null => []

/-- The violations by the members that are declared. -/
def propertyIssues : List (String × Schema) → Json.Members → (path : String) → List Issue
  | [], _, _ => []
  | (name, s) :: ss, members, path =>
    (match members.lookup name with
      | some v => issuesAt s v (memberPath path name)
      | none => []) ++ propertyIssues ss members path

/-- The violations by the members that are not declared. -/
def additionalIssues : Option Schema → Json.Members → (path : String) → List Issue
  | none, _, _ => []
  | some (always false), members, path =>
    members.map fun m => ⟨memberPath path m.1, "is not allowed"⟩
  | some s, members, path => members.flatMap fun m => issuesAt s m.2 (memberPath path m.1)

/-- The violations by the items. -/
def itemIssues : Option Schema → List Json → (path : String) → List Issue
  | none, _, _ => []
  | some s, vs, path => vs.zipIdx.flatMap fun (v, i) => issuesAt s v (itemPath path i)

end

/-- Every violation of a schema by a document. -/
def issues (s : Schema) (v : Json) : List Issue := issuesAt s v rootPath

end Schema

end SchemaVault
