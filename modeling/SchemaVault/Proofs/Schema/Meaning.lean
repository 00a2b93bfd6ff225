import SchemaVault.Schema.Check
import SchemaVault.Schema.Compile
import Mathlib.Algebra.GroupWithZero.Nat

/-!
# What a definition asks

A definition read as the document that it is, without compiling it. `Definition.Satisfied` says when
a payload satisfies a definition, and `Definition.violations` how often it does not:

* a definition that is `true` allows everything, and `false` allows nothing, which is one violation;
* a payload of none of the kinds that `type` names is one violation, whatever else is asked;
* otherwise each keyword that the payload itself does not meet is a violation (`Keyword.isMet`), and
  so is each name of `required` that an object lacks, and the violations by the members and by the
  items are added, each member by the definition declared for it in `properties` or else by
  `additionalProperties`, and each item by `items`.

A payload satisfies a definition exactly if it has no violation (`violations_eq_zero_iff`). How
texts are matched and numbers compared is the same here as for a compiled schema.
-/

namespace SchemaVault.Definition

/-! ## Kinds -/

/-- Whether a payload is of the kind that a name stands for. A number is an integer by its value,
however it is kept. -/
def isOfKind : (v : Json) → (name : String) → Bool
  | .object _, name => name == "object"
  | .array _, name => name == "array"
  | .string _, name => name == "string"
  | .number n, name => name == "number" || name == "integer" && n.isIntegral
  | .bool _, name => name == "boolean"
  | .null, name => name == "null"

/-- The names that stand under `type`. -/
def kindNames : Json → List String
  | .string name => [name]
  | .array names => names.filterMap Json.text?
  | _ => []

/-- Whether a payload is of one of the kinds that a definition names, if it names any. -/
def allowsKind (members : Json.Members) (v : Json) : Bool :=
  (members.lookup "type").all fun names => (kindNames names).any (isOfKind v)

/-! ## Keywords -/

/-- The keywords that ask something of a payload itself. -/
inductive Keyword
  | enum
  | const
  | minLength
  | maxLength
  | pattern
  | format
  | minimum
  | maximum
  | exclusiveMinimum
  | exclusiveMaximum
  | multipleOf
  | minItems
  | maxItems
  | uniqueItems

namespace Keyword

/-- The only kind of payloads of which a keyword asks something, if there is only one. -/
def kind? : Keyword → Option Kind
  | enum | const => none
  | minLength | maxLength | pattern | format => some .string
  | minimum | maximum | exclusiveMinimum | exclusiveMaximum | multipleOf => some .number
  | minItems | maxItems | uniqueItems => some .array

/-- The keywords for payloads of all kinds. -/
def forValues : List Keyword := [enum, const]

/-- The keywords for texts, for numbers and for arrays. -/
def forTexts : List Keyword := [minLength, maxLength, pattern, format]

@[inherit_doc forTexts]
def forNumbers : List Keyword :=
  [minimum, maximum, exclusiveMinimum, exclusiveMaximum, multipleOf]

@[inherit_doc forTexts]
def forArrays : List Keyword := [minItems, maxItems, uniqueItems]

/-- All keywords. -/
def all : List Keyword := forValues ++ forTexts ++ forNumbers ++ forArrays

/-- The member of a definition in which a keyword stands. -/
def name : Keyword → String
  | enum => "enum"
  | const => "const"
  | minLength => "minLength"
  | maxLength => "maxLength"
  | pattern => "pattern"
  | format => "format"
  | minimum => "minimum"
  | maximum => "maximum"
  | exclusiveMinimum => "exclusiveMinimum"
  | exclusiveMaximum => "exclusiveMaximum"
  | multipleOf => "multipleOf"
  | minItems => "minItems"
  | maxItems => "maxItems"
  | uniqueItems => "uniqueItems"

/-- Whether a pattern is found in a text. -/
def finds (source s : String) : Bool :=
  match Pattern.ofSource source with
  | .ok p => p.isFoundIn s
  | .error _ => true

/-- Whether a payload meets a keyword under which something is asked. The keywords for texts ask
nothing of other payloads, and likewise those for numbers and for arrays. -/
def isMet : Keyword → (asked v : Json) → Bool
  | enum, .array allowed, v => allowed.any (·.same v)
  | const, asked, v => asked.same v
  | minLength, .number (.integer n _), .string s => n ≤ s.length
  | maxLength, .number (.integer n _), .string s => s.length ≤ n
  | pattern, .string source, .string s => finds source s
  | format, .string name, .string s => (Format.ofName name).accepts s
  | minimum, .number m, .number n => !(n.compare m).isLT
  | maximum, .number m, .number n => !(n.compare m).isGT
  | exclusiveMinimum, .number m, .number n => (n.compare m).isGT
  | exclusiveMaximum, .number m, .number n => (n.compare m).isLT
  | multipleOf, .number step, .number n => n.isMultiple step
  | minItems, .number (.integer n _), .array vs => n ≤ vs.length
  | maxItems, .number (.integer n _), .array vs => vs.length ≤ n
  | uniqueItems, .bool true, .array vs => vs.Pairwise fun a b => b.same a = false
  | _, _, _ => true

theorem mem_all (k : Keyword) : k ∈ all := by
  cases k <;> simp [all, forValues, forTexts, forNumbers, forArrays]

/-- A keyword for one kind asks nothing of payloads of another. -/
theorem isMet_of_kind {k : Keyword} {kind : Kind} {v : Json} (hk : k.kind? = some kind)
    (hv : kind.accepts v = false) (asked : Json) : k.isMet asked v := by
  unfold isMet
  split
  case h_15 => rfl
  all_goals cases hk <;> cases hv

end Keyword

/-- Whether a payload misses a keyword of a definition. -/
def misses (members : Json.Members) (v : Json) (k : Keyword) : Bool :=
  (members.lookup k.name).any fun asked => !k.isMet asked v

theorem misses_of_kind {members : Json.Members} {v : Json} {k : Keyword} {kind : Kind}
    (hk : k.kind? = some kind) (hv : kind.accepts v = false) : misses members v k = false := by
  unfold misses
  cases members.lookup k.name with
  | none => rfl
  | some asked => simp [Keyword.isMet_of_kind hk hv asked]

/-! ## Members and items -/

/-- The names that an object needs. -/
def requiredNames (members : Json.Members) : List String :=
  match members.lookup "required" with
  | some (.array names) => names.filterMap Json.text?
  | _ => []

/-- The definitions that are declared for members. -/
def declared (members : Json.Members) : Json.Members :=
  match members.lookup "properties" with
  | some (.object ps) => ps
  | _ => []

/-- The members of a payload, if it is an object. -/
@[simp] def membersOf : Json → Json.Members
  | .object ms => ms
  | _ => []

/-- The items of a payload, if it is an array. -/
@[simp] def itemsOf : Json → List Json
  | .array vs => vs
  | _ => []

/-- The required names that a payload lacks, if it is an object. -/
@[simp] def missing (members : Json.Members) : Json → List String
  | .object ms => (requiredNames members).filter fun name => (ms.lookup name).isNone
  | _ => []

/-- The members of a payload for which nothing is declared, if it is an object. -/
def undeclared (members : Json.Members) (v : Json) : Json.Members :=
  (membersOf v).filter fun m => !(declared members).any (·.1 == m.1)

theorem sizeOf_declared {members : Json.Members} :
    sizeOf (declared members) < sizeOf (Json.object members) := by
  unfold declared
  split
  · rename_i ps h
    have := Schema.sizeOf_lookup h
    simp at this ⊢
    omega
  · simp
    have : 1 ≤ sizeOf members := by
      cases members with
      | nil => simp
      | cons m ms =>
        simp only [List.cons.sizeOf_spec]
        omega
    omega

/-! ## Payloads that satisfy a definition -/

/-- **When a payload satisfies a definition.** -/
inductive Satisfied : (definition v : Json) → Prop
  | anything {v} : Satisfied (.bool true) v
  | ruled {members v} (kind : allowsKind members v)
      (keywords : ∀ k, misses members v k = false)
      (required : missing members v = [])
      (properties : ∀ p ∈ declared members, ∀ w, (membersOf v).lookup p.1 = some w →
        Satisfied p.2 w)
      (additional : ∀ d, members.lookup "additionalProperties" = some d →
        ∀ m ∈ undeclared members v, Satisfied d m.2)
      (items : ∀ d, members.lookup "items" = some d → ∀ w ∈ itemsOf v, Satisfied d w) :
      Satisfied (.object members) v

mutual

/-- How many violations of a definition there are in a payload. What is neither an object nor a
truth value is no definition, and counts as one that allows nothing. -/
def violations (definition v : Json) : Nat :=
  match definition with
  | .bool true => 0
  | .object members =>
    if allowsKind members v then
      Keyword.all.countP (misses members v) + (missing members v).length +
        violationsOfDeclared (declared members) (membersOf v) +
        violationsUnder members "additionalProperties" ((undeclared members v).map (·.2)) +
        violationsUnder members "items" (itemsOf v)
    else 1
  | _ => 1
  termination_by (sizeOf definition, 0)
  decreasing_by
    · exact Prod.Lex.left _ _ sizeOf_declared
    · simp
      omega
    · simp
      omega

/-- How many violations there are in some payloads of the definition under a keyword. -/
def violationsUnder (members : Json.Members) (keyword : String) (vs : List Json) : Nat :=
  match _h : members.lookup keyword with
  | none => 0
  | some d => (vs.map (violations d)).sum
  termination_by (sizeOf members, 1)
  decreasing_by
    exact Prod.Lex.left _ _ (Schema.sizeOf_lookup _h)

/-- How many violations of the definitions declared for them there are in the members of an
object. -/
def violationsOfDeclared (ps ms : Json.Members) : Nat :=
  match ps with
  | [] => 0
  | (name, d) :: ps => ((ms.lookup name).elim 0 (violations d)) + violationsOfDeclared ps ms
  termination_by (sizeOf ps, 0)

end

theorem violationsUnder_of_none {members : Json.Members} {keyword : String} {vs : List Json}
    (h : members.lookup keyword = none) : violationsUnder members keyword vs = 0 := by
  rw [violationsUnder]
  split
  · rfl
  · rename_i hd
    cases hd.symm.trans h

theorem violationsUnder_of_some {members : Json.Members} {keyword : String} {vs : List Json}
    {d : Json} (h : members.lookup keyword = some d) :
    violationsUnder members keyword vs = (vs.map (violations d)).sum := by
  rw [violationsUnder]
  split
  · rename_i hnone
    cases hnone.symm.trans h
  · rename_i d' hd
    obtain rfl := Option.some.inj (hd.symm.trans h)
    rfl

/-- Without members and items there is nothing that can violate a definition under a keyword. -/
@[simp] theorem violationsUnder_nil (members : Json.Members) (keyword : String) :
    violationsUnder members keyword [] = 0 := by
  rw [violationsUnder]
  split <;> rfl

@[simp, inherit_doc violationsUnder_nil]
theorem violationsOfDeclared_nil (ps : Json.Members) : violationsOfDeclared ps [] = 0 := by
  induction ps with
  | nil => rw [violationsOfDeclared]
  | cons p ps ih =>
    rw [violationsOfDeclared, ih]
    rfl

theorem countP_misses_eq_zero_iff {members : Json.Members} {v : Json} :
    Keyword.all.countP (misses members v) = 0 ↔ ∀ k, misses members v k = false := by
  simp only [List.countP_eq_zero, Bool.not_eq_true]
  exact ⟨fun h k => h k k.mem_all, fun h k _ => h k⟩

/-- **A payload without violations satisfies the definition**, and conversely. -/
theorem violations_eq_zero_iff (definition v : Json) :
    violations definition v = 0 ↔ Satisfied definition v := by
  apply violations.induct (fun definition v => violations definition v = 0 ↔ Satisfied definition v)
    (fun members keyword vs => violationsUnder members keyword vs = 0 ↔
      ∀ d, members.lookup keyword = some d → ∀ w ∈ vs, Satisfied d w)
    (fun ps ms => violationsOfDeclared ps ms = 0 ↔
      ∀ p ∈ ps, ∀ w, ms.lookup p.1 = some w → Satisfied p.2 w)
  case case1 =>
    intro v
    exact iff_of_true (by rw [violations]) .anything
  case case2 =>
    intro v members hkind hdeclared hadditional hitems
    have hundeclared : (∀ d, members.lookup "additionalProperties" = some d →
          ∀ w ∈ (undeclared members v).map (·.2), Satisfied d w) ↔
        ∀ d, members.lookup "additionalProperties" = some d →
          ∀ m ∈ undeclared members v, Satisfied d m.2 := by
      simp only [List.forall_mem_map]
    rw [violations, if_pos hkind]
    simp only [Nat.add_eq_zero_iff, countP_misses_eq_zero_iff, List.length_eq_zero_iff, hdeclared,
      hadditional, hitems, hundeclared, and_assoc]
    constructor
    · rintro ⟨hkeywords, hrequired, hproperties, hrest, hvs⟩
      exact .ruled hkind hkeywords hrequired hproperties hrest hvs
    · intro h
      cases h with
      | ruled _ hkeywords hrequired hproperties hrest hvs =>
        exact ⟨hkeywords, hrequired, hproperties, hrest, hvs⟩
  case case3 =>
    intro v members hkind
    rw [violations, if_neg hkind]
    refine iff_of_false Nat.one_ne_zero fun h => ?_
    cases h with
    | ruled hallowed => exact hkind hallowed
  case case4 =>
    intro definition v htrue hobject
    rw [violations.eq_3 _ _ htrue hobject]
    refine iff_of_false Nat.one_ne_zero fun h => ?_
    cases h with
    | anything => exact htrue rfl
    | ruled => exact hobject _ rfl
  case case5 =>
    intro members keyword vs hnone
    simp [violationsUnder_of_none hnone, hnone]
  case case6 =>
    intro members keyword vs d hd ih
    simp [violationsUnder_of_some hd, hd, List.sum_eq_zero_iff_forall_eq_nat, ih]
  case case7 =>
    intro ms
    simp [violationsOfDeclared]
  case case8 =>
    intro ms name d ps ih ihs
    have hfirst : (ms.lookup name).elim 0 (violations d) = 0 ↔
        ∀ w, ms.lookup name = some w → Satisfied d w := by
      cases ms.lookup name <;> simp [ih]
    rw [violationsOfDeclared, Nat.add_eq_zero_iff, hfirst, ihs, List.forall_mem_cons]

end SchemaVault.Definition
