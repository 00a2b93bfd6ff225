import Mathlib.Tactic.MkIffOfInductiveProp
import SchemaVault.Proofs.Json.Pointer
import SchemaVault.Proofs.Number.Sign
import SchemaVault.Schema.Compile

/-!
# Malformed places of definitions

Where a definition is malformed, read off the document without compiling it. `Amiss` says what can
be wrong with the value under one keyword, and `Malformed` collects it from the definition itself
and from the definitions in it: those declared under `properties`, and those under
`additionalProperties` and `items`.

A place is given by the path to the value that is wrong. Only the unknown names in a list of kinds
share the path of the list, and are told apart by their place in it. Every path leads to the value
that is wrong (`Malformed.atPath?`).
-/

namespace SchemaVault

namespace Definition

/-- A place in a definition. -/
structure Place where
  /-- The path to the value that is wrong. -/
  path : List String
  /-- Which entry of a list of kinds is wrong, when it is not the value as a whole. -/
  entry : Option Nat
  deriving DecidableEq

namespace Place

/-- The value itself. -/
def here : Place := ⟨[], none⟩

/-- A place in the value at the end of a reference token. -/
def under (token : String) (p : Place) : Place := ⟨token :: p.path, p.entry⟩

theorem under_inj {token token' : String} {p p' : Place} :
    p.under token = p'.under token' ↔ token = token' ∧ p = p' := by
  obtain ⟨path, entry⟩ := p
  obtain ⟨path', entry'⟩ := p'
  simp [under, and_assoc]

end Place

/-- The keywords for a number of characters or items. -/
def countKeywords : List String := ["minLength", "maxLength", "minItems", "maxItems"]

/-- The keywords for a number. -/
def numberKeywords : List String :=
  ["minimum", "maximum", "exclusiveMinimum", "exclusiveMaximum", "multipleOf"]

/-- The keywords for a definition. -/
def partKeywords : List String := ["additionalProperties", "items"]

/-- **What can be wrong with the value under a keyword**, where in it, and the value there. A number
of characters or items has to be written as an integer. -/
@[mk_iff]
inductive Amiss : (keyword : String) → (asked : Json) → Place → (offending : Json) → Prop
  | kinds {asked} (htext : asked.text? = none) (hlist : ∀ v vs, asked ≠ .array (v :: vs)) :
      Amiss "type" asked .here asked
  | kind {name} (h : ∀ k : Kind, name ≠ k.name) :
      Amiss "type" (.string name) .here (.string name)
  | kindEntry {names : List Json} {i : Nat} {v} (hi : names[i]? = some v)
      (h : ∀ k : Kind, v ≠ .string k.name) :
      Amiss "type" (.array names) ⟨[], some i⟩ (.array names)
  | enum {asked} (h : asked.items? = none) : Amiss "enum" asked .here asked
  | count {keyword asked} (hkeyword : keyword ∈ countKeywords)
      (h : ∀ i, asked.int? = some i → i < 0) : Amiss keyword asked .here asked
  | bound {keyword asked} (hkeyword : keyword ∈ numberKeywords) (h : asked.number? = none) :
      Amiss keyword asked .here asked
  | step {n} (h : ¬n.AboveZero) : Amiss "multipleOf" (.number n) .here (.number n)
  | patternText {asked} (h : asked.text? = none) : Amiss "pattern" asked .here asked
  | pattern {source fault} (h : Pattern.ofSource source = .error fault) :
      Amiss "pattern" (.string source) .here (.string source)
  | format {asked} (h : asked.text? = none) : Amiss "format" asked .here asked
  | properties {asked} (h : ∀ ps, asked ≠ .object ps) : Amiss "properties" asked .here asked
  | required {asked} (h : asked.items? = none) : Amiss "required" asked .here asked
  | nameText {names : List Json} {i : Nat} {v} (hi : names[i]? = some v) (h : v.text? = none) :
      Amiss "required" (.array names) (Place.here.under (toString i)) v
  | nameRepeated {names : List Json} {i j : Nat} {name} (hlt : j < i)
      (hj : names[j]? = some (.string name)) (hi : names[i]? = some (.string name)) :
      Amiss "required" (.array names) (Place.here.under (toString i)) (.string name)
  | uniqueItems {asked} (h : asked.bool? = none) : Amiss "uniqueItems" asked .here asked

/-- **The malformed places of a definition**, with the value at each. -/
inductive Malformed : (definition : Json) → Place → (offending : Json) → Prop
  | notDefinition {v} (hbool : ∀ b, v ≠ .bool b) (hobject : ∀ members, v ≠ .object members) :
      Malformed v .here v
  | keyword {members : Json.Members} {keyword asked place v}
      (hasked : members.lookup keyword = some asked) (h : Amiss keyword asked place v) :
      Malformed (.object members) (place.under keyword) v
  | property {members ps : Json.Members} {name d place v}
      (hdeclared : members.lookup "properties" = some (.object ps))
      (hd : ps.lookup name = some d) (h : Malformed d place v) :
      Malformed (.object members) ((place.under name).under "properties") v
  | part {members : Json.Members} {keyword d place v} (hkeyword : keyword ∈ partKeywords)
      (hd : members.lookup keyword = some d) (h : Malformed d place v) :
      Malformed (.object members) (place.under keyword) v

/-- What can be wrong with kinds. -/
theorem amiss_type_iff {asked : Json} {p : Place} :
    (∃ v, Amiss "type" asked p v) ↔
      p = .here ∧ asked.text? = none ∧ (∀ v vs, asked ≠ .array (v :: vs)) ∨
      p = .here ∧ (∃ name, asked = .string name ∧ ∀ k : Kind, name ≠ k.name) ∨
      ∃ names : List Json, asked = .array names ∧ ∃ (i : Nat) (v : Json), p = ⟨[], some i⟩ ∧
        names[i]? = some v ∧ ∀ k : Kind, v ≠ .string k.name := by
  constructor
  · rintro ⟨v, h⟩
    simp [amiss_iff, countKeywords, numberKeywords] at h
    rcases h with ⟨htext, hlist, rfl, rfl⟩ | ⟨name, hname, rfl, rfl, rfl⟩ |
      ⟨names, i, w, hi, hw, rfl, rfl, rfl⟩
    · exact .inl ⟨rfl, htext, hlist⟩
    · exact .inr (.inl ⟨rfl, name, rfl, hname⟩)
    · exact .inr (.inr ⟨names, rfl, i, w, rfl, hi, hw⟩)
  · rintro (⟨rfl, htext, hlist⟩ | ⟨rfl, name, rfl, hname⟩ | ⟨names, rfl, i, w, rfl, hi, hw⟩)
    · exact ⟨_, .kinds htext hlist⟩
    · exact ⟨_, .kind hname⟩
    · exact ⟨_, .kindEntry hi hw⟩

/-- What can be wrong with required names. -/
theorem amiss_required_iff {asked : Json} {p : Place} :
    (∃ v, Amiss "required" asked p v) ↔
      p = .here ∧ asked.items? = none ∨
      ∃ names : List Json, asked = .array names ∧ ∃ (i : Nat) (v : Json),
        p = Place.here.under (toString i) ∧ names[i]? = some v ∧
        (v.text? = none ∨ ∃ name, v = .string name ∧ ∃ j < i, names[j]? = some (.string name)) := by
  constructor
  · rintro ⟨v, h⟩
    simp [amiss_iff, countKeywords, numberKeywords] at h
    rcases h with ⟨hitems, rfl, rfl⟩ | ⟨names, i, hi, htext, rfl, rfl⟩ |
      ⟨names, i, j, hlt, name, hj, hi, rfl, rfl, rfl⟩
    · exact .inl ⟨rfl, hitems⟩
    · exact .inr ⟨names, rfl, i, v, rfl, hi, .inl htext⟩
    · exact .inr ⟨names, rfl, i, _, rfl, hi, .inr ⟨name, rfl, j, hlt, hj⟩⟩
  · rintro (⟨rfl, hitems⟩ | ⟨names, rfl, i, v, rfl, hi, htext | ⟨name, rfl, j, hlt, hj⟩⟩)
    · exact ⟨_, .required hitems⟩
    · exact ⟨_, .nameText hi htext⟩
    · exact ⟨_, .nameRepeated hlt hj hi⟩

/-- The path of what is wrong under a keyword leads to the value that is wrong. -/
theorem Amiss.atPath? {keyword : String} {asked v : Json} {place : Place}
    (h : Amiss keyword asked place v) : asked.atPath? place.path = some v := by
  cases h with
  | nameText hi => exact Json.atPath?_item hi []
  | nameRepeated _ _ hi => exact Json.atPath?_item hi []
  | _ => rfl

/-- **The path of a malformed place leads to the value that is wrong.** -/
theorem Malformed.atPath? {definition v : Json} {place : Place} (h : Malformed definition place v) :
    definition.atPath? place.path = some v := by
  induction h with
  | notDefinition => rfl
  | keyword hasked h => exact (Json.atPath?_member hasked _).trans h.atPath?
  | property hdeclared hd _ ih =>
    exact (Json.atPath?_member hdeclared _).trans ((Json.atPath?_member hd _).trans ih)
  | part _ hd _ ih => exact (Json.atPath?_member hd _).trans ih

/-- What is malformed under a keyword of a definition: the value itself, or a place in the
definitions that it holds. -/
theorem malformed_under_iff {members : Json.Members} {keyword : String} {place : Place} {v : Json} :
    Malformed (.object members) (place.under keyword) v ↔
      (∃ asked, members.lookup keyword = some asked ∧ Amiss keyword asked place v) ∨
      (keyword = "properties" ∧ ∃ ps, members.lookup "properties" = some (.object ps) ∧
        ∃ name d inner, ps.lookup name = some d ∧ place = inner.under name ∧
          Malformed d inner v) ∨
      (keyword ∈ partKeywords ∧ ∃ d, members.lookup keyword = some d ∧ Malformed d place v) := by
  constructor
  · intro h
    generalize hplace : place.under keyword = p at h
    cases h with
    | notDefinition _ hobject => exact absurd rfl (hobject _)
    | keyword hasked h =>
      obtain ⟨rfl, rfl⟩ := Place.under_inj.1 hplace
      exact .inl ⟨_, hasked, h⟩
    | property hdeclared hd h =>
      obtain ⟨rfl, rfl⟩ := Place.under_inj.1 hplace
      exact .inr (.inl ⟨rfl, _, hdeclared, _, _, _, hd, rfl, h⟩)
    | part hkeyword hd h =>
      obtain ⟨rfl, rfl⟩ := Place.under_inj.1 hplace
      exact .inr (.inr ⟨hkeyword, _, hd, h⟩)
  · rintro (⟨asked, hasked, h⟩ | ⟨rfl, ps, hdeclared, name, d, inner, hd, rfl, h⟩ |
      ⟨hkeyword, d, hd, h⟩)
    · exact .keyword hasked h
    · exact .property hdeclared hd h
    · exact .part hkeyword hd h

end Definition

end SchemaVault
