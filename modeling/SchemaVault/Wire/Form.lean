import SchemaVault.Json.Basic

/-!
# JSON forms

The way a value is written as a document, and the documents that are read back as it. Reading
accepts what writing produces and, for records, more: a record is read from an object, in which
members that are not known are passed over, or from an array of its fields in their order, whose
end may be missing where the fields have defaults.
-/

namespace SchemaVault

/-- A type whose values are written as documents and read from them. -/
class JsonForm (α : Type) where
  toJson : α → Json
  ofJson? : Json → Option α

namespace JsonForm

/-! ## Plain values -/

instance : JsonForm Json := ⟨id, some⟩

instance : JsonForm String := ⟨.string, Json.text?⟩

instance : JsonForm Bool := ⟨.bool, Json.bool?⟩

/-- The exact integer of a document, if it is within the bounds. -/
def intWithin? (least greatest : Int) (v : Json) : Option Int :=
  v.int?.filter fun i => least ≤ i ∧ i ≤ greatest

instance : JsonForm Int64 :=
  ⟨fun n => .number (.ofInt64 n), fun v =>
    (intWithin? Int64.minValue.toInt Int64.maxValue.toInt v).map Int64.ofInt⟩

instance : JsonForm UInt64 :=
  ⟨fun n => .number (.ofUInt64 n), fun v =>
    (intWithin? 0 (UInt64.size - 1 : Nat) v).map fun i => UInt64.ofNat i.toNat⟩

instance : JsonForm UInt32 :=
  ⟨fun n => .number (.ofUInt64 n.toUInt64), fun v =>
    (intWithin? 0 (UInt32.size - 1 : Nat) v).map fun i => UInt32.ofNat i.toNat⟩

/-- An absent value is null. -/
instance {α : Type} [JsonForm α] : JsonForm (Option α) where
  toJson
    | none => .null
    | some a => toJson a
  ofJson?
    | .null => some none
    | v => (ofJson? v).map some

instance {α : Type} [JsonForm α] : JsonForm (List α) :=
  ⟨fun as => .array (as.map toJson), fun v => v.items?.bind (·.mapM ofJson?)⟩

/-! ## Records -/

/-- The fields of a record that are still to be read. -/
inductive Fields
  /-- By name, in any order. -/
  | named (members : Json.Members)
  /-- By place. -/
  | placed (items : List Json)

/-- Reads fields one after the other. -/
abbrev RecordReader := StateT Fields Option

/-- The next field, if it is there. -/
def next? (name : String) : RecordReader (Option Json) := fun fields =>
  match fields with
  | .named members => some (members.lookup name, fields)
  | .placed [] => some (none, fields)
  | .placed (v :: vs) => some (some v, .placed vs)

/-- A field that has to be there. -/
def field {α : Type} [JsonForm α] (name : String) : RecordReader α := do
  match ← next? name with
  | some v => StateT.lift (ofJson? v)
  | none => failure

/-- A field that may be missing and then has a default. -/
def fieldOr {α : Type} [JsonForm α] (name : String) (default : α) : RecordReader α := do
  match ← next? name with
  | some v => StateT.lift (ofJson? v)
  | none => pure default

/-- Reads a record. Of the fields by place none may be left over. -/
def record? {α : Type} (reader : RecordReader α) : Json → Option α
  | .object members => (reader (.named members)).map (·.1)
  | .array items =>
    match reader (.placed items) with
    | some (a, .placed []) => some a
    | _ => none
  | _ => none

/-- The member of an object for a value that may be absent, in which case there is none. -/
def present {α : Type} [JsonForm α] (name : String) (value : Option α) : List (String × Json) :=
  (value.map fun a => (name, toJson a)).toList

end JsonForm

end SchemaVault
