import SchemaVault.Proofs.Identifier
import SchemaVault.Proofs.Json.Members
import SchemaVault.Proofs.Version
import SchemaVault.Wire.Entities
import Mathlib.Data.List.Nodup

/-!
# The JSON forms lose nothing

What is written as a document is read back as it was (`wire_lossless`), and so no two values are
written as one document. The proof of a record follows its reader field by field: `Reads` says what
a reader makes of the members of an object and is closed under `bind`, `Reads.field` and
`Reads.fieldOr` read a member, and `record?_ofMembers` says that how an object orders its members
makes no difference to the look-ups. A field that is null and one that is left out can both stand
for an absent value, as long as no value that is present is written as null (`NeverNull`).

All of this is about documents. Whether the text of a document reads as the document again is a
question of its own (`Json.ReadsBack`).
-/

namespace SchemaVault

namespace JsonForm

/-! ## Forms -/

/-- A form from which every value is read back. -/
class Lossless (α : Type) [JsonForm α] : Prop where
  ofJson?_toJson (a : α) : ofJson? (toJson a) = some a

/-- A form in which no value is null. -/
class NeverNull (α : Type) [JsonForm α] : Prop where
  toJson_ne_null (a : α) : toJson a ≠ .null

open Lossless NeverNull

/-- Values that are read back are not written as one document. -/
theorem toJson_injective {α : Type} [JsonForm α] [Lossless α] :
    Function.Injective (toJson : α → Json) := by
  intro a b h
  have hread := congrArg (ofJson? (α := α)) h
  rw [ofJson?_toJson, ofJson?_toJson] at hread
  exact Option.some.inj hread

/-! ## Plain values -/

instance : Lossless Json := ⟨fun _ => rfl⟩

instance : Lossless String := ⟨fun _ => rfl⟩

instance : NeverNull String := ⟨fun _ h => nomatch h⟩

instance : Lossless Bool := ⟨fun _ => rfl⟩

theorem intWithin?_integer {least greatest i : Int} (h : least ≤ i ∧ i ≤ greatest)
    (inRange : -0x8000000000000000 ≤ i ∧ i < 0x10000000000000000) :
    intWithin? least greatest (.number (.integer i inRange)) = some i := by
  change (some i).filter _ = some i
  exact Option.filter_eq_some_iff.2 ⟨rfl, decide_eq_true h⟩

instance : Lossless Int64 where
  ofJson?_toJson n := by
    change (intWithin? _ _ (.number (.ofInt64 n))).map Int64.ofInt = some n
    rw [Number.ofInt64, intWithin?_integer ⟨n.minValue_le_toInt, n.toInt_le⟩]
    exact congrArg some (Int64.ofInt_toInt n)

instance : NeverNull Int64 := ⟨fun _ h => nomatch h⟩

instance : Lossless UInt64 where
  ofJson?_toJson n := by
    change (intWithin? _ _ (.number (.ofUInt64 n))).map _ = some n
    have hbounds : (0 : Int) ≤ n.toNat ∧ (n.toNat : Int) ≤ (UInt64.size - 1 : Nat) := by
      have := n.toNat_lt_size
      omega
    rw [Number.ofUInt64, intWithin?_integer hbounds]
    exact congrArg some n.ofNat_toNat

instance : Lossless UInt32 where
  ofJson?_toJson n := by
    change (intWithin? _ _ (.number (.ofUInt64 n.toUInt64))).map _ = some n
    have hbounds : (0 : Int) ≤ n.toUInt64.toNat ∧
        (n.toUInt64.toNat : Int) ≤ (UInt32.size - 1 : Nat) := by
      have := n.toNat_lt_size
      rw [n.toNat_toUInt64]
      omega
    rw [Number.ofUInt64, intWithin?_integer hbounds]
    exact congrArg some n.ofNat_toNat

instance {α : Type} [JsonForm α] [Lossless α] [NeverNull α] : Lossless (Option α) where
  ofJson?_toJson
    | none => rfl
    | some a => by
      have hread : ofJson? (toJson (some a)) = (ofJson? (toJson a)).map (some : α → Option α) := by
        change (match toJson a with | .null => some none | v => (ofJson? v).map some) = _
        split
        · rename_i h
          exact absurd h (toJson_ne_null a)
        · rfl
      rw [hread, ofJson?_toJson]
      rfl

/-- What each member of a list is read back from, the list is read back from. -/
theorem mapM_map_eq_some {α β : Type} {f : α → β} {g : β → Option α} (h : ∀ a, g (f a) = some a)
    (as : List α) : (as.map f).mapM g = some as := by
  induction as with
  | nil => rfl
  | cons a as ih =>
    rw [List.map_cons, List.mapM_cons, h, ih]
    rfl

instance {α : Type} [JsonForm α] [Lossless α] : Lossless (List α) :=
  ⟨mapM_map_eq_some ofJson?_toJson⟩

instance : Lossless Version where
  ofJson?_toJson v := by
    change (Version.read v.text).toOption = some v
    rw [Version.read_text]
    rfl

instance : Lossless SchemaId where
  ofJson?_toJson id := by
    change (some id.text).bind SchemaId.read? = some id
    rw [Option.bind_some, SchemaId.read?_text]

instance : NeverNull SchemaId := ⟨fun _ h => nomatch h⟩

instance : Lossless EntityId where
  ofJson?_toJson id := by
    change (some id.text).bind EntityId.read? = some id
    rw [Option.bind_some, EntityId.read?_text]

instance : Lossless FieldErrors where
  ofJson?_toJson e := by
    have hentry : ∀ p : String × List String,
        (ofJson? (toJson p.2)).map (fun messages : List String => (p.1, messages)) = some p := by
      intro p
      rw [ofJson?_toJson]
      rfl
    exact congrArg (Option.map FieldErrors.mk) (mapM_map_eq_some hentry e.entries)

/-! ## Readers -/

section Readers

variable {α β : Type} {members : Json.Members} {name other : String}

/-- Whether a reader makes a value of the members of an object, and leaves them to what follows. -/
def Reads (reader : RecordReader α) (members : Json.Members) (a : α) : Prop :=
  reader (.named members) = some (a, .named members)

theorem Reads.pure (a : α) : Reads (pure a) members a := rfl

theorem Reads.bind {x : RecordReader α} {f : α → RecordReader β} {a : α} {b : β}
    (hx : Reads x members a) (hf : Reads (f a) members b) : Reads (x >>= f) members b := by
  change (x (.named members) >>= fun p => f p.1 p.2) = some (b, .named members)
  rw [hx]
  exact hf

theorem reads_next? : Reads (next? name) members (members.lookup name) := rfl

variable [JsonForm α] [Lossless α] {a : α}

theorem reads_lift : Reads (StateT.lift (ofJson? (toJson a))) members a := by
  rw [ofJson?_toJson]
  rfl

/-- A field that has to be there. -/
theorem Reads.field (h : members.lookup name = some (toJson a)) :
    Reads (field name) members a := by
  refine reads_next?.bind ?_
  rw [h]
  exact reads_lift

/-- A field that is left out if it has its default. -/
theorem Reads.fieldOr {default : α}
    (h : members.lookup name = some (toJson a) ∨ members.lookup name = none ∧ default = a) :
    Reads (fieldOr name default) members a := by
  refine reads_next?.bind ?_
  rcases h with h | ⟨h, rfl⟩ <;> rw [h]
  · exact reads_lift
  · rfl

/-- A field that is left out if it is absent. -/
theorem Reads.present [NeverNull α] {o : Option α} (h : members.lookup name = o.map toJson) :
    Reads (JsonForm.fieldOr name none) members o := by
  refine .fieldOr ?_
  cases o with
  | none => exact .inr ⟨h, rfl⟩
  | some a => exact .inl h

omit [Lossless α] in
theorem lookup_present {value : Option α} :
    (present name value).lookup other = if other = name then value.map toJson else none := by
  cases value with
  | none => split <;> rfl
  | some a => exact Json.lookup_cons

omit [Lossless α] in
theorem names_present (name : String) (value : Option α) :
    ((present name value).map (·.1)).Sublist [name] := by
  cases value with
  | none => exact List.nil_sublist _
  | some a => exact .refl _

omit [JsonForm α] [Lossless α] in
/-- **A record is read back from its members**, however an object orders them, if their names
differ. -/
theorem record?_ofMembers {reader : RecordReader α} (hnames : (members.map (·.1)).Nodup)
    (h : ∀ stored : Json.Members, (∀ name, stored.lookup name = members.lookup name) →
      Reads reader stored a) : record? reader (.ofMembers members) = some a := by
  have hstored := h _ fun name =>
    (Json.lookup_foldl_insertMember [] hnames).trans (Option.or_none ..)
  rw [Json.ofMembers, record?, hstored]
  rfl

end Readers

/-! ## Records -/

instance : Lossless SchemaRecord where
  ofJson?_toJson r := by
    refine record?_ofMembers (by simp) fun stored hstored => ?_
    refine .bind (.field (a := r.schemaId) ?_) <| .bind (.field (a := r.version) ?_) <|
      .bind (.field (a := r.definition) ?_) <| .bind (.field (a := r.tableName) ?_) <|
      .bind (.field (a := r.slug) ?_) <| .bind (.field (a := r.category) ?_) <|
      .bind (.field (a := r.createdAt) ?_) <| .bind (.field (a := r.active) ?_) <|
      .bind (.field (a := r.deleted) ?_) <| .pure r
    all_goals simp [hstored, Json.lookup_cons]
    rfl

instance : Lossless SchemaDraft where
  ofJson?_toJson d := by
    refine record?_ofMembers (by simp) fun stored hstored => ?_
    refine .bind (.fieldOr (a := d.schemaId) (.inl ?_)) <|
      .bind (.fieldOr (a := d.version) (.inl ?_)) <| .bind (.field (a := d.definition) ?_) <|
      .bind (.field (a := d.tableName) ?_) <| .bind (.field (a := d.slug) ?_) <|
      .bind (.field (a := d.category) ?_) <| .pure d
    all_goals simp [hstored, Json.lookup_cons]
    rfl

instance : Lossless ListOptions where
  ofJson?_toJson o := by
    refine record?_ofMembers (by simp) fun stored hstored => ?_
    refine .bind (.fieldOr (a := o.page) (.inl ?_)) <|
      .bind (.fieldOr (a := o.pageSize) (.inl ?_)) <|
      .bind (.fieldOr (a := o.sortColumn) (.inl ?_)) <|
      .bind (.fieldOr (a := o.sortOrder) (.inl ?_)) <|
      .bind (.fieldOr (a := o.includeDeleted) (.inl ?_)) <| .pure o
    all_goals simp [hstored, Json.lookup_cons]

instance : Lossless EntityRecord where
  ofJson?_toJson e := by
    refine record?_ofMembers ?_ fun stored hstored => ?_
    · have hnames : (["entityId", "tableName", "payload", "entitySchemaId", "entitySchemaVersion",
          "createdAt", "updatedAt"] ++ ["deletedAt"] ++ ["isDeleted"] ++ ["createdBy"] ++
          ["updatedBy"]).Nodup := by decide
      refine hnames.sublist ?_
      simp only [List.map_append]
      exact ((((List.Sublist.refl _).append (names_present _ _)).append (.refl _)).append
        (names_present _ _)).append (names_present _ _)
    · refine .bind (.field (a := e.id) ?_) <| .bind (.field (a := e.tableName) ?_) <|
        .bind (.field (a := e.payload) ?_) <| .bind (.field (a := e.schemaId) ?_) <|
        .bind (.field (a := e.schemaVersion) ?_) <| .bind (.field (a := e.createdAt) ?_) <|
        .bind (.field (a := e.updatedAt) ?_) <| .bind (.present (o := e.deletedAt) ?_) <|
        .bind (.field (a := e.deleted) ?_) <| .bind (.present (o := e.createdBy) ?_) <|
        .bind (.present (o := e.updatedBy) ?_) <| .pure e
      all_goals simp [hstored, List.lookup_append, Json.lookup_cons, lookup_present]
      rfl

instance : Lossless EntityPage where
  ofJson?_toJson p := by
    refine record?_ofMembers (by simp) fun stored hstored => ?_
    refine .bind (.field (a := p.records) ?_) <| .bind (.field (a := p.total) ?_) <|
      .bind (.field (a := p.page) ?_) <| .bind (.field (a := p.pageSize) ?_) <| .pure p
    all_goals simp [hstored, Json.lookup_cons]

/-! ## What it says -/

/-- Whether every value of a type is read back from the document as which it is written, and no two
values are written as one document. -/
def RoundTrips (α : Type) [JsonForm α] : Prop :=
  (∀ a : α, ofJson? (toJson a) = some a) ∧ Function.Injective (toJson : α → Json)

theorem roundTrips (α : Type) [JsonForm α] [Lossless α] : RoundTrips α :=
  ⟨ofJson?_toJson, toJson_injective⟩

/-- **The JSON forms lose nothing.** Every schema version, entity, page, draft, listing request,
version number, identifier and report of failing fields is read back from the document as which it
is written, whatever documents, texts and numbers are in it and whichever of its optional parts are
absent, and so no two of them are written as one document. Categories are named by texts. -/
theorem wire_lossless :
    RoundTrips SchemaRecord ∧ RoundTrips EntityRecord ∧ RoundTrips EntityPage ∧
      RoundTrips SchemaDraft ∧ RoundTrips ListOptions ∧ RoundTrips Version ∧
      RoundTrips SchemaId ∧ RoundTrips EntityId ∧ RoundTrips String ∧ RoundTrips FieldErrors :=
  ⟨roundTrips _, roundTrips _, roundTrips _, roundTrips _, roundTrips _, roundTrips _,
    roundTrips _, roundTrips _, roundTrips _, roundTrips _⟩

end JsonForm

end SchemaVault
