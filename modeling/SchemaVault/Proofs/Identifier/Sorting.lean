import SchemaVault.Proofs.Entities.Order
import SchemaVault.Proofs.Identifier.Order

/-!
# Sorting by the texts of identifiers

What is stored of an identifier is its text, so a listing that is ordered by identifiers, or breaks
its ties by them, goes by the bytes of texts. Since these are ordered as the identifiers are, it
comes out as if it went by the identifiers (`sorted_by_text`), and in the same order as what is
sorted after it has been read.
-/

namespace SchemaVault

/-- The comparison of stored texts. -/
def Text.compareBytes (a b : String) : Ordering := compare (Text.bytes a) (Text.bytes b)

variable {Document : Type}

/-! ## Listings of entities -/

/-- A comparison in the given direction. -/
def SortOrder.direct (o : SortOrder) (c : Ordering) : Ordering :=
  match o with
  | .ascending => c
  | .descending => c.swap

theorem SortOrder.compare_eq (o : SortOrder) (a b : SortValue × EntityRow) :
    o.compare a b = o.direct ((a.1.compare b.1).then (Ord.compare a.2.id b.2.id)) := by
  have hid : Ord.compare a.2.id.id.value b.2.id.id.value = Ord.compare a.2.id b.2.id :=
    (Identifier.compare_eq a.2.id.id b.2.id.id).symm
  rw [← hid]
  cases o <;> rfl

namespace SortKey

/-- The entities in the order of a key, with ties broken by some comparison. -/
def sortedWith (tie : EntityRow → EntityRow → Ordering) (key : SortKey) (o : SortOrder)
    (rows : List EntityRow) : Except StorageError (List EntityRow) := do
  let keyed ← rows.mapM fun e => do return (← key.valueOf e, e)
  return (keyed.mergeSort fun a b =>
    (o.direct ((a.1.compare b.1).then (tie a.2 b.2))).isLE).map (·.2)

theorem sorted_eq_sortedWith (key : SortKey) (o : SortOrder) (rows : List EntityRow) :
    key.sorted o rows = key.sortedWith (fun a b => compare a.id b.id) o rows := by
  simp only [sorted, sortedWith, SortOrder.compare_eq]

/-- By its text, an entity has the place that its identifier has. -/
theorem compare_ofChars (a b : EntityId) :
    (SortValue.ofChars a.text.toList).compare (SortValue.ofChars b.text.toList) = compare a b := by
  change compare (a.id.text.toList.map Char.toNat) (b.id.text.toList.map Char.toNat) = _
  rw [Identifier.text, Identifier.text, String.toList_ofList, String.toList_ofList,
    Identifier.compare_chars rfl (by decide), ← Identifier.compare_eq]
  rfl

/-- A listing by identifiers is the list sorted by identifiers. -/
theorem sorted_entityId (o : SortOrder) (rows : List EntityRow) :
    entityId.sorted o rows =
      .ok (rows.mergeSort fun a b => (o.direct (compare a.id b.id)).isLE) := by
  let keyed (e : EntityRow) : SortValue × EntityRow := (.ofChars e.id.text.toList, e)
  have hkeyed : (rows.mapM fun e => do return (← entityId.valueOf e, e)) =
      (.ok (rows.map keyed) : Except StorageError (List (SortValue × EntityRow))) :=
    List.mapM_pure
  have hle : ∀ a ∈ rows, ∀ b ∈ rows, (o.direct (compare a.id b.id)).isLE =
      (o.compare (keyed a) (keyed b)).isLE := by
    intro a _ b _
    rw [SortOrder.compare_eq, compare_ofChars, Ordering.then_self]
  rw [sorted, hkeyed]
  change Except.ok (((rows.map keyed).mergeSort fun a b => (o.compare a b).isLE).map (·.2)) = _
  rw [← List.map_mergeSort hle, List.map_map]
  exact congrArg _ (List.map_id _)

end SortKey

/-! ## Listings of versions -/

/-- Whether `a` comes before `b`, or beside it, where the versions of schemas with equal tables and
numbers are compared in some way. -/
def SchemaVersion.byTableWith (tie : SchemaId → SchemaId → Ordering)
    (a b : SchemaVersion Document) : Bool :=
  ((compare a.tableName b.tableName).then
    ((a.version.compare b.version).then (tie a.schemaId b.schemaId))).isLE

theorem SchemaVersion.byTable_eq (a b : SchemaVersion Document) :
    a.byTable b = a.byTableWith compare b := by
  have hid : compare a.schemaId.id.value b.schemaId.id.value = compare a.schemaId b.schemaId :=
    (Identifier.compare_eq a.schemaId.id b.schemaId.id).symm
  rw [byTable, hid]
  rfl

/-! ## Both -/

/-- Whether texts stand for what they name: byte by byte they are ordered as what they name, which
is read from them. -/
structure OrderedByText {α : Type} [LT α] (text : α → String) (read? : String → Option α) : Prop where
  lt_iff : ∀ a b, a < b ↔ Text.bytes (text a) < Text.bytes (text b)
  read?_text : ∀ a, read? (text a) = some a

/-- **The order of texts is the order of identifiers.** The text of an identifier reads as the
identifier, and of two identifiers the one that is less, octet by octet, has the text that is less,
byte by byte. So a listing that is ordered by the stored texts of identifiers, or goes by them where
its values are equal, is ordered by the identifiers, in either direction, and agrees with the order
in which the versions of schemas are sorted after they have been read. -/
theorem sorted_by_text :
    OrderedByText SchemaId.text SchemaId.read? ∧ OrderedByText EntityId.text EntityId.read? ∧
    (∀ (o : SortOrder) (rows : List EntityRow),
      SortKey.entityId.sorted o rows =
          .ok (rows.mergeSort fun a b => (o.direct (compare a.id b.id)).isLE) ∧
        SortKey.entityId.sorted o rows =
          .ok (rows.mergeSort fun a b => (o.direct (Text.compareBytes a.id.text b.id.text)).isLE)) ∧
    (∀ (key : SortKey) (o : SortOrder) (rows : List EntityRow),
      key.sorted o rows = key.sortedWith (fun a b => compare a.id b.id) o rows ∧
        key.sorted o rows =
          key.sortedWith (fun a b => Text.compareBytes a.id.text b.id.text) o rows) ∧
    ∀ (Document : Type) (records : List (SchemaVersion Document)),
      records.mergeSort SchemaVersion.byTable =
          records.mergeSort (SchemaVersion.byTableWith compare) ∧
        records.mergeSort SchemaVersion.byTable =
          records.mergeSort
            (SchemaVersion.byTableWith fun a b => Text.compareBytes a.text b.text) := by
  have hentity : ∀ a b : EntityId, Text.compareBytes a.text b.text = compare a b :=
    EntityId.compare_bytes
  have hschema : ∀ a b : SchemaId, Text.compareBytes a.text b.text = compare a b :=
    SchemaId.compare_bytes
  refine ⟨⟨fun _ _ => SchemaId.lt_iff, SchemaId.read?_text⟩,
    ⟨fun _ _ => EntityId.lt_iff, EntityId.read?_text⟩, fun o rows => ?_, fun key o rows => ?_,
    fun Document records => ?_⟩
  · simp only [hentity]
    exact ⟨SortKey.sorted_entityId o rows, SortKey.sorted_entityId o rows⟩
  · simp only [hentity]
    exact ⟨key.sorted_eq_sortedWith o rows, key.sorted_eq_sortedWith o rows⟩
  · have hcompare : (SchemaVersion.byTable : SchemaVersion Document → _ → Bool) =
        SchemaVersion.byTableWith compare :=
      funext fun a => funext fun b => a.byTable_eq b
    simp only [hschema, hcompare, and_self]

end SchemaVault
