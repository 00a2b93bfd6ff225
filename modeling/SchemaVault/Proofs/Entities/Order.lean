import SchemaVault.Entities.SortValue
import SchemaVault.Proofs.Schemas.Lookup
import Mathlib.Data.List.Basic

/-!
# The order of a listing

The values of a key are totally ordered, and entities with equal values are told apart by their
identifiers. So the entities of a list come in one ascending order only, whatever their order was
(`SortKey.sorted_eq`), and descending order is the reverse of it.
-/

namespace SchemaVault

/-! ## Values -/

instance : Std.LawfulEqCmp SortValue.compare where
  compare_self {a} := by cases a <;> simp [SortValue.compare]
  eq_of_compare {a b} h := by
    cases a <;> cases b <;> simp_all [SortValue.compare]

instance : Std.TransCmp SortValue.compare where
  eq_swap {a b} := by
    cases a <;> cases b <;> simp [SortValue.compare, ← Std.OrientedOrd.eq_swap]
  isLE_trans {a b c} hab hbc := by
    cases a <;> cases b <;> cases c
    case number.number.number | text.text.text => exact Std.TransOrd.isLE_trans hab hbc
    all_goals first | rfl | (cases hab; done) | cases hbc

/-! ## Entities with their values -/

theorem EntityId.value_inj {i j : EntityId} : i.id.value = j.id.value ↔ i = j := by
  obtain ⟨⟨m, hm⟩⟩ := i
  obtain ⟨⟨n, hn⟩⟩ := j
  simp

namespace SortOrder

/-- The entities of a list in ascending order, put into the given order. -/
def arrange {α : Type} : SortOrder → List α → List α
  | ascending, l => l
  | descending, l => l.reverse

theorem arrange_perm {α : Type} (o : SortOrder) (l : List α) : (o.arrange l).Perm l :=
  match o with
  | ascending => .refl l
  | descending => l.reverse_perm

theorem arrange_arrange {α : Type} (o : SortOrder) (l : List α) : o.arrange (o.arrange l) = l :=
  match o with
  | ascending => rfl
  | descending => l.reverse_reverse

theorem arrange_map {α β : Type} (o : SortOrder) (f : α → β) (l : List α) :
    o.arrange (l.map f) = (o.arrange l).map f :=
  match o with
  | ascending => rfl
  | descending => List.map_reverse.symm

instance : Std.TransCmp fun a b : SortValue × EntityRow => a.1.compare b.1 where
  eq_swap := Std.OrientedCmp.eq_swap
  isLE_trans := Std.TransCmp.isLE_trans

instance transCmp_ascending : Std.TransCmp ascending.compare :=
  inferInstanceAs <| Std.TransCmp <|
    compareLex (fun a b : SortValue × EntityRow => a.1.compare b.1)
      (compareOn fun a => a.2.id.id.value)

theorem compare_descending (a b : SortValue × EntityRow) :
    descending.compare a b = ascending.compare b a :=
  (@Std.OrientedCmp.eq_swap _ ascending.compare _ _ _).symm

instance (o : SortOrder) : Std.TransCmp o.compare :=
  match o with
  | ascending => transCmp_ascending
  | descending => by
    have h : descending.compare = fun a b => ascending.compare b a :=
      funext fun a => funext fun b => compare_descending a b
    rw [h]
    infer_instance

theorem compare_ascending_eq_lt {a b : SortValue × EntityRow} :
    ascending.compare a b = .lt ↔
      a.1.compare b.1 = .lt ∨ a.1 = b.1 ∧ a.2.id.id.value < b.2.id.id.value := by
  simp [compare, Ordering.then_eq_lt, Nat.compare_eq_lt]

end SortOrder

namespace SortKey

/-- Whether an entity comes before another in ascending order: its value is less, or the values are
equal and its identifier is less. -/
def Precedes (key : SortKey) (a b : EntityRow) : Prop :=
  ∃ x y, key.valueOf a = .ok x ∧ key.valueOf b = .ok y ∧
    (x.compare y = .lt ∨ x = y ∧ a.id.id.value < b.id.id.value)

theorem precedes_iff {key : SortKey} {a b : EntityRow} :
    key.Precedes a b ↔ ∃ x y, key.valueOf a = .ok x ∧ key.valueOf b = .ok y ∧
      SortOrder.ascending.compare (x, a) (y, b) = .lt := by
  simp only [Precedes, SortOrder.compare_ascending_eq_lt]

theorem Precedes.asymm {key : SortKey} {a b : EntityRow} (h : key.Precedes a b) :
    ¬key.Precedes b a := by
  obtain ⟨x, y, hx, hy, h⟩ := precedes_iff.1 h
  intro h'
  obtain ⟨y', x', hy', hx', h'⟩ := precedes_iff.1 h'
  obtain rfl := Except.ok.inj (hx.symm.trans hx')
  obtain rfl := Except.ok.inj (hy.symm.trans hy')
  rw [Std.OrientedCmp.gt_of_lt h] at h'
  cases h'

/-- A list has one ascending order at most. -/
theorem eq_of_precedes {key : SortKey} {l l' : List EntityRow} (h : l.Pairwise key.Precedes)
    (h' : l'.Pairwise key.Precedes) (hperm : l.Perm l') : l = l' :=
  hperm.eq_of_pairwise (fun _ _ _ _ hab hba => absurd hba hab.asymm) h h'

/-- The entities with their values, if they have them. -/
theorem exists_keyed {key : SortKey} {rows : List EntityRow}
    (h : ∀ e ∈ rows, ∃ x, key.valueOf e = .ok x) :
    ∃ keyed, (rows.mapM fun e => do return (← key.valueOf e, e)) = .ok keyed ∧
      keyed.map (·.2) = rows ∧ ∀ k ∈ keyed, key.valueOf k.2 = .ok k.1 := by
  induction rows with
  | nil => exact ⟨[], rfl, rfl, fun _ hk => nomatch hk⟩
  | cons e rows ih =>
    obtain ⟨x, hx⟩ := h e List.mem_cons_self
    obtain ⟨keyed, hkeyed, hmap, hvalues⟩ := ih fun e he => h e (List.mem_cons_of_mem _ he)
    refine ⟨(x, e) :: keyed, ?_, ?_, ?_⟩
    · rw [List.mapM_cons, hx, hkeyed]
      rfl
    · rw [List.map_cons, hmap]
    · exact List.forall_mem_cons.2 ⟨hx, hvalues⟩

/-- Sorting keeps the entities, whether or not their identifiers differ. -/
theorem sorted_perm {key : SortKey} {rows : List EntityRow}
    (hvalues : ∀ e ∈ rows, ∃ x, key.valueOf e = .ok x) (o : SortOrder) :
    ∃ sorted, key.sorted o rows = .ok sorted ∧ sorted.Perm rows := by
  obtain ⟨keyed, hkeyed, hmap, -⟩ := exists_keyed hvalues
  refine ⟨(keyed.mergeSort fun a b => (o.compare a b).isLE).map (·.2), ?_, ?_⟩
  · rw [sorted, hkeyed]
    rfl
  · rw [← hmap]
    exact (List.mergeSort_perm ..).map _

/-- What has been sorted has values. -/
theorem exists_valueOf_of_sorted {key : SortKey} {rows l : List EntityRow} {o : SortOrder}
    (h : key.sorted o rows = .ok l) : ∀ e ∈ rows, ∃ x, key.valueOf e = .ok x := by
  obtain ⟨keyed, hkeyed, -⟩ := Transaction.bind_eq_ok.1 h
  intro e he
  obtain ⟨k, -, hk⟩ := Transaction.forall₂_left_of_mem (Transaction.mapM_eq_ok.1 hkeyed) he
  obtain ⟨x, hx, -⟩ := Transaction.bind_eq_ok.1 hk
  exact ⟨x, hx⟩

/-- What has been sorted are the entities that were given. -/
theorem perm_of_sorted {key : SortKey} {rows l : List EntityRow} {o : SortOrder}
    (h : key.sorted o rows = .ok l) : l.Perm rows := by
  obtain ⟨l', hl', hperm⟩ := sorted_perm (exists_valueOf_of_sorted h) o
  obtain rfl := Except.ok.inj (h.symm.trans hl')
  exact hperm

theorem valueOf_eq_error {key : SortKey} {row : EntityRow} {e : StorageError}
    (h : key.valueOf row = .error e) : e = .malformedDocument := by
  cases key with
  | property name =>
    dsimp only [valueOf] at h
    split at h
    · cases h
    · exact (Except.error.inj h).symm
  | createdAt | updatedAt | entityId => cases h

/-- Sorting fails only for want of a value. -/
theorem sorted_eq_error {key : SortKey} {rows : List EntityRow} {o : SortOrder} {e : StorageError}
    (h : key.sorted o rows = .error e) : e = .malformedDocument := by
  rcases Transaction.bind_eq_error.1 h with h | ⟨keyed, -, h⟩
  · obtain ⟨row, -, h⟩ := Transaction.mapM_eq_error h
    rcases Transaction.bind_eq_error.1 h with h | ⟨x, -, h⟩
    · exact valueOf_eq_error h
    · cases h
  · cases h

theorem precedes_of_isLE {key : SortKey} {a b : SortValue × EntityRow}
    (ha : key.valueOf a.2 = .ok a.1) (hb : key.valueOf b.2 = .ok b.1) (hne : a.2.id ≠ b.2.id)
    (h : (SortOrder.ascending.compare a b).isLE) : key.Precedes a.2 b.2 := by
  refine ⟨a.1, b.1, ha, hb, SortOrder.compare_ascending_eq_lt.1 ?_⟩
  cases hab : SortOrder.ascending.compare a b with
  | lt => rfl
  | gt => simp [hab] at h
  | eq =>
    -- Equal entities would have equal identifiers.
    have hid := (Ordering.then_eq_eq.1 hab).2
    exact absurd (EntityId.value_inj.1 (Nat.compare_eq_eq.1 hid)) hne

/-- Sorting puts entities with different identifiers in strict order. -/
theorem exists_sorted {key : SortKey} {rows : List EntityRow}
    (hvalues : ∀ e ∈ rows, ∃ x, key.valueOf e = .ok x) (hids : (rows.map (·.id)).Nodup)
    (o : SortOrder) :
    ∃ sorted, key.sorted o rows = .ok sorted ∧ sorted.Perm rows ∧
      (o.arrange sorted).Pairwise key.Precedes := by
  obtain ⟨keyed, hkeyed, hmap, hvalues⟩ := exists_keyed hvalues
  let le (a b : SortValue × EntityRow) : Bool := (o.compare a b).isLE
  have hperm : (keyed.mergeSort le).Perm keyed := List.mergeSort_perm ..
  have hle : (keyed.mergeSort le).Pairwise fun a b => le a b := pairwise_mergeSort_isLE keyed
  have hne : (keyed.mergeSort le).Pairwise fun a b => a.2.id ≠ b.2.id := by
    rw [← hmap, List.map_map] at hids
    exact List.pairwise_map.1 ((hperm.map _).nodup_iff.2 hids)
  refine ⟨(keyed.mergeSort le).map (·.2), ?_, ?_, ?_⟩
  · rw [sorted, hkeyed]
    rfl
  · rw [← hmap]
    exact hperm.map _
  · have hvalue : ∀ {k}, k ∈ keyed.mergeSort le → key.valueOf k.2 = .ok k.1 := fun hk =>
      hvalues _ (hperm.subset hk)
    rw [SortOrder.arrange_map, List.pairwise_map]
    cases o with
    | ascending =>
      exact (hle.and hne).imp_of_mem fun ha hb h => precedes_of_isLE (hvalue ha) (hvalue hb) h.2 h.1
    | descending =>
      refine List.pairwise_reverse.2 ((hle.and hne).imp_of_mem fun ha hb h => ?_)
      exact precedes_of_isLE (hvalue hb) (hvalue ha) h.2.symm
        (SortOrder.compare_descending .. ▸ h.1)

/-- **There is one ascending order**, and every other order of the entities leads to it. -/
theorem sorted_eq {key : SortKey} {rows : List EntityRow}
    (hvalues : ∀ e ∈ rows, ∃ x, key.valueOf e = .ok x) (hids : (rows.map (·.id)).Nodup) :
    ∃ ascending, ascending.Perm rows ∧ ascending.Pairwise key.Precedes ∧
      ∀ o rows', rows'.Perm rows → key.sorted o rows' = .ok (o.arrange ascending) := by
  obtain ⟨ascending, -, hperm, hascending⟩ := exists_sorted hvalues hids .ascending
  refine ⟨ascending, hperm, hascending, fun o rows' hrows => ?_⟩
  obtain ⟨sorted, hsorted, hperm', hpairwise⟩ := exists_sorted
    (fun e he => hvalues e (hrows.subset he)) ((hrows.map _).nodup_iff.2 hids) o
  have hsame : o.arrange sorted = ascending := eq_of_precedes hpairwise hascending
    ((o.arrange_perm sorted).trans (hperm'.trans (hrows.trans hperm.symm)))
  rw [hsorted, ← hsame, o.arrange_arrange]

end SortKey

end SchemaVault
