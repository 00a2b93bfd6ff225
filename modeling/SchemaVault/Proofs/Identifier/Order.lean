import SchemaVault.Proofs.Identifier

/-!
# The order of identifiers

Identifiers are ordered octet by octet, and texts byte by byte. Both orders are the one of the
numbers: digits of a fixed width are ordered as the number that they write, whatever the base
(`compare_digits`), and hyphens that stand at the same places in all texts do not matter
(`compare_hyphenated`). So an identifier is less than another exactly if its text is
(`SchemaId.lt_iff`, `EntityId.lt_iff`).
-/

namespace SchemaVault

/-- The bytes of a text. -/
def Text.bytes (s : String) : List UInt8 := s.toUTF8.data.toList

/-! ## Lists -/

section Lists

variable {α β : Type} [Ord α] [Ord β]

theorem compare_append : ∀ {as bs : List α} (cs ds : List α), as.length = bs.length →
    compare (as ++ cs) (bs ++ ds) = (compare as bs).then (compare cs ds)
  | [], [], _, _, _ => rfl
  | a :: as, b :: bs, cs, ds, h => by
    rw [List.cons_append, List.cons_append, List.compare_cons_cons, List.compare_cons_cons,
      compare_append cs ds (Nat.succ.inj h), Ordering.then_assoc]

/-- Lists are compared as their images are, if their members are. -/
theorem compare_map {f : α → β} : ∀ {as bs : List α},
    (∀ a ∈ as, ∀ b ∈ bs, compare (f a) (f b) = compare a b) →
    compare (as.map f) (bs.map f) = compare as bs
  | [], [], _ => rfl
  | [], _ :: _, _ => rfl
  | _ :: _, [], _ => rfl
  | a :: as, b :: bs, h => by
    have hrest : compare (as.map f) (bs.map f) = compare as bs := compare_map fun x hx y hy =>
      h x (List.mem_cons_of_mem a hx) y (List.mem_cons_of_mem b hy)
    rw [List.map_cons, List.map_cons, List.compare_cons_cons, List.compare_cons_cons, hrest,
      h a List.mem_cons_self b List.mem_cons_self]

/-- The comparison of lists is the one behind their order. -/
theorem compare_eq_lt_iff [LT α] [Std.LawfulLTOrd α] [Std.LawfulEqOrd α] :
    ∀ {as bs : List α}, compare as bs = .lt ↔ as < bs
  | [], [] => by simp
  | [], _ :: _ => iff_of_true rfl (List.nil_lt_cons ..)
  | _ :: _, [] => iff_of_false (fun h => by cases h) (List.not_lt_nil _)
  | a :: as, b :: bs => by
    rw [List.compare_cons_cons, Ordering.then_eq_lt, List.cons_lt_cons_iff, compare_eq_lt_iff,
      Std.LawfulLTCmp.eq_lt_iff_lt, Std.LawfulEqCmp.compare_eq_iff_eq]

end Lists

namespace Identifier

/-! ## Digits -/

/-- The last `count` digits of `n`, the highest one first. -/
def digits (base : Nat) : (count : Nat) → (n : Nat) → List Nat
  | 0, _ => []
  | count + 1, n => digits base count (n / base) ++ [n % base]

variable {base count m n : Nat}

theorem length_digits (base count n : Nat) : (digits base count n).length = count := by
  induction count generalizing n with
  | zero => rfl
  | succ count ih => rw [digits, List.length_append, ih, List.length_singleton]

theorem lt_of_mem_digits {d : Nat} (hbase : 0 < base) (h : d ∈ digits base count n) : d < base := by
  induction count generalizing n with
  | zero => cases h
  | succ count ih =>
    rcases List.mem_append.1 h with h | h
    · exact ih h
    · obtain rfl := List.mem_singleton.1 h
      exact Nat.mod_lt _ hbase

theorem hexDigits_eq (count n : Nat) : hexDigits count n = (digits 16 count n).map Nat.digitChar := by
  induction count generalizing n with
  | zero => rfl
  | succ count ih => rw [hexDigits, digits, ih, List.map_append, List.map_singleton]

/-- The last digit decides only if the others are equal. -/
theorem compare_div_mod (base m n : Nat) :
    (compare (m / base) (n / base)).then (compare (m % base) (n % base)) = compare m n := by
  have hm := Nat.div_add_mod m base
  have hn := Nat.div_add_mod n base
  rcases Nat.lt_trichotomy (m / base) (n / base) with h | h | h
  · have hlt : m < n := Nat.lt_of_div_lt_div h
    rw [Nat.compare_eq_lt.2 h, Nat.compare_eq_lt.2 hlt]
    rfl
  · rw [h, Nat.compare_eq_eq.2 rfl, Ordering.then]
    rw [h] at hm
    simp only [Nat.compare_eq_ite_lt]
    split_ifs <;> first | rfl | omega
  · have hlt : n < m := Nat.lt_of_div_lt_div h
    rw [Nat.compare_eq_gt.2 h, Nat.compare_eq_gt.2 hlt]
    rfl

/-- **Numbers of a fixed width are ordered as their digits are**, the highest ones first. -/
theorem compare_digits (base : Nat) (hm : m < base ^ count) (hn : n < base ^ count) :
    compare (digits base count m) (digits base count n) = compare m n := by
  induction count generalizing m n with
  | zero =>
    rw [Nat.pow_zero, Nat.lt_one_iff] at hm hn
    rw [hm, hn]
    rfl
  | succ count ih =>
    rw [Nat.pow_succ'] at hm hn
    rw [digits, digits, compare_append _ _ (by rw [length_digits, length_digits]),
      ih (Nat.div_lt_of_lt_mul hm) (Nat.div_lt_of_lt_mul hn), List.compare_cons_cons,
      ← compare_div_mod base m n]
    exact congrArg _ Ordering.then_eq

/-! ## Octets -/

/-- The octets of an identifier, the highest one first. -/
def octets (id : Identifier) : List UInt8 := (digits 256 16 id.value).map UInt8.ofNat

/-- Identifiers are compared octet by octet. -/
instance : Ord Identifier := ⟨fun a b => compare a.octets b.octets⟩

theorem compare_ofNat (hm : m < 256) (hn : n < 256) :
    compare (UInt8.ofNat m) (UInt8.ofNat n) = compare m n := by
  rw [UInt8.compare_eq_toNat_compare_toNat, UInt8.toNat_ofNat_of_lt' hm,
    UInt8.toNat_ofNat_of_lt' hn]

/-- The order of identifiers is the one of their numbers. -/
theorem compare_eq (a b : Identifier) : compare a b = compare a.value b.value := by
  change compare a.octets b.octets = _
  rw [octets, octets, compare_map, compare_digits 256 a.lt b.lt]
  exact fun d hd e he => compare_ofNat (lt_of_mem_digits (by decide) hd)
    (lt_of_mem_digits (by decide) he)

/-! ## Texts -/

theorem map_hyphenated {α β : Type} (f : α → β) (hyphen : α) (ds : List α) :
    (hyphenated hyphen ds).map f = hyphenated (f hyphen) (ds.map f) := by
  simp [hyphenated, List.map_take, List.map_drop]

theorem mem_hyphenated {α : Type} {x hyphen : α} {ds : List α} (h : x ∈ hyphenated hyphen ds) :
    x = hyphen ∨ x ∈ ds := by
  have hgroup : ∀ i j, x ∈ (ds.drop i).take j → x ∈ ds := fun i j h =>
    List.mem_of_mem_drop (List.mem_of_mem_take h)
  simp only [hyphenated, List.mem_append, List.mem_cons] at h
  rcases h with h | rfl | h | rfl | h | rfl | h | rfl | h
  · exact .inr (List.mem_of_mem_take h)
  · exact .inl rfl
  · exact .inr (hgroup 8 4 h)
  · exact .inl rfl
  · exact .inr (hgroup 12 4 h)
  · exact .inl rfl
  · exact .inr (hgroup 16 4 h)
  · exact .inl rfl
  · exact .inr (List.mem_of_mem_drop h)

/-- A hyphen between two groups does not matter. -/
theorem compare_take_hyphen {α : Type} [Ord α] {hyphen : α} {ds es cs bs : List α} {k : Nat}
    (hhyphen : compare hyphen hyphen = .eq) (hlength : ds.length = es.length)
    (hrest : compare cs bs = compare (ds.drop k) (es.drop k)) :
    compare (ds.take k ++ hyphen :: cs) (es.take k ++ hyphen :: bs) = compare ds es := by
  have htake : (ds.take k).length = (es.take k).length := by
    rw [List.length_take, List.length_take, hlength]
  rw [compare_append _ _ htake, List.compare_cons_cons, hhyphen, Ordering.eq_then, hrest,
    ← compare_append _ _ htake, List.take_append_drop, List.take_append_drop]

theorem compare_hyphenated {α : Type} [Ord α] {hyphen : α} {ds es : List α}
    (hhyphen : compare hyphen hyphen = .eq) (hlength : ds.length = es.length) :
    compare (hyphenated hyphen ds) (hyphenated hyphen es) = compare ds es := by
  have hdrop : ∀ k, (ds.drop k).length = (es.drop k).length := fun k => by
    rw [List.length_drop, List.length_drop, hlength]
  refine compare_take_hyphen hhyphen hlength (compare_take_hyphen hhyphen (hdrop 8) ?_)
  rw [List.drop_drop, List.drop_drop]
  refine compare_take_hyphen hhyphen (hdrop 12) ?_
  rw [List.drop_drop, List.drop_drop]
  refine compare_take_hyphen hhyphen (hdrop 16) ?_
  rw [List.drop_drop, List.drop_drop]

/-- **Texts of identifiers are ordered as the numbers are**, by whatever orders the digits. -/
theorem compare_chars {α : Type} [Ord α] {f : Char → α}
    (hhyphen : compare (f '-') (f '-') = .eq)
    (hdigits : ∀ d < 16, ∀ e < 16,
      compare (f (Nat.digitChar d)) (f (Nat.digitChar e)) = compare d e) (a b : Identifier) :
    compare (a.chars.map f) (b.chars.map f) = compare a.value b.value := by
  rw [chars_eq, chars_eq, map_hyphenated, map_hyphenated,
    compare_hyphenated hhyphen (by simp [length_hexDigits]), hexDigits_eq, hexDigits_eq,
    List.map_map, List.map_map, compare_map, compare_digits 16 a.lt b.lt]
  exact fun d hd e he => hdigits d (lt_of_mem_digits (by decide) hd) e
    (lt_of_mem_digits (by decide) he)

/-- The text of an identifier has one byte for each of its characters. -/
theorem bytes_text (id : Identifier) :
    Text.bytes id.text = id.chars.map fun c => c.val.toUInt8 := by
  have hsingle : ∀ c ∈ id.chars, String.utf8EncodeChar c = [c.val.toUInt8] := by
    intro c hc
    refine String.utf8EncodeChar_eq_singleton ?_
    rw [chars_eq] at hc
    rcases mem_hyphenated hc with rfl | hdigit
    · rfl
    · obtain ⟨d, hd, rfl⟩ := exists_digit hdigit
      exact (by decide : ∀ d < 16, (Nat.digitChar d).utf8Size = 1) d hd
  have hbytes : Text.bytes id.text = id.chars.flatMap String.utf8EncodeChar := by
    rw [Text.bytes, text, String.toUTF8, String.toByteArray_ofList, List.utf8Encode,
      List.toList_data_toByteArray]
  rw [hbytes, List.flatMap_congr hsingle, List.map_eq_flatMap]

/-- **The order of texts is the order of identifiers.** -/
theorem compare_bytes (a b : Identifier) :
    compare (Text.bytes a.text) (Text.bytes b.text) = compare a b := by
  rw [bytes_text, bytes_text, compare_chars rfl (by decide), compare_eq]

end Identifier

/-! ## Schemas and entities -/

instance : LT Identifier := ltOfOrd

/-- Schemas are compared by their identifiers. -/
instance : Ord SchemaId := ⟨fun a b => compare a.id b.id⟩

instance : LT SchemaId := ltOfOrd

/-- Entities are compared by their identifiers. -/
instance : Ord EntityId := ⟨fun a b => compare a.id b.id⟩

instance : LT EntityId := ltOfOrd

theorem SchemaId.compare_bytes (a b : SchemaId) :
    compare (Text.bytes a.text) (Text.bytes b.text) = compare a b :=
  Identifier.compare_bytes a.id b.id

theorem EntityId.compare_bytes (a b : EntityId) :
    compare (Text.bytes a.text) (Text.bytes b.text) = compare a b :=
  Identifier.compare_bytes a.id b.id

/-- A schema is less than another exactly if its text is. -/
theorem SchemaId.lt_iff {a b : SchemaId} : a < b ↔ Text.bytes a.text < Text.bytes b.text := by
  rw [← compare_eq_lt_iff, compare_bytes]
  rfl

/-- An entity is less than another exactly if its text is. -/
theorem EntityId.lt_iff {a b : EntityId} : a < b ↔ Text.bytes a.text < Text.bytes b.text := by
  rw [← compare_eq_lt_iff, compare_bytes]
  rfl

end SchemaVault
