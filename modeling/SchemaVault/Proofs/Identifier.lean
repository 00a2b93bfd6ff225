import SchemaVault.Identifier
import SchemaVault.Proofs.Text
import Mathlib.Data.Nat.ModEq

/-!
# Identifiers that are written and read again

The text of an identifier reads as the identifier (`read?_text`). Its digits write its number
(`hexNumber?_hexDigits`), and the hyphens cut them into the groups that reading asks for, since no
digit is a hyphen. None of the other forms is tried in vain: the text begins with a digit in lower
case, so neither with a brace nor with the letters of `urn:uuid:`, and it has more than 32
characters.
-/

namespace SchemaVault.Identifier

variable {c : Char} {count n : Nat}

/-! ## Digits -/

theorem hexDigit?_digitChar : ∀ d < 16, Text.hexDigit? (Nat.digitChar d) = some d := by
  decide

theorem length_hexDigits (count n : Nat) : (hexDigits count n).length = count := by
  induction count generalizing n with
  | zero => rfl
  | succ count ih => rw [hexDigits, List.length_append, ih, List.length_singleton]

/-- **The digits of a number write the number**, as far as there are enough of them. -/
theorem hexNumber?_hexDigits (count n : Nat) :
    Text.hexNumber? (hexDigits count n) = some (n % 16 ^ count) := by
  induction count generalizing n with
  | zero => simp [hexDigits, Text.hexNumber?, Nat.mod_one]
  | succ count ih =>
    have hlast : Text.hexDigit? (Nat.digitChar (n % 16)) = some (n % 16) :=
      hexDigit?_digitChar _ (Nat.mod_lt _ (by decide))
    have hfirst := ih (n / 16)
    rw [Text.hexNumber?] at hfirst
    rw [hexDigits, Text.hexNumber?, List.foldlM_append, hfirst, Nat.pow_succ', Nat.mod_mul]
    simp [hlast, Nat.add_comm]

/-- A digit is neither a hyphen nor a capital, nor a letter beyond `f`. -/
theorem digitChar_facts : ∀ d < 16,
    Nat.digitChar d ≠ '-' ∧ Nat.digitChar d ≠ '\x7b' ∧ (Nat.digitChar d).toLower ≠ 'u' := by
  decide

theorem exists_digit (h : c ∈ hexDigits count n) : ∃ d < 16, c = Nat.digitChar d := by
  induction count generalizing n with
  | zero => cases h
  | succ count ih =>
    rw [hexDigits, List.mem_append, List.mem_singleton] at h
    rcases h with h | rfl
    · exact ih h
    · exact ⟨n % 16, Nat.mod_lt _ (by decide), rfl⟩

theorem ne_hyphen_of_mem (h : c ∈ hexDigits count n) : c ≠ '-' := by
  obtain ⟨d, hd, rfl⟩ := exists_digit h
  exact (digitChar_facts d hd).1

/-! ## Groups -/

variable (id : Identifier)

theorem ofDigits?_hexDigits : ofDigits? (hexDigits 32 id.value) = some id := by
  have hlt : id.value < 16 ^ 32 := id.lt
  rw [ofDigits?, if_pos (length_hexDigits ..), hexNumber?_hexDigits, Nat.mod_eq_of_lt hlt,
    Option.bind_some, dif_pos id.lt]

/-- Digits with hyphens between their groups. -/
def hyphenated {α : Type} (hyphen : α) (ds : List α) : List α :=
  ds.take 8 ++ hyphen :: ((ds.drop 8).take 4 ++ hyphen :: ((ds.drop 12).take 4 ++
    hyphen :: ((ds.drop 16).take 4 ++ hyphen :: ds.drop 20)))

theorem chars_eq : id.chars = hyphenated '-' (hexDigits 32 id.value) := by
  simp [chars, hyphenated]

/-- The hyphens stand between the groups, and nowhere else. -/
theorem pieces_chars :
    let ds := hexDigits 32 id.value
    Text.pieces '-' id.chars =
      [ds.take 8, (ds.drop 8).take 4, (ds.drop 12).take 4, (ds.drop 16).take 4, ds.drop 20] := by
  intro ds
  have hgroup : ∀ i j, '-' ∉ (ds.drop i).take j := fun i j h =>
    ne_hyphen_of_mem (List.mem_of_mem_drop (List.mem_of_mem_take h)) rfl
  rw [chars_eq, hyphenated, Text.pieces_append (show '-' ∉ ds.take 8 from hgroup 0 8),
    Text.pieces_append (hgroup 8 4), Text.pieces_append (hgroup 12 4),
    Text.pieces_append (hgroup 16 4), Text.pieces_of_notMem]
  exact fun h => ne_hyphen_of_mem (List.mem_of_mem_drop h) rfl

theorem ofGroups?_chars : ofGroups? id.chars = some id := by
  have hlength := length_hexDigits 32 id.value
  have hdigits := id.ofDigits?_hexDigits
  rw [ofGroups?, pieces_chars]
  generalize hexDigits 32 id.value = ds at hlength hdigits
  have hjoined : ds.take 8 ++ (ds.drop 8).take 4 ++ (ds.drop 12).take 4 ++ (ds.drop 16).take 4 ++
      ds.drop 20 = ds := by
    rw [← List.take_add, ← List.take_add, ← List.take_add, List.take_append_drop]
  dsimp only
  rw [hjoined, hdigits, if_pos]
  simp only [List.length_take, List.length_drop, hlength]
  decide

/-! ## Texts -/

theorem head?_chars : ∃ d < 16, id.chars.head? = some (Nat.digitChar d) := by
  have hlength := length_hexDigits 32 id.value
  obtain ⟨c, ds, hds⟩ := List.exists_cons_of_length_pos (l := hexDigits 32 id.value) (by omega)
  obtain ⟨d, hd, rfl⟩ := exists_digit (hds ▸ List.mem_cons_self : c ∈ hexDigits 32 id.value)
  exact ⟨d, hd, by rw [chars, hds]; rfl⟩

/-- **The text of an identifier reads as the identifier.** -/
theorem read?_text : read? id.text = some id := by
  obtain ⟨d, hd, hhead⟩ := id.head?_chars
  obtain ⟨rest, hchars⟩ := List.head?_eq_some_iff.1 hhead
  obtain ⟨-, hbrace, hlead⟩ := digitChar_facts d hd
  have hlong : id.chars.length ≠ 32 := by
    simp [chars, length_hexDigits]
  have hgroups := id.ofGroups?_chars
  unfold read?
  rw [text, String.toList_ofList]
  dsimp only
  split
  · rename_i inner h
    rw [hchars] at h
    exact absurd (List.cons.inj h).1 hbrace
  · rw [if_neg, ofDigits?, if_neg hlong, Option.none_or, hgroups]
    intro h
    rw [hchars] at h
    exact hlead (List.cons.inj h).1

end SchemaVault.Identifier

namespace SchemaVault

theorem SchemaId.read?_text (id : SchemaId) : SchemaId.read? id.text = some id := by
  rw [read?, text, id.id.read?_text]
  rfl

theorem EntityId.read?_text (id : EntityId) : EntityId.read? id.text = some id := by
  rw [read?, text, id.id.read?_text]
  rfl

end SchemaVault
