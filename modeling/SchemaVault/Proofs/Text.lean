import SchemaVault.Number.Literal
import SchemaVault.Text.Blank
import SchemaVault.Text.Split
import Mathlib.Data.List.DropRight

/-!
# Texts that are written and read again

Pieces joined by a character that none of them holds are what cutting there gives, what has no blank
at either end is not trimmed (`Text.trimChars_eq_self_iff`), and the decimal digits of a number read
as the number. The other way round, the number that a numeral denotes is written as the numeral
without its superfluous zeros (`Literal.toString_digitsValue`).
-/

namespace SchemaVault

/-! ## Cutting -/

namespace Text

variable {sep : Char} {piece : List Char}

theorem pieces_of_notMem (h : sep ∉ piece) : pieces sep piece = [piece] := by
  induction piece with
  | nil => rfl
  | cons c piece ih =>
    rw [List.mem_cons, not_or] at h
    rw [pieces, if_neg (Ne.symm h.1), ih h.2]

theorem pieces_append (h : sep ∉ piece) (cs : List Char) :
    pieces sep (piece ++ sep :: cs) = piece :: pieces sep cs := by
  induction piece with
  | nil => exact if_pos rfl
  | cons c piece ih =>
    rw [List.mem_cons, not_or] at h
    rw [List.cons_append, pieces, if_neg (Ne.symm h.1), ih h.2]

/-- The pieces are those of a list that is split at a separator. -/
theorem pieces_eq_splitOn (sep : Char) (cs : List Char) : pieces sep cs = cs.splitOn sep := by
  induction cs with
  | nil => rfl
  | cons c cs ih =>
    rw [pieces, List.splitOn_cons_eq_if_modifyHead, ih]
    simp only [beq_iff_eq]
    split
    · rfl
    · obtain ⟨piece, rest, h⟩ := List.exists_cons_of_ne_nil (List.splitOn_ne_nil sep cs)
      rw [h]
      rfl

/-- Cutting once finds the first separator. -/
theorem cutFirst_append (h : sep ∉ piece) (cs : List Char) :
    cutFirst sep (piece ++ sep :: cs) = some (piece, cs) := by
  induction piece with
  | nil => exact if_pos rfl
  | cons c piece ih =>
    rw [List.mem_cons, not_or] at h
    rw [List.cons_append, cutFirst, if_neg (Ne.symm h.1), ih h.2]
    rfl

/-- Cutting once from the end finds the last separator. -/
theorem cutLast_append (h : sep ∉ piece) (cs : List Char) :
    cutLast sep (cs ++ sep :: piece) = some (cs, piece) := by
  have hreverse : (cs ++ sep :: piece).reverse = piece.reverse ++ sep :: cs.reverse := by simp
  rw [cutLast, hreverse, cutFirst_append (by rwa [List.mem_reverse])]
  simp

/-! ## Leading texts -/

theorem afterLead?_append (lead cs : List Char) : afterLead? lead (lead ++ cs) = some cs := by
  induction lead with
  | nil => rfl
  | cons l lead ih => rw [List.cons_append, afterLead?, if_pos rfl, ih]

theorem afterLead?_eq_none_iff {lead cs : List Char} :
    afterLead? lead cs = none ↔ ¬lead <+: cs := by
  induction lead generalizing cs with
  | nil => simp [afterLead?]
  | cons l lead ih =>
    cases cs with
    | nil => simp [afterLead?]
    | cons c cs =>
      rw [afterLead?, List.cons_prefix_cons]
      split
      · rename_i hc
        rw [ih, and_iff_right hc]
      · rename_i hc
        simp [hc]

/-! ## Trimming -/

theorem trimChars_eq (cs : List Char) :
    trimChars cs = (cs.dropWhile isBlank).rdropWhile isBlank := rfl

/-- What has no blank at either end is not trimmed. -/
theorem trimChars_eq_self_iff {cs : List Char} : trimChars cs = cs ↔
    (∀ c ∈ cs.head?, ¬isBlank c) ∧ ∀ c ∈ cs.getLast?, ¬isBlank c := by
  have hfirst : cs.dropWhile isBlank = cs ↔ ∀ c ∈ cs.head?, ¬isBlank c := by
    rw [List.dropWhile_eq_self_iff]
    cases cs <;> simp
  have hlast : cs.rdropWhile isBlank = cs ↔ ∀ c ∈ cs.getLast?, ¬isBlank c := by
    rw [List.rdropWhile_eq_self_iff]
    by_cases hempty : cs = []
    · simp [hempty]
    · simp [List.getLast?_eq_some_getLast hempty, hempty]
  rw [← hfirst, ← hlast, trimChars_eq]
  have hprefix := List.rdropWhile_prefix isBlank (cs.dropWhile isBlank)
  have hsuffix : cs.dropWhile isBlank <:+ cs := List.dropWhile_suffix _
  constructor
  · intro h
    have hlength : cs.length ≤ (cs.dropWhile isBlank).length := by
      have hle := hprefix.length_le
      rwa [h] at hle
    have hdrop : cs.dropWhile isBlank = cs := hsuffix.eq_of_length_le hlength
    rw [hdrop] at h
    exact ⟨hdrop, h⟩
  · rintro ⟨hdrop, hback⟩
    rw [hdrop, hback]

theorem trim_eq_self_iff {s : String} : trim s = s ↔
    (∀ c ∈ s.toList.head?, ¬isBlank c) ∧ ∀ c ∈ s.toList.getLast?, ¬isBlank c := by
  rw [← trimChars_eq_self_iff, trim, ← String.toList_inj, String.toList_ofList]

end Text

/-! ## Decimal numbers -/

section Decimal

variable (n : Nat)

theorem toList_toString : (toString n).toList = Nat.toDigits 10 n := by
  rw [Nat.toString_eq_ofList_toDigits, String.toList_ofList]

theorem isDigit_of_mem_toString {c : Char} (h : c ∈ (toString n).toList) : c.isDigit := by
  rw [toList_toString] at h
  exact Nat.isDigit_of_mem_toDigits (by omega) (by omega) h

theorem toString_ne_nil : (toString n).toList ≠ [] := by
  rw [toList_toString]
  exact Nat.toDigits_ne_nil

/-- Reading a number that is written in decimal. -/
theorem Literal.digitsValue_toString : Literal.digitsValue (toString n).toList = n := by
  rw [toList_toString, Literal.digitsValue]
  have h := Nat.ofDigitChars_ten_toDigits (n := n)
  rwa [Nat.ofDigitChars_eq_foldl] at h

/-- Different numbers are written differently. -/
theorem toString_inj {m n : Nat} : toString m = toString n ↔ m = n := by
  refine ⟨fun h => ?_, congrArg toString⟩
  rw [← Literal.digitsValue_toString m, h, Literal.digitsValue_toString]

theorem digitChar_ne_zero : ∀ d < 10, 0 < d → Nat.digitChar d ≠ '0' := by
  decide

/-- A positive number is written without leading zero. -/
theorem head_toString (h : 0 < n) : (toString n).toList.head? ≠ some '0' := by
  rw [toList_toString]
  induction n using Nat.strongRecOn with
  | ind n ih =>
    rw [Nat.toDigits_eq_if (by omega)]
    split
    · rename_i hlt
      simpa using digitChar_ne_zero n hlt h
    · have hlead := ih (n / 10) (by omega) (by omega)
      obtain ⟨c, cs, hdigits⟩ :=
        List.exists_cons_of_ne_nil (Nat.toDigits_ne_nil (b := 10) (n := n / 10))
      rwa [hdigits] at hlead ⊢

end Decimal

/-! ## Numerals -/

/-- Whether there are digits, and nothing else. -/
def Format.AreDigits (cs : List Char) : Prop := cs ≠ [] ∧ ∀ c ∈ cs, c.isDigit

instance : DecidablePred Format.AreDigits := fun cs =>
  decidable_of_iff (cs ≠ [] ∧ cs.all Char.isDigit) (and_congr_right fun _ => List.all_eq_true)

namespace Literal

variable {c : Char} {ds : List Char}

/-- A numeral without its superfluous zeros, which are those in front of another digit. -/
def unpadded : List Char → List Char
  | '0' :: d :: ds => unpadded (d :: ds)
  | ds => ds

theorem digitValue_lt (h : c.isDigit) : digitValue c < 10 := by
  have h := Char.isDigit_iff_toNat.1 h
  simp only [digitValue, Char.reduceToNat] at h ⊢
  omega

theorem digitChar_digitValue (h : c.isDigit) : (digitValue c).digitChar = c := by
  rw [← Char.toNat_inj, Nat.toNat_digitChar_of_lt_ten (digitValue_lt h)]
  have h := Char.isDigit_iff_toNat.1 h
  simp only [digitValue, Char.reduceToNat] at h ⊢
  omega

/-- Digits read after a positive number are written after its own. -/
theorem toDigits_foldl (hds : ∀ c ∈ ds, c.isDigit) {n : Nat} (hn : 0 < n) :
    Nat.toDigits 10 (ds.foldl (fun n c => 10 * n + digitValue c) n) = Nat.toDigits 10 n ++ ds := by
  induction ds generalizing n with
  | nil => rw [List.foldl_nil, List.append_nil]
  | cons c ds ih =>
    obtain ⟨hc, hds⟩ := List.forall_mem_cons.1 hds
    rw [List.foldl_cons, ih hds (by omega),
      ← Nat.toDigits_append_toDigits (by omega) hn (digitValue_lt hc),
      Nat.toDigits_of_lt_base (digitValue_lt hc), digitChar_digitValue hc, ← List.append_cons]

/-- **Writing the number that a numeral denotes takes its superfluous zeros away.** -/
theorem toString_digitsValue (h : Format.AreDigits ds) :
    (toString (digitsValue ds)).toList = unpadded ds := by
  rw [toList_toString]
  obtain ⟨hne, hds⟩ := h
  fun_induction unpadded ds with
  | case1 d ds ih => exact ih (List.cons_ne_nil d ds) fun c hc => hds c (List.mem_cons_of_mem _ hc)
  | case2 ds hlead =>
    cases ds with
    | nil => exact absurd rfl hne
    | cons c ds =>
      obtain ⟨hc, hds⟩ := List.forall_mem_cons.1 hds
      have hone : Nat.toDigits 10 (digitValue c) = [c] := by
        rw [Nat.toDigits_of_lt_base (digitValue_lt hc), digitChar_digitValue hc]
      have hvalue : digitsValue (c :: ds) =
          ds.foldl (fun n c => 10 * n + digitValue c) (digitValue c) := by
        rw [digitsValue, List.foldl_cons, Nat.mul_zero, Nat.zero_add]
      rw [hvalue]
      cases ds with
      | nil => exact hone
      | cons d ds =>
        have hpos : 0 < digitValue c := by
          refine Nat.pos_of_ne_zero fun hzero => hlead d ds ?_
          rw [hzero] at hone
          rw [← List.singleton_inj.1 hone]
          rfl
        rw [toDigits_foldl hds hpos, hone, List.singleton_append]

end Literal

end SchemaVault
