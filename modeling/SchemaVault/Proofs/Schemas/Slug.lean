import SchemaVault.Schemas.Slug

/-!
# Normal slugs

A normal slug is made of runs of small letters and digits with single hyphens between them. What a
text is normalized to is normal or empty (`normalize_cases`), and a normal slug is normalized to
itself, so normalizing a second time changes nothing: the normal slugs are the texts other than the
empty one that normalizing leaves as they are (`isNormal_iff`).
-/

namespace SchemaVault.Slug

variable {c : Char} {cs : List Char} {s : String}

/-- Characters that make up a slug: neither is it empty, nor does a hyphen stand at an end of it or
beside another hyphen. -/
inductive Normal : List Char → Prop
  | single {c : Char} (hc : isSlugChar c = true) : Normal [c]
  | cons {c : Char} {cs : List Char} (hc : isSlugChar c = true) (h : Normal cs) :
    Normal (c :: cs)
  | hyphen {c : Char} {cs : List Char} (hc : isSlugChar c = true) (h : Normal cs) :
    Normal (c :: '-' :: cs)

/-- Whether a text is a slug. -/
def IsNormal (s : String) : Prop := Normal s.toList

/-! ## Joining makes slugs -/

/-- A slug character, and after it what joining makes of the rest. -/
theorem normal_cons_join (hc : isSlugChar c = true) (gap : Bool) (cs : List Char) :
    Normal (c :: join true gap cs) := by
  induction cs generalizing c gap with
  | nil => exact .single hc
  | cons d cs ih =>
    unfold join
    cases hd : isSlugChar d with
    | false => exact ih hc true
    | true =>
      cases gap with
      | false => exact .cons hc (ih hd false)
      | true => exact .hyphen hc (ih hd false)

theorem join_cases (gap : Bool) (cs : List Char) :
    join false gap cs = [] ∨ Normal (join false gap cs) := by
  induction cs generalizing gap with
  | nil => exact .inl rfl
  | cons c cs ih =>
    unfold join
    cases hc : isSlugChar c with
    | false => exact ih true
    | true => exact .inr (normal_cons_join hc false cs)

/-- **What a text is normalized to is a slug or empty.** -/
theorem normalize_cases (s : String) : normalize s = "" ∨ IsNormal (normalize s) := by
  rw [IsNormal, normalize, String.toList_ofList]
  refine (join_cases false (s.toList.flatMap Text.lowercase)).imp_left fun h => ?_
  rw [chars, h]

/-! ## Joining keeps slugs -/

/-- Joining leaves a slug as it is, but for the hyphen that a gap before it asks for. -/
theorem Normal.join_eq (h : Normal cs) (begun gap : Bool) :
    join begun gap cs = if begun && gap then '-' :: cs else cs := by
  induction h generalizing begun gap with
  | single hc => simp only [join, hc, if_true]
  | cons hc _ ih => simp only [join, hc, ih, if_true, Bool.and_false, Bool.false_eq_true, if_false]
  | hyphen hc _ ih =>
    have hhyphen : isSlugChar '-' = false := by decide
    simp only [join, hc, hhyphen, ih, if_true, Bool.and_self, Bool.false_eq_true, if_false]

/-- Every mapped run of characters lies outside the small letters, the digits and the hyphen. -/
theorem caseRuns_apart : ∀ r ∈ Text.caseRuns, 0x7A < r.first ∨ 0x39 < r.first ∧ r.last < 0x61 := by
  decide +kernel

/-- Slug characters and hyphens are in lower case. -/
theorem lowercase_of_isSlugChar (hc : isSlugChar c = true ∨ c = '-') : Text.lowercase c = [c] := by
  have hrange : 0x61 ≤ c.toNat ∧ c.toNat ≤ 0x7A ∨ c.toNat ≤ 0x39 := by
    rcases hc with hc | rfl
    · have hlower : c.isLower = (decide (c.val ≥ 'a'.val) && decide (c.val ≤ 'z'.val)) := rfl
      simp only [isSlugChar, Bool.or_eq_true, hlower, Char.isDigit, Bool.and_eq_true,
        decide_eq_true_eq, ge_iff_le, UInt32.le_iff_toNat_le, ← Char.toNat_val] at hc ⊢
      exact hc.imp_right (·.2)
    · exact .inr (by decide)
  have hnone : Text.caseRuns.find? (·.covers c.toNat) = none := by
    refine List.find?_eq_none.2 fun r hr hcovers => ?_
    simp only [Text.CaseRun.covers, Bool.and_eq_true, decide_eq_true_eq] at hcovers
    have hapart := caseRuns_apart r hr
    omega
  rw [Text.lowercase, if_neg (by omega), hnone]

theorem Normal.lowercase_eq (h : Normal cs) : cs.flatMap Text.lowercase = cs := by
  induction h with
  | single hc => simp [lowercase_of_isSlugChar (.inl hc)]
  | cons hc _ ih =>
    rw [List.flatMap_cons, lowercase_of_isSlugChar (.inl hc), ih, List.singleton_append]
  | hyphen hc _ ih =>
    rw [List.flatMap_cons, List.flatMap_cons, lowercase_of_isSlugChar (.inl hc),
      lowercase_of_isSlugChar (.inr rfl), ih, List.singleton_append, List.singleton_append]

/-- **Normalizing leaves exactly the slugs as they are**, and the empty text. -/
theorem isNormal_iff : IsNormal s ↔ s ≠ "" ∧ normalize s = s := by
  constructor
  · intro h
    have hne : s ≠ "" := by
      rintro rfl
      cases h
    rw [normalize, chars, Normal.lowercase_eq h, Normal.join_eq h false false]
    exact ⟨hne, String.ofList_toList⟩
  · rintro ⟨hne, hsame⟩
    rcases normalize_cases s with h | h
    · exact absurd (hsame.symm.trans h) hne
    · rwa [hsame] at h

end SchemaVault.Slug
