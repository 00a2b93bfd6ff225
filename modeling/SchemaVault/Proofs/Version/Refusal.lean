import SchemaVault.Proofs.Version.Spelling

/-!
# Why a text is no version

The numbers of a version are read from left to right, and the first piece that is no number of 64
bits decides what is told (`read_eq_error_iff`): that the text is malformed if the piece is no
numeral, that there is an overflow if it is one that is too large. So an overflow can be told of a
text whose further pieces are no numerals, although such a text is malformed
(`overflow_told_of_malformed`). In all other cases what is told is what is wrong (`refusal_exact`).
-/

namespace SchemaVault.Version

open Format (AreDigits)
open Literal (digitsValue)

variable {t : String} {ds p : List Char} {ps : List (List Char)} {e : VersionError}

/-! ## The first piece that does not fit -/

/-- Whether a piece is a number of 64 bits. -/
def Fits (ds : List Char) : Prop := AreDigits ds ∧ digitsValue ds < 2 ^ 64

/-- Whether a piece is the first that does not fit. -/
inductive IsFirstUnfit : List (List Char) → List Char → Prop
  | here {p : List Char} {ps : List (List Char)} (h : ¬Fits p) : IsFirstUnfit (p :: ps) p
  | later {p q : List Char} {ps : List (List Char)} (hq : Fits q) (h : IsFirstUnfit ps p) :
    IsFirstUnfit (q :: ps) p

/-- What is told of a text because of a piece that does not fit. -/
inductive Tells (t : String) (p : List Char) : VersionError → Prop
  | malformed (h : ¬AreDigits p) : Tells t p (.malformed t)
  | overflow (h : AreDigits p) : Tells t p (.overflow t)

theorem tells_iff :
    Tells t p e ↔ ¬AreDigits p ∧ e = .malformed t ∨ AreDigits p ∧ e = .overflow t := by
  constructor
  · rintro (h | h)
    · exact .inl ⟨h, rfl⟩
    · exact .inr ⟨h, rfl⟩
  · rintro (⟨h, rfl⟩ | ⟨h, rfl⟩)
    · exact .malformed h
    · exact .overflow h

theorem IsFirstUnfit.mem (h : IsFirstUnfit ps p) : p ∈ ps := by
  induction h with
  | here h => exact List.mem_cons_self
  | later hq h ih => exact List.mem_cons_of_mem _ ih

theorem IsFirstUnfit.not_fits (h : IsFirstUnfit ps p) : ¬Fits p := by
  induction h with
  | here h => exact h
  | later hq h ih => exact ih

theorem exists_isFirstUnfit_cons {P : List Char → Prop} {q : List Char} :
    (∃ p, IsFirstUnfit (q :: ps) p ∧ P p) ↔
      ¬Fits q ∧ P q ∨ Fits q ∧ ∃ p, IsFirstUnfit ps p ∧ P p := by
  constructor
  · rintro ⟨p, h | ⟨hq, h⟩, hp⟩
    · exact .inl ⟨h, hp⟩
    · exact .inr ⟨hq, p, h, hp⟩
  · rintro (⟨h, hq⟩ | ⟨hq, p, h, hp⟩)
    · exact ⟨q, .here h, hq⟩
    · exact ⟨p, .later hq h, hp⟩

/-! ## Reading up to it -/

/-- Reading goes on behind a number that fits, and no further. -/
theorem component_bind_eq_error_iff {α : Type} {f : UInt64 → Except VersionError α} :
    component t ds >>= f = .error e ↔
      ¬Fits ds ∧ Tells t ds e ∨ Fits ds ∧ f (.ofNat (digitsValue ds)) = .error e := by
  rcases component_cases t ds with ⟨hno, h⟩ | ⟨hdigits, hge, h⟩ | ⟨hdigits, hlt, h⟩ <;>
    rw [h, tells_iff]
  · have hunfit : ¬Fits ds := fun hfits => hno hfits.1
    simp [hunfit, hno, bind, Except.bind, eq_comm]
  · have hunfit : ¬Fits ds := fun hfits => absurd hfits.2 (Nat.not_lt.2 hge)
    simp [hunfit, hdigits, bind, Except.bind, eq_comm]
  · have hfits : Fits ds := ⟨hdigits, hlt⟩
    simp [hfits, bind, Except.bind]

/-- **Why a text does not read as a version**: there are not three pieces between points, or the
first of them that does not fit tells. -/
theorem read_eq_error_iff :
    read t = .error e ↔ (t.toList.splitOn '.').length ≠ 3 ∧ e = .malformed t ∨
      (t.toList.splitOn '.').length = 3 ∧
        ∃ p, IsFirstUnfit (t.toList.splitOn '.') p ∧ Tells t p e := by
  by_cases hlength : (t.toList.splitOn '.').length = 3
  · obtain ⟨a, b, c, hsplit⟩ := List.length_eq_three.1 hlength
    have hnil : ∀ p, ¬IsFirstUnfit [] p := nofun
    rw [read_eq hsplit, hsplit]
    simp [component_bind_eq_error_iff, exists_isFirstUnfit_cons, hnil]
  · rw [read_eq_malformed hlength]
    simp [hlength, eq_comm]

theorem read_eq_malformed_iff :
    read t = .error (.malformed t) ↔ (t.toList.splitOn '.').length ≠ 3 ∨
      ∃ p, IsFirstUnfit (t.toList.splitOn '.') p ∧ ¬AreDigits p := by
  rw [read_eq_error_iff]
  simp only [tells_iff, reduceCtorEq, and_true, and_false, or_false]
  by_cases hlength : (t.toList.splitOn '.').length = 3 <;> simp [hlength]

theorem read_eq_overflow_iff :
    read t = .error (.overflow t) ↔ (t.toList.splitOn '.').length = 3 ∧
      ∃ p, IsFirstUnfit (t.toList.splitOn '.') p ∧ AreDigits p := by
  rw [read_eq_error_iff]
  simp only [tells_iff, reduceCtorEq, and_true, and_false, false_or]

theorem eq_malformed_or_eq_overflow (h : read t = .error e) :
    e = .malformed t ∨ e = .overflow t := by
  rcases read_eq_error_iff.1 h with ⟨-, he⟩ | ⟨-, p, -, hp⟩
  · exact .inl he
  · exact (tells_iff.1 hp).imp And.right And.right

/-! ## What is told and what is wrong -/

/-- Whether a text spells a version in numerals of which one is too large. -/
def SpellsTooLarge (t : String) : Prop :=
  ∃ a b c, Spells t a b c ∧
    (2 ^ 64 ≤ digitsValue a ∨ 2 ^ 64 ≤ digitsValue b ∨ 2 ^ 64 ≤ digitsValue c)

theorem SpellsTooLarge.spells (h : SpellsTooLarge t) : ∃ a b c, Spells t a b c :=
  h.imp fun _ => Exists.imp fun _ => Exists.imp fun _ => And.left

theorem not_spells_of_malformed (h : read t = .error (.malformed t)) :
    ¬∃ a b c, Spells t a b c := by
  rw [exists_spells_iff]
  rintro ⟨hlength, hall⟩
  rcases read_eq_malformed_iff.1 h with hother | ⟨p, hp, hno⟩
  · exact hother hlength
  · exact hno (hall p hp.mem)

theorem spellsTooLarge_of_overflow (h : read t = .error (.overflow t))
    (hall : ∀ p ∈ t.toList.splitOn '.', AreDigits p) : SpellsTooLarge t := by
  obtain ⟨hlength, p, hp, hdigits⟩ := read_eq_overflow_iff.1 h
  obtain ⟨a, b, c, hspells⟩ := exists_spells_iff.2 ⟨hlength, hall⟩
  have hlarge : 2 ^ 64 ≤ digitsValue p := Nat.not_lt.1 fun hlt => hp.not_fits ⟨hdigits, hlt⟩
  have hmem := hp.mem
  rw [(spells_iff.1 hspells).1] at hmem
  simp only [List.mem_cons, List.not_mem_nil, or_false] at hmem
  rcases hmem with rfl | rfl | rfl
  · exact ⟨p, b, c, hspells, .inl hlarge⟩
  · exact ⟨a, p, c, hspells, .inr (.inl hlarge)⟩
  · exact ⟨a, b, p, hspells, .inr (.inr hlarge)⟩

/-! ## What it says -/

/-- **What is told of a text that is no version.** A text that does not read is told to be malformed
or to overflow, as it stands: malformed if there are not three pieces between points or the first
piece that is no number of 64 bits is no numeral, an overflow if that piece is a numeral. Malformed
texts are told to be so, and overflows exactly where the text spells a version in numerals of which
one is too large, unless an overflow is told of a text with a piece that is no numeral. -/
theorem refusal_exact (t : String) :
    let pieces := t.toList.splitOn '.'
    (∀ e, read t = .error e → e = .malformed t ∨ e = .overflow t) ∧
      (read t = .error (.malformed t) ↔
        pieces.length ≠ 3 ∨ ∃ p, IsFirstUnfit pieces p ∧ ¬AreDigits p) ∧
      (read t = .error (.overflow t) ↔
        pieces.length = 3 ∧ ∃ p, IsFirstUnfit pieces p ∧ AreDigits p) ∧
      ∀ e, read t = .error e →
        ((e = .malformed t ↔ ¬∃ a b c, Spells t a b c) ∧ (e = .overflow t ↔ SpellsTooLarge t) ↔
          ¬(e = .overflow t ∧ ∃ p ∈ pieces, ¬AreDigits p)) := by
  intro pieces
  refine ⟨fun e => eq_malformed_or_eq_overflow, read_eq_malformed_iff, read_eq_overflow_iff,
    fun e h => ?_⟩
  rcases eq_malformed_or_eq_overflow h with rfl | rfl
  · have hnone := not_spells_of_malformed h
    have hfew : ¬SpellsTooLarge t := fun hlarge => hnone hlarge.spells
    simp [hnone, hfew]
  · by_cases hall : ∀ p ∈ pieces, AreDigits p
    · have hlarge := spellsTooLarge_of_overflow h hall
      have hrest : ¬∃ p ∈ pieces, ¬AreDigits p := fun ⟨p, hp, hno⟩ => hno (hall p hp)
      simp [hlarge, hlarge.spells, hrest]
    · have hnone : ¬∃ a b c, Spells t a b c := fun hspells => hall (exists_spells_iff.1 hspells).2
      have hrest : ∃ p ∈ pieces, ¬AreDigits p := by
        simpa only [not_forall, exists_prop] using hall
      simp [hnone, hrest]

/-- An overflow is told of a text of three numerals, the first of which is too large. -/
theorem refusal_exact_sample :
    let t := "18446744073709551616.0.0"
    read t = .error (.overflow t) ∧ SpellsTooLarge t := by
  intro t
  have hread : read t = .error (.overflow t) := by decide +kernel
  have hall : ∀ p ∈ t.toList.splitOn '.', AreDigits p := by decide +kernel
  have htold := ((refusal_exact t).2.2.2 _ hread).2 fun ⟨_, p, hp, hno⟩ => hno (hall p hp)
  exact ⟨hread, htold.2.1 rfl⟩

/-- **An overflow is told of a text that is malformed**, since the piece that is no numeral stands
behind one that is too large. -/
theorem overflow_told_of_malformed :
    let t := "1.18446744073709551616.x"
    read t = .error (.overflow t) ∧ ¬∃ a b c, Spells t a b c := by
  intro t
  refine ⟨by decide +kernel, fun h => ?_⟩
  have hdigits : AreDigits ['x'] := (exists_spells_iff.1 h).2 ['x'] (by decide +kernel)
  exact absurd hdigits (by decide +kernel)

end SchemaVault.Version
