import SchemaVault.Proofs.Version
import Mathlib.Algebra.Group.Nat.Defs

/-!
# How a version is spelled

A text reads as a version exactly if it is three numerals below `2 ^ 64` with points between them,
and then as the three numbers that they denote (`read_eq_ok_iff`). A version can be spelled with
superfluous zeros in its numerals, which its own text lacks (`text_of_spells`). So a version has one
text of its own, and no two versions have the same (`text_inj`): to look for a version is to look
for its text (`text_faithful`).
-/

namespace SchemaVault.Version

open Format (AreDigits)
open Literal (digitsValue unpadded)

variable {t whole : String} {a b c ds : List Char} {n : UInt64} {u v : Version}

/-! ## Three numerals -/

/-- Whether a text spells a version in these numerals: it is the three of them with single points
between. -/
structure Spells (t : String) (a b c : List Char) : Prop where
  text : t.toList = a ++ '.' :: (b ++ '.' :: c)
  major : AreDigits a
  minor : AreDigits b
  patch : AreDigits c

theorem point_notMem (h : AreDigits ds) : '.' ∉ ds := fun hmem =>
  absurd (h.2 '.' hmem) (by decide)

/-- The numerals of a text are its pieces between points. -/
theorem spells_iff :
    Spells t a b c ↔
      t.toList.splitOn '.' = [a, b, c] ∧ AreDigits a ∧ AreDigits b ∧ AreDigits c := by
  constructor
  · rintro ⟨htext, ha, hb, hc⟩
    refine ⟨?_, ha, hb, hc⟩
    rw [htext, List.splitOn_append_cons_self_of_not_mem (point_notMem ha),
      List.splitOn_append_cons_self_of_not_mem (point_notMem hb),
      List.splitOn_eq_singleton (point_notMem hc)]
  · rintro ⟨hsplit, ha, hb, hc⟩
    refine ⟨?_, ha, hb, hc⟩
    have hjoin : ['.'].intercalate (t.toList.splitOn '.') = t.toList := List.intercalate_splitOn '.'
    rw [← hjoin, hsplit, List.intercalate_cons_cons, List.intercalate_cons_cons,
      List.intercalate_singleton, List.append_assoc, List.append_assoc]
    rfl

theorem exists_spells_iff :
    (∃ a b c, Spells t a b c) ↔
      (t.toList.splitOn '.').length = 3 ∧ ∀ p ∈ t.toList.splitOn '.', AreDigits p := by
  constructor
  · rintro ⟨a, b, c, h⟩
    obtain ⟨hsplit, ha, hb, hc⟩ := spells_iff.1 h
    rw [hsplit]
    simp [ha, hb, hc]
  · rintro ⟨hlength, hall⟩
    obtain ⟨a, b, c, hsplit⟩ := List.length_eq_three.1 hlength
    rw [hsplit] at hall
    exact ⟨a, b, c, spells_iff.2 ⟨hsplit, hall a (by simp), hall b (by simp), hall c (by simp)⟩⟩

/-! ## Reading -/

/-- What one number of a version reads as: a piece is no numeral, or a numeral that is too large, or
a number. -/
theorem component_cases (whole : String) (ds : List Char) :
    ¬AreDigits ds ∧ component whole ds = .error (.malformed whole) ∨
      AreDigits ds ∧ 2 ^ 64 ≤ digitsValue ds ∧ component whole ds = .error (.overflow whole) ∨
      AreDigits ds ∧ digitsValue ds < 2 ^ 64 ∧
        component whole ds = .ok (.ofNat (digitsValue ds)) := by
  have hshape : (ds.isEmpty || !ds.all Char.isDigit) = true ↔ ¬AreDigits ds := by
    simp [AreDigits, Classical.or_iff_not_imp_left]
  unfold component
  by_cases hdigits : AreDigits ds
  · rw [if_neg fun h => hshape.1 h hdigits]
    by_cases hlt : digitsValue ds < UInt64.size
    · exact .inr (.inr ⟨hdigits, hlt, if_pos hlt⟩)
    · exact .inr (.inl ⟨hdigits, Nat.not_lt.1 hlt, if_neg hlt⟩)
  · exact .inl ⟨hdigits, if_pos (hshape.2 hdigits)⟩

theorem component_eq_ok_iff :
    component whole ds = .ok n ↔ AreDigits ds ∧ digitsValue ds = n.toNat := by
  rcases component_cases whole ds with ⟨hno, h⟩ | ⟨hdigits, hge, h⟩ | ⟨hdigits, hlt, h⟩ <;> rw [h]
  · simp [hno]
  · have hne : digitsValue ds ≠ n.toNat :=
      Nat.ne_of_gt (Nat.lt_of_lt_of_le n.toNat_lt_size hge)
    simp [hne]
  · rw [Except.ok.injEq, ← UInt64.toNat_inj, UInt64.toNat_ofNat_of_lt' hlt]
    simp [hdigits]

theorem read_eq_malformed (h : (t.toList.splitOn '.').length ≠ 3) :
    read t = .error (.malformed t) := by
  rw [read, Text.pieces_eq_splitOn]
  split
  · rename_i a b c hsplit
    rw [hsplit] at h
    exact absurd rfl h
  · rfl

/-- The three pieces are read from left to right. -/
theorem read_eq (h : t.toList.splitOn '.' = [a, b, c]) :
    read t = component t a >>= fun major => component t b >>= fun minor =>
      component t c >>= fun patch => .ok ⟨major, minor, patch⟩ := by
  rw [read, Text.pieces_eq_splitOn, h]
  rfl

/-- **A text reads as a version if it spells one.** -/
theorem read_eq_ok_iff :
    read t = .ok v ↔ ∃ a b c, Spells t a b c ∧ digitsValue a = v.major.toNat ∧
      digitsValue b = v.minor.toNat ∧ digitsValue c = v.patch.toNat := by
  by_cases hlength : (t.toList.splitOn '.').length = 3
  · obtain ⟨a, b, c, hsplit⟩ := List.length_eq_three.1 hlength
    rw [read_eq hsplit]
    simp only [Transaction.bind_eq_ok, component_eq_ok_iff, spells_iff, hsplit]
    constructor
    · rintro ⟨major, ⟨ha, hmajor⟩, minor, ⟨hb, hminor⟩, patch, ⟨hc, hpatch⟩, h⟩
      obtain rfl := Except.ok.inj h
      exact ⟨a, b, c, ⟨rfl, ha, hb, hc⟩, hmajor, hminor, hpatch⟩
    · rintro ⟨_, _, _, ⟨⟨⟩, ha, hb, hc⟩, hmajor, hminor, hpatch⟩
      exact ⟨v.major, ⟨ha, hmajor⟩, v.minor, ⟨hb, hminor⟩, v.patch, ⟨hc, hpatch⟩, rfl⟩
  · rw [read_eq_malformed hlength]
    refine iff_of_false nofun ?_
    rintro ⟨a, b, c, hspells, -⟩
    exact hlength (exists_spells_iff.1 ⟨a, b, c, hspells⟩).1

theorem exists_read_eq_ok_iff :
    (∃ v, read t = .ok v) ↔ ∃ a b c, Spells t a b c ∧ digitsValue a < 2 ^ 64 ∧
      digitsValue b < 2 ^ 64 ∧ digitsValue c < 2 ^ 64 := by
  constructor
  · rintro ⟨v, h⟩
    obtain ⟨a, b, c, hspells, hmajor, hminor, hpatch⟩ := read_eq_ok_iff.1 h
    exact ⟨a, b, c, hspells, hmajor ▸ v.major.toNat_lt_size, hminor ▸ v.minor.toNat_lt_size,
      hpatch ▸ v.patch.toNat_lt_size⟩
  · rintro ⟨a, b, c, hspells, ha, hb, hc⟩
    refine ⟨⟨.ofNat (digitsValue a), .ofNat (digitsValue b), .ofNat (digitsValue c)⟩,
      read_eq_ok_iff.2 ⟨a, b, c, hspells, ?_, ?_, ?_⟩⟩
    · exact (UInt64.toNat_ofNat_of_lt' ha).symm
    · exact (UInt64.toNat_ofNat_of_lt' hb).symm
    · exact (UInt64.toNat_ofNat_of_lt' hc).symm

/-! ## Writing -/

theorem toList_text (v : Version) :
    v.text.toList = (toString v.major.toNat).toList ++
      '.' :: ((toString v.minor.toNat).toList ++ '.' :: (toString v.patch.toNat).toList) := by
  have hpoints : ".".toList = ['.'] := rfl
  simp only [text, String.toList_append, hpoints, List.append_assoc, List.cons_append,
    List.nil_append]

/-- **The text of a version is any spelling of it without its superfluous zeros.** -/
theorem text_of_spells (h : Spells t a b c) (hread : read t = .ok v) :
    v.text.toList = unpadded a ++ '.' :: (unpadded b ++ '.' :: unpadded c) := by
  obtain ⟨a', b', c', h', hmajor, hminor, hpatch⟩ := read_eq_ok_iff.1 hread
  obtain ⟨rfl, rfl, rfl⟩ : a' = a ∧ b' = b ∧ c' = c := by
    simpa using (spells_iff.1 h').1.symm.trans (spells_iff.1 h).1
  rw [toList_text, ← hmajor, ← hminor, ← hpatch, Literal.toString_digitsValue h.major,
    Literal.toString_digitsValue h.minor, Literal.toString_digitsValue h.patch]

theorem text_inj : u.text = v.text ↔ u = v := by
  refine ⟨fun h => ?_, congrArg text⟩
  exact Except.ok.inj ((read_text u).symm.trans (h ▸ read_text v))

/-! ## What it says -/

/-- **The text of a version stands for the version.** A text reads as a version exactly if it is
three numerals below `2 ^ 64` with single points between, and as the numbers that these denote. The
text of a version reads as the version, and is what remains of any other text that reads so without
the superfluous zeros of its numerals. Hence two versions are equal exactly if their texts are, and
a stored version is found by its text. -/
theorem text_faithful (t : String) (v : Version) :
    (read t = .ok v ↔ ∃ a b c, Spells t a b c ∧ digitsValue a = v.major.toNat ∧
        digitsValue b = v.minor.toNat ∧ digitsValue c = v.patch.toNat) ∧
      ((∃ v, read t = .ok v) ↔ ∃ a b c, Spells t a b c ∧ digitsValue a < 2 ^ 64 ∧
        digitsValue b < 2 ^ 64 ∧ digitsValue c < 2 ^ 64) ∧
      read v.text = .ok v ∧
      (∀ a b c, Spells t a b c → read t = .ok v →
        v.text.toList = unpadded a ++ '.' :: (unpadded b ++ '.' :: unpadded c)) ∧
      (∀ u, u = v ↔ text u = text v) ∧
      ∀ (row : VersionRow) (id : SchemaId),
        row.isVersion id v ↔ row.schemaId = id ∧ row.version.text = v.text := by
  refine ⟨read_eq_ok_iff, exists_read_eq_ok_iff, read_text v, fun a b c => text_of_spells,
    fun u => text_inj.symm, fun row id => ?_⟩
  rw [SchemaVersion.isVersion_iff, text_inj]

/-- The greatest number is read behind zeros, and a numeral of zeros keeps one. -/
theorem text_faithful_sample :
    let t := "007.00.018446744073709551615"
    let v : Version := ⟨7, 0, 18446744073709551615⟩
    Spells t ['0', '0', '7'] ['0', '0'] "018446744073709551615".toList ∧ read t = .ok v ∧
      v.text.toList = "7.0.18446744073709551615".toList := by
  intro t v
  have hspells : Spells t ['0', '0', '7'] ['0', '0'] "018446744073709551615".toList := by
    refine ⟨?_, ?_, ?_, ?_⟩ <;> decide +kernel
  have hread : read t = .ok v := by
    refine (text_faithful t v).1.2 ⟨_, _, _, hspells, ?_⟩
    decide +kernel
  refine ⟨hspells, hread, ?_⟩
  rw [(text_faithful t v).2.2.2.1 _ _ _ hspells hread]
  decide +kernel

end SchemaVault.Version
