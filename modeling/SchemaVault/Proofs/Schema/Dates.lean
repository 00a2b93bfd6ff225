import SchemaVault.Proofs.Text
import SchemaVault.Schema.Format
import Mathlib.Data.List.TakeWhile

/-!
# Which texts are dates

The format of dates is meant for the days of the calendar in the form `YYYY-MM-DD`, and reads more
than that. The numbers need not have all their digits if blanks before them or a sign before the
year make up for it, as long as the text takes ten bytes (`accepts_date_iff`). The days in the
intended form are those of its texts that have no blanks and no sign (`isCalendarDate_iff`).
-/

namespace SchemaVault.Format

open Text

/-! ## Blanks and digits -/

/-- Whether there are blanks at most. -/
def AreBlanks (cs : List Char) : Prop := ∀ c ∈ cs, isBlank c

theorem not_isBlank_of_isDigit {c : Char} (h : c.isDigit) : ¬isBlank c := by
  simp only [Char.isDigit, ge_iff_le, Bool.and_eq_true, decide_eq_true_eq,
    UInt32.le_iff_toNat_le] at h
  have hlow : 0x30 ≤ c.toNat := h.1
  have hhigh : c.toNat ≤ 0x39 := h.2
  simp [isBlank]
  omega

theorem AreDigits.head? {ds : List Char} (h : AreDigits ds) (rest : List Char) :
    ∃ d ∈ ds, (ds ++ rest).head? = some d ∧ d.isDigit := by
  obtain ⟨hne, hdigits⟩ := h
  cases ds with
  | nil => exact absurd rfl hne
  | cons d ds => exact ⟨d, List.mem_cons_self, rfl, hdigits d List.mem_cons_self⟩

/-- What is left when the blanks in front are dropped. -/
theorem dropWhile_isBlank_eq_iff {cs rest : List Char} (hrest : ∀ c ∈ rest.head?, ¬isBlank c) :
    cs.dropWhile isBlank = rest ↔ ∃ blanks, AreBlanks blanks ∧ cs = blanks ++ rest := by
  constructor
  · rintro rfl
    exact ⟨cs.takeWhile isBlank, fun c hc => List.mem_takeWhile_imp hc,
      List.takeWhile_append_dropWhile.symm⟩
  · rintro ⟨blanks, hblanks, rfl⟩
    rw [List.dropWhile_append_of_pos hblanks]
    cases rest with
    | nil => rfl
    | cons c rest => exact List.dropWhile_cons_of_neg (hrest c rfl)

/-- **A number is read up to what is no digit.** -/
theorem looseNumber?_eq_some_iff {most n : Nat} {cs rest : List Char}
    (hrest : ∀ c ∈ rest.head?, ¬c.isDigit) :
    looseNumber? most cs = some (n, rest) ↔
      ∃ ds, AreDigits ds ∧ ds.length ≤ most ∧ Literal.digitsValue ds = n ∧ cs = ds ++ rest := by
  unfold looseNumber?
  dsimp only
  constructor
  · intro h
    split at h
    · cases h
    · rename_i hne
      cases h
      have htake : (cs.take most).takeWhile Char.isDigit <+: cs :=
        (List.takeWhile_prefix _).trans (List.take_prefix _ _)
      obtain ⟨after, hafter⟩ := htake
      refine ⟨_, ⟨by simpa using hne, fun c hc => List.mem_takeWhile_imp hc⟩, ?_, rfl, ?_⟩
      · exact (List.takeWhile_prefix _).length_le.trans (List.length_take_le _ _)
      · generalize (cs.take most).takeWhile Char.isDigit = ds at hafter
        rw [← hafter, List.drop_left]
  · rintro ⟨ds, ⟨hne, hdigits⟩, hlength, rfl, rfl⟩
    have hstop : (rest.take (most - ds.length)).takeWhile Char.isDigit = [] := by
      cases rest with
      | nil => simp
      | cons c rest =>
        cases most - ds.length with
        | zero => rfl
        | succ k => exact List.takeWhile_cons_of_neg (hrest c rfl)
    rw [List.take_append, List.take_of_length_le hlength, List.takeWhile_append_of_pos hdigits,
      hstop, List.append_nil, if_neg (by simpa using hne), List.drop_left]

theorem mark?_eq_some_iff {c : Char} {cs rest : List Char} :
    mark? c cs = some rest ↔ cs = c :: rest := by
  unfold mark?
  cases cs with
  | nil => simp
  | cons d cs =>
    by_cases h : c = d
    · simp [h]
    · simp [h, Ne.symm h]

/-- A number of two digits at most that may have blanks before it. -/
theorem looseNumber?_dropWhile_eq_some_iff {n : Nat} {cs rest : List Char}
    (hrest : ∀ c ∈ rest.head?, ¬c.isDigit) :
    looseNumber? 2 (cs.dropWhile isBlank) = some (n, rest) ↔ ∃ blanks ds, AreBlanks blanks ∧
      AreDigits ds ∧ ds.length ≤ 2 ∧ Literal.digitsValue ds = n ∧ cs = blanks ++ (ds ++ rest) := by
  have hfirst {ds : List Char} (hds : AreDigits ds) : ∀ c ∈ (ds ++ rest).head?, ¬isBlank c := by
    obtain ⟨d, -, hhead, hd⟩ := hds.head? rest
    intro c hc
    obtain rfl := Option.some.inj (hhead.symm.trans hc)
    exact not_isBlank_of_isDigit hd
  rw [looseNumber?_eq_some_iff hrest]
  constructor
  · rintro ⟨ds, hds, hlength, hn, hcs⟩
    obtain ⟨blanks, hblanks, hcs⟩ := (dropWhile_isBlank_eq_iff (hfirst hds)).1 hcs
    exact ⟨blanks, ds, hblanks, hds, hlength, hn, hcs⟩
  · rintro ⟨blanks, ds, hblanks, hds, hlength, hn, hcs⟩
    exact ⟨ds, hds, hlength, hn, (dropWhile_isBlank_eq_iff (hfirst hds)).2 ⟨blanks, hblanks, hcs⟩⟩

/-! ## Years -/

/-- How a year is written: with up to four digits, or with a sign and any number of them. -/
inductive IsYear : List Char → Int → Prop
  | unsigned {ds : List Char} (hdigits : AreDigits ds) (hlength : ds.length ≤ 4) :
      IsYear ds (Literal.digitsValue ds)
  | plus {ds : List Char} (hdigits : AreDigits ds) : IsYear ('+' :: ds) (Literal.digitsValue ds)
  | minus {ds : List Char} (hdigits : AreDigits ds) :
      IsYear ('-' :: ds) (-(Literal.digitsValue ds : Int))

/-- A year does not begin with a blank. -/
theorem IsYear.not_isBlank {text : List Char} {year : Int} (h : IsYear text year)
    (rest : List Char) : ∀ c ∈ (text ++ rest).head?, ¬isBlank c := by
  intro c hc
  cases h with
  | unsigned hdigits hlength =>
    obtain ⟨d, -, hhead, hd⟩ := hdigits.head? rest
    obtain rfl := Option.some.inj (hhead.symm.trans hc)
    exact not_isBlank_of_isDigit hd
  | plus hdigits =>
    obtain rfl := Option.some.inj hc
    decide
  | minus hdigits =>
    obtain rfl := Option.some.inj hc
    decide

/-- **A year is read** after any blanks, in each way in which it can be written. -/
theorem looseYear?_eq_some_iff {year : Int} {cs rest : List Char}
    (hrest : ∀ c ∈ rest.head?, ¬c.isDigit) :
    looseYear? cs = some (year, rest) ↔ ∃ blanks text, AreBlanks blanks ∧ IsYear text year ∧
      cs = blanks ++ (text ++ rest) := by
  have hdropped : (∃ blanks text, AreBlanks blanks ∧ IsYear text year ∧
      cs = blanks ++ (text ++ rest)) ↔
        ∃ text, IsYear text year ∧ cs.dropWhile isBlank = text ++ rest := by
    constructor
    · rintro ⟨blanks, text, hblanks, hyear, hcs⟩
      exact ⟨text, hyear, (dropWhile_isBlank_eq_iff (hyear.not_isBlank rest)).2
        ⟨blanks, hblanks, hcs⟩⟩
    · rintro ⟨text, hyear, hcs⟩
      obtain ⟨blanks, hblanks, hcs⟩ := (dropWhile_isBlank_eq_iff (hyear.not_isBlank rest)).1 hcs
      exact ⟨blanks, text, hblanks, hyear, hcs⟩
  rw [hdropped]
  unfold looseYear?
  generalize cs.dropWhile isBlank = front
  constructor
  · intro h
    split at h
    all_goals
      obtain ⟨⟨n, rest'⟩, hread, heq⟩ := Option.map_eq_some_iff.1 h
      cases heq
      obtain ⟨ds, hds, hlength, rfl, rfl⟩ := (looseNumber?_eq_some_iff hrest).1 hread
    · exact ⟨_, .plus hds, rfl⟩
    · exact ⟨_, .minus hds, rfl⟩
    · exact ⟨_, .unsigned hds hlength, rfl⟩
  · rintro ⟨text, hyear, rfl⟩
    cases hyear with
    | unsigned hds hlength =>
      have hread : looseNumber? 4 (text ++ rest) = some (Literal.digitsValue text, rest) :=
        (looseNumber?_eq_some_iff hrest).2 ⟨text, hds, hlength, rfl, rfl⟩
      obtain ⟨d, -, hhead, hd⟩ := hds.head? rest
      split
      · rename_i heq
        rw [heq] at hhead
        obtain rfl := Option.some.inj hhead
        cases hd
      · rename_i heq
        rw [heq] at hhead
        obtain rfl := Option.some.inj hhead
        cases hd
      · rw [hread]
        rfl
    | @plus ds hds =>
      have hread : looseNumber? (ds ++ rest).length (ds ++ rest) =
          some (Literal.digitsValue ds, rest) :=
        (looseNumber?_eq_some_iff hrest).2 ⟨ds, hds, by simp, rfl, rfl⟩
      exact congrArg (Option.map _) hread
    | @minus ds hds =>
      have hread : looseNumber? (ds ++ rest).length (ds ++ rest) =
          some (Literal.digitsValue ds, rest) :=
        (looseNumber?_eq_some_iff hrest).2 ⟨ds, hds, by simp, rfl, rfl⟩
      exact congrArg (Option.map _) hread

/-! ## Dates -/

/-- **A day of the calendar in the form `YYYY-MM-DD`.** -/
def IsCalendarDate (s : String) : Prop :=
  ∃ year month day, (AreDigits year ∧ year.length = 4) ∧ (AreDigits month ∧ month.length = 2) ∧
    (AreDigits day ∧ day.length = 2) ∧ s.toList = year ++ '-' :: (month ++ '-' :: day) ∧
    Calendar.isDay (Literal.digitsValue year) (Literal.digitsValue month) (Literal.digitsValue day)

/-- **A day of the calendar in ten bytes**, written as a year, a month and a day with dashes between
them, where each may have blanks before it and need not have all its digits. -/
def IsLooseDate (s : String) : Prop :=
  s.utf8ByteSize = 10 ∧ ∃ blanks text blanks' month blanks'' day year,
    (AreBlanks blanks ∧ IsYear text year) ∧
    (AreBlanks blanks' ∧ AreDigits month ∧ month.length ≤ 2) ∧
    (AreBlanks blanks'' ∧ AreDigits day ∧ day.length ≤ 2) ∧
    s.toList = blanks ++ (text ++ '-' :: (blanks' ++ (month ++ '-' :: (blanks'' ++ day)))) ∧
    Calendar.isDay year (Literal.digitsValue month) (Literal.digitsValue day)

theorem isDate_iff {s : String} : isDate s ↔ s.utf8ByteSize = 10 ∧ ∃ year month day cs cs',
    looseYear? s.toList = some (year, '-' :: cs) ∧
    looseNumber? 2 (cs.dropWhile isBlank) = some (month, '-' :: cs') ∧
    looseNumber? 2 (cs'.dropWhile isBlank) = some (day, []) ∧ Calendar.isDay year month day := by
  unfold isDate
  simp only [Bool.and_eq_true, beq_iff_eq, Option.isSome_iff_exists, bind,
    Option.bind_eq_some_iff, Prod.exists, mark?_eq_some_iff]
  refine and_congr_right fun _ => ⟨?_, ?_⟩
  · rintro ⟨_, year, _, hyear, cs, rfl, month, _, hmonth, cs', rfl, day, rest, hday, h⟩
    split at h
    · rename_i hend
      obtain ⟨hrest, hcalendar⟩ := hend
      obtain rfl := List.isEmpty_iff.1 hrest
      exact ⟨year, month, day, cs, cs', hyear, hmonth, hday, hcalendar⟩
    · cases h
  · rintro ⟨year, month, day, cs, cs', hyear, hmonth, hday, hcalendar⟩
    exact ⟨(), year, _, hyear, cs, rfl, month, _, hmonth, cs', rfl, day, [], hday,
      if_pos ⟨rfl, hcalendar⟩⟩

/-- **What is accepted as a date.** -/
theorem accepts_date_iff {s : String} : date.accepts s ↔ IsLooseDate s := by
  have hdash (cs : List Char) : ∀ c ∈ ('-' :: cs).head?, ¬c.isDigit := by
    intro c hc
    obtain rfl := Option.some.inj hc
    decide
  have hnil : ∀ c ∈ ([] : List Char).head?, ¬c.isDigit := nofun
  rw [accepts, isDate_iff, IsLooseDate]
  refine and_congr_right fun _ => ?_
  constructor
  · rintro ⟨year, month, day, cs, cs', hyear, hmonth, hday, hcalendar⟩
    obtain ⟨blanks, text, hblanks, htext, hs⟩ := (looseYear?_eq_some_iff (hdash cs)).1 hyear
    obtain ⟨blanks', ms, hblanks', hms, hmost, rfl, rfl⟩ :=
      (looseNumber?_dropWhile_eq_some_iff (hdash cs')).1 hmonth
    obtain ⟨blanks'', ds, hblanks'', hds, hmost', rfl, rfl⟩ :=
      (looseNumber?_dropWhile_eq_some_iff hnil).1 hday
    rw [List.append_nil] at hs
    exact ⟨blanks, text, blanks', ms, blanks'', ds, year, ⟨hblanks, htext⟩,
      ⟨hblanks', hms, hmost⟩, ⟨hblanks'', hds, hmost'⟩, hs, hcalendar⟩
  · rintro ⟨blanks, text, blanks', ms, blanks'', ds, year, ⟨hblanks, htext⟩,
      ⟨hblanks', hms, hmost⟩, ⟨hblanks'', hds, hmost'⟩, hs, hcalendar⟩
    refine ⟨year, _, _, _, _, (looseYear?_eq_some_iff (hdash _)).2 ⟨blanks, text, hblanks, htext,
      hs⟩, (looseNumber?_dropWhile_eq_some_iff (hdash _)).2 ⟨blanks', ms, hblanks', hms, hmost, rfl,
      rfl⟩, (looseNumber?_dropWhile_eq_some_iff hnil).2 ⟨blanks'', ds, hblanks'', hds, hmost', rfl,
      ?_⟩, hcalendar⟩
    rw [List.append_nil]

/-! ## The intended form -/

/-- Characters of one byte each take as many bytes as there are. -/
theorem utf8ByteSize_ofList_eq_length {cs : List Char} (h : ∀ c ∈ cs, c.utf8Size = 1) :
    (String.ofList cs).utf8ByteSize = cs.length := by
  induction cs with
  | nil => rfl
  | cons c cs ih =>
    obtain ⟨hc, hrest⟩ := List.forall_mem_cons.1 h
    rw [String.ofList_cons, String.utf8ByteSize_append, String.utf8ByteSize_singleton, ih hrest, hc,
      List.length_cons, Nat.add_comm]

theorem utf8Size_of_isDigit {c : Char} (h : c.isDigit) : c.utf8Size = 1 := by
  simp only [Char.isDigit, ge_iff_le, Bool.and_eq_true, decide_eq_true_eq] at h
  exact Char.utf8Size_eq_one_iff.2 (UInt32.le_trans h.2 (by decide))

theorem AreBlanks.eq_nil {cs : List Char} (h : AreBlanks cs) (hnone : ∀ c ∈ cs, ¬isBlank c) :
    cs = [] := by
  cases cs with
  | nil => rfl
  | cons c cs => exact absurd (h c List.mem_cons_self) (hnone c List.mem_cons_self)

/-- A text of digits between two dashes takes a byte for each digit and each dash. -/
theorem utf8ByteSize_of_dashed {s : String} {year month day : List Char} (hyear : AreDigits year)
    (hmonth : AreDigits month) (hday : AreDigits day)
    (hs : s.toList = year ++ '-' :: (month ++ '-' :: day)) :
    s.utf8ByteSize = year.length + month.length + day.length + 2 := by
  have hbytes : ∀ c ∈ s.toList, c.utf8Size = 1 := by
    intro c hc
    rw [hs] at hc
    simp only [List.mem_append, List.mem_cons] at hc
    rcases hc with hc | rfl | hc | rfl | hc
    · exact utf8Size_of_isDigit (hyear.2 c hc)
    · decide
    · exact utf8Size_of_isDigit (hmonth.2 c hc)
    · decide
    · exact utf8Size_of_isDigit (hday.2 c hc)
  rw [← String.ofList_toList (s := s), utf8ByteSize_ofList_eq_length hbytes, hs]
  simp only [List.length_append, List.length_cons]
  omega

/-- **The days in the intended form** are the texts that are accepted and have neither blanks nor a
sign. With neither, only four, two and two digits fill ten bytes. -/
theorem isCalendarDate_iff {s : String} : IsCalendarDate s ↔ date.accepts s ∧
    (∀ c ∈ s.toList, ¬isBlank c) ∧ ∀ c ∈ s.toList.head?, c ≠ '+' ∧ c ≠ '-' := by
  rw [accepts_date_iff]
  constructor
  · rintro ⟨year, month, day, ⟨hyear, hfour⟩, ⟨hmonth, htwo⟩, ⟨hday, htwo'⟩, hs, hcalendar⟩
    have hnil : AreBlanks [] := nofun
    refine ⟨⟨?_, [], year, [], month, [], day, _, ⟨hnil, .unsigned hyear hfour.le⟩,
      ⟨hnil, hmonth, htwo.le⟩, ⟨hnil, hday, htwo'.le⟩, hs, hcalendar⟩, ?_, ?_⟩
    · rw [utf8ByteSize_of_dashed hyear hmonth hday hs, hfour, htwo, htwo']
    · intro c hc
      rw [hs] at hc
      simp only [List.mem_append, List.mem_cons] at hc
      rcases hc with hc | rfl | hc | rfl | hc
      · exact not_isBlank_of_isDigit (hyear.2 c hc)
      · decide
      · exact not_isBlank_of_isDigit (hmonth.2 c hc)
      · decide
      · exact not_isBlank_of_isDigit (hday.2 c hc)
    · intro c hc
      obtain ⟨d, -, hhead, hd⟩ := hyear.head? ('-' :: (month ++ '-' :: day))
      rw [hs] at hc
      obtain rfl := Option.some.inj (hhead.symm.trans hc)
      constructor
      · rintro rfl
        cases hd
      · rintro rfl
        cases hd
  · rintro ⟨⟨hten, blanks, text, blanks', month, blanks'', day, year, ⟨hblanks, htext⟩,
      ⟨hblanks', hmonth, hmost⟩, ⟨hblanks'', hday, hmost'⟩, hs, hcalendar⟩, hnone, hsign⟩
    have hin {cs : List Char} (h : ∀ c ∈ cs, c ∈ s.toList) : ∀ c ∈ cs, ¬isBlank c :=
      fun c hc => hnone c (h c hc)
    obtain rfl := hblanks.eq_nil (hin fun c hc => by simp [hs, hc])
    obtain rfl := hblanks'.eq_nil (hin fun c hc => by simp [hs, hc])
    obtain rfl := hblanks''.eq_nil (hin fun c hc => by simp [hs, hc])
    simp only [List.nil_append] at hs
    cases htext with
    | plus => exact absurd rfl (hsign '+' (by rw [hs]; rfl)).1
    | minus => exact absurd rfl (hsign '-' (by rw [hs]; rfl)).2
    | unsigned htext hfour =>
      have hlength := utf8ByteSize_of_dashed htext hmonth hday hs
      exact ⟨text, month, day, ⟨htext, by omega⟩, ⟨hmonth, by omega⟩, ⟨hday, by omega⟩, hs,
        hcalendar⟩

/-! ## What it says -/

/-- **The format of dates accepts all days of the calendar in their form, and more.** It accepts the
texts of ten bytes that are a year, a month and a day of the calendar, where blanks may stand before
the numbers, a sign may stand before the year, and the numbers need not have all their digits. Of
these, the days in the form `YYYY-MM-DD` are those without blanks and without a sign. -/
theorem date_format (s : String) : (date.accepts s ↔ IsLooseDate s) ∧
    (IsCalendarDate s ↔ date.accepts s ∧ (∀ c ∈ s.toList, ¬isBlank c) ∧
      ∀ c ∈ s.toList.head?, c ≠ '+' ∧ c ≠ '-') :=
  ⟨accepts_date_iff, isCalendarDate_iff⟩

/-- **A month of one digit is accepted** when a sign before the year makes up for it. -/
theorem signed_date_accepted : date.accepts "+2024-1-01" ∧ ¬IsCalendarDate "+2024-1-01" := by
  refine ⟨by decide +kernel, fun h => ?_⟩
  exact absurd rfl ((isCalendarDate_iff.1 h).2.2 '+' rfl).1

end SchemaVault.Format
