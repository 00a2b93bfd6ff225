import SchemaVault.Json.Reader
import SchemaVault.Json5.Reader
import Mathlib.Data.List.TakeDrop

/-!
# Relaxed tokens of documents

A document is cut into tokens at the same places by both readers. The relaxed one goes further in
words and hexadecimal numerals than the other in literal names and numbers, so what follows a
scalar has to be a blank or one of the marks that may stand there (`Delimited`). Each token then
stands for the same as its counterpart (`Echoes`), except that the relaxed one keeps its text.
-/

namespace SchemaVault

/-! ## Hexadecimal digits -/

/-- Only hexadecimal digits write a number. -/
theorem Text.all_isHexDigit_of_hexNumber? {digits : List Char} {n : Nat}
    (h : Text.hexNumber? digits = some n) : digits.all Text.isHexDigit = true := by
  have hall : ∀ (ds : List Char) (start : Nat),
      ds.foldlM (fun n c => (Text.hexDigit? c).map (16 * n + ·)) start = some n →
        ds.all Text.isHexDigit = true := by
    intro ds
    induction ds with
    | nil => exact fun _ _ => rfl
    | cons d ds ih =>
      intro start h
      rw [List.foldlM_cons] at h
      cases hd : Text.hexDigit? d with
      | none => simp [hd] at h
      | some m =>
        simp only [hd, Option.map_some, Option.bind_eq_bind, Option.bind_some] at h
        simp [Text.isHexDigit, hd, ih _ h]
  exact hall digits 0 h

namespace Json5

/-! ## Texts -/

theorem Written.read?_numbered {a b c d : Char} {cs rest : List Char} {w : Written}
    (hdigits : [a, b, c, d].all Text.isHexDigit = true)
    (h : Written.read? '"' cs = some (w, rest)) :
    Written.read? '"' ('\\' :: 'u' :: a :: b :: c :: d :: cs) =
      some (.numbered [a, b, c, d] :: w, rest) := by
  have hread : Written.read? '"' ('\\' :: 'u' :: a :: b :: c :: d :: cs) =
      if [a, b, c, d].all Text.isHexDigit then
        (Written.read? '"' cs).map fun x => (.numbered [a, b, c, d] :: x.1, x.2)
      else none := rfl
  rw [hread, if_pos hdigits, h]
  rfl

theorem Written.read?_escape {c e : Char} {cs rest : List Char} {w : Written}
    (hc : Json.Token.shortEscape? c = some e) (h : Written.read? '"' cs = some (w, rest)) :
    Written.read? '"' ('\\' :: c :: cs) = some (.escape c :: w, rest) := by
  have hread : ∀ c, (Written.read? '"' cs).map (fun x => (Piece.escape c :: x.1, x.2)) =
      some (.escape c :: w, rest) := by simp [h]
  unfold Json.Token.shortEscape? at hc
  split at hc
  · exact hread _
  · exact hread _
  · exact hread _
  · exact hread _
  · exact hread _
  · exact hread _
  · exact hread _
  · exact hread _
  · cases hc

/-- A character other than a backslash ends the text or stands in it. -/
theorem Written.read?_cons {c : Char} (hslash : c ≠ '\\') (cs : List Char) :
    Written.read? '"' (c :: cs) =
      if c = '"' then some ([], cs)
      else if c.toNat < 0x20 then none
      else (Written.read? '"' cs).map fun x => (.plain c :: x.1, x.2) := by
  conv_lhs => unfold Written.read?
  exact if_neg hslash

theorem Written.read?_plain {c : Char} {cs rest : List Char} {w : Written}
    (hquote : c ≠ '"') (hslash : c ≠ '\\') (hc : ¬c.toNat < 0x20)
    (h : Written.read? '"' cs = some (w, rest)) :
    Written.read? '"' (c :: cs) = some (.plain c :: w, rest) := by
  rw [Written.read?_cons hslash, if_neg hquote, if_neg hc, h]
  rfl

/-- Whether a text ends where the rest begins, piece by piece. -/
inductive IsText : (cs rest : List Char) → Prop
  | close (rest) : IsText ('"' :: rest) rest
  | numbered {a b c d cs rest} (hdigits : [a, b, c, d].all Text.isHexDigit) (h : IsText cs rest) :
      IsText ('\\' :: 'u' :: a :: b :: c :: d :: cs) rest
  | escape {c e cs rest} (hc : Json.Token.shortEscape? c = some e) (h : IsText cs rest) :
      IsText ('\\' :: c :: cs) rest
  | plain {c cs rest} (hquote : c ≠ '"') (hslash : c ≠ '\\') (hc : ¬c.toNat < 0x20)
      (h : IsText cs rest) : IsText (c :: cs) rest

theorem isText_of_text? {cs text rest : List Char}
    (h : Json.Token.text? cs = some (text, rest)) : IsText cs rest := by
  fun_induction Json.Token.text? cs generalizing text with
  | case1 => cases h
  | case2 cs =>
    obtain ⟨-, rfl⟩ := Prod.mk.inj (Option.some.inj h)
    exact .close _
  | case3 a b c d cs ihPair ih =>
    obtain ⟨n, hn, h⟩ := Option.bind_eq_some_iff.1 h
    refine .numbered (Text.all_isHexDigit_of_hexNumber? hn) ?_
    split at h
    · split at h
      · obtain ⟨m, hm, h⟩ := Option.bind_eq_some_iff.1 h
        split at h
        · obtain ⟨⟨text', rest'⟩, hrest, h⟩ := Option.bind_eq_some_iff.1 h
          obtain ⟨-, rfl⟩ := Prod.mk.inj (Option.some.inj h)
          exact .numbered (Text.all_isHexDigit_of_hexNumber? hm) (ihPair hrest)
        · cases h
      · cases h
    · split at h
      · cases h
      · obtain ⟨⟨text', rest'⟩, hrest, h⟩ := Option.bind_eq_some_iff.1 h
        obtain ⟨-, rfl⟩ := Prod.mk.inj (Option.some.inj h)
        exact ih hrest
  | case4 c cs _ ih =>
    obtain ⟨e, he, h⟩ := Option.bind_eq_some_iff.1 h
    obtain ⟨⟨text', rest'⟩, hrest, h⟩ := Option.bind_eq_some_iff.1 h
    obtain ⟨-, rfl⟩ := Prod.mk.inj (Option.some.inj h)
    exact .escape he (ih hrest)
  | case5 => cases h
  | case6 c cs hquote _ hslash hc ih =>
    obtain ⟨⟨text', rest'⟩, hrest, h⟩ := Option.bind_eq_some_iff.1 h
    obtain ⟨-, rfl⟩ := Prod.mk.inj (Option.some.inj h)
    have hrest := ih hrest
    refine .plain hquote (fun hc => ?_) hc hrest
    -- A backslash at the very end would have nothing after it, not even a quote.
    cases cs with
    | nil => cases hrest
    | cons d cs => exact hslash d cs hc rfl

theorem IsText.read? {cs rest : List Char} (h : IsText cs rest) :
    ∃ w, Written.read? '"' cs = some (w, rest) := by
  induction h with
  | close rest => exact ⟨[], (Written.read?_cons (by decide) rest).trans (if_pos rfl)⟩
  | numbered hdigits _ ih =>
    obtain ⟨w, hw⟩ := ih
    exact ⟨_, Written.read?_numbered hdigits hw⟩
  | escape hc _ ih =>
    obtain ⟨w, hw⟩ := ih
    exact ⟨_, Written.read?_escape hc hw⟩
  | plain hquote hslash hc _ ih =>
    obtain ⟨w, hw⟩ := ih
    exact ⟨_, Written.read?_plain hquote hslash hc hw⟩

/-! ## Ends of tokens -/

/-- Whether a character may follow a scalar in a document. -/
def isDelimiter (c : Char) : Bool :=
  Json.Token.isSpacing c || c == ':' || c == ',' || c == ']' || c == '\x7d'

theorem isDelimiter_iff {c : Char} :
    isDelimiter c ↔ c ∈ [' ', '\t', '\n', '\r', ':', ',', ']', '\x7d'] := by
  simp [isDelimiter, Json.Token.isSpacing, or_assoc]

/-- Whether what follows a token does not go on with it. -/
def Delimited (cs : List Char) : Prop := ∀ c ∈ cs.head?, isDelimiter c

/-! ## Numbers -/

theorem digits?_eq_some {cs ds rest : List Char} (h : Json.Token.digits? cs = some (ds, rest)) :
    cs.span Char.isDigit = (ds, rest) ∧ ds ≠ [] := by
  unfold Json.Token.digits? at h
  split at h
  · cases h
  · rename_i hne hspan
    obtain ⟨rfl, rfl⟩ := Prod.mk.inj (Option.some.inj h)
    exact ⟨hspan, hne⟩

/-- Digits end at the same place whatever is made of them. -/
theorem exists_span_of_digits? {α : Type} {cs rest : List Char} {a : α}
    {f : List Char × List Char → α × List Char}
    (h : (Json.Token.digits? cs).map f = some (a, rest)) (hf : ∀ x, (f x).2 = x.2) :
    ∃ d ds, cs.span Char.isDigit = (d :: ds, rest) := by
  obtain ⟨⟨ds, rest'⟩, hdigits, h⟩ := Option.map_eq_some_iff.1 h
  obtain ⟨hspan, hne⟩ := digits?_eq_some hdigits
  obtain ⟨d, ds, rfl⟩ := List.exists_cons_of_ne_nil hne
  have hrest := hf (d :: ds, rest')
  rw [h] at hrest
  dsimp only at hrest
  exact ⟨d, ds, hrest ▸ hspan⟩

theorem exponent?_of_exponent? {cs rest : List Char} {n : Option Int}
    (h : Json.Token.exponent? cs = some (n, rest)) :
    ∃ exponent, Token.exponent? cs = some (exponent, rest) := by
  unfold Json.Token.exponent? at h
  unfold Token.exponent?
  cases cs with
  | nil =>
    obtain ⟨-, rfl⟩ := Prod.mk.inj (Option.some.inj h)
    exact ⟨[], rfl⟩
  | cons e cs =>
    dsimp only at h ⊢
    split at h
    · rename_i he
      rw [if_pos he]
      split at h
      · obtain ⟨d, ds, hspan⟩ := exists_span_of_digits? h fun _ => rfl
        exact ⟨e :: '-' :: d :: ds, by simp only [hspan]; rfl⟩
      · obtain ⟨d, ds, hspan⟩ := exists_span_of_digits? h fun _ => rfl
        exact ⟨e :: '+' :: d :: ds, by simp only [hspan]; rfl⟩
      · obtain ⟨d, ds, hspan⟩ := exists_span_of_digits? h fun _ => rfl
        exact ⟨e :: d :: ds, by simp only [hspan]; rfl⟩
    · rename_i he
      rw [if_neg he]
      obtain ⟨-, rfl⟩ := Prod.mk.inj (Option.some.inj h)
      exact ⟨[], rfl⟩

theorem head_of_span {p : Char → Bool} {cs ds rest : List Char} (hne : ds ≠ [])
    (h : cs.span p = (ds, rest)) : ∃ c cs', cs = c :: cs' ∧ p c := by
  rw [List.span_eq_takeWhile_dropWhile] at h
  obtain ⟨rfl, -⟩ := Prod.mk.inj h
  cases cs with
  | nil => exact absurd rfl hne
  | cons c cs =>
    refine ⟨c, cs, rfl, ?_⟩
    by_contra hc
    exact hne (List.takeWhile_cons_of_neg hc)

/-- Whether a number literal without its sign ends where the rest begins. -/
def IsUnsigned (cs rest : List Char) : Prop :=
  ∃ whole part power cs₁ cs₂, Json.Token.integral? cs = some (whole, cs₁) ∧
    Json.Token.fraction? cs₁ = some (part, cs₂) ∧ Json.Token.exponent? cs₂ = some (power, rest)

theorem isUnsigned_of_number? {cs rest : List Char} {n : Number}
    (h : Json.Token.number? cs = some (n, rest)) :
    IsUnsigned cs rest ∨ ∃ cs', cs = '-' :: cs' ∧ IsUnsigned cs' rest := by
  unfold Json.Token.number? at h
  split at h
  rename_i negative unsigned hsign
  obtain ⟨⟨whole, cs₁⟩, hwhole, h⟩ := Option.bind_eq_some_iff.1 h
  obtain ⟨⟨part, cs₂⟩, hpart, h⟩ := Option.bind_eq_some_iff.1 h
  obtain ⟨⟨power, cs₃⟩, hpower, h⟩ := Option.bind_eq_some_iff.1 h
  obtain ⟨n', -, h⟩ := Option.bind_eq_some_iff.1 h
  obtain ⟨-, rfl⟩ := Prod.mk.inj (Option.some.inj h)
  have hunsigned : IsUnsigned unsigned cs₃ := ⟨whole, part, power, cs₁, cs₂, hwhole, hpart, hpower⟩
  split at hsign
  · obtain ⟨-, rfl⟩ := Prod.mk.inj hsign
    exact .inr ⟨_, rfl, hunsigned⟩
  · obtain ⟨-, rfl⟩ := Prod.mk.inj hsign
    exact .inl hunsigned

theorem integral_of_integral? {cs rest ds : List Char}
    (h : Json.Token.integral? cs = some (ds, rest)) : Token.integral cs = (ds, rest) ∧ ds ≠ [] := by
  unfold Json.Token.integral? at h
  fun_cases Token.integral cs with
  | case1 cs =>
    obtain ⟨rfl, rfl⟩ := Prod.mk.inj (Option.some.inj h)
    exact ⟨rfl, by simp⟩
  | case2 =>
    simp only at h
    exact digits?_eq_some h

theorem fraction_of_fraction? {cs rest : List Char} {ds : Option (List Char)}
    (h : Json.Token.fraction? cs = some (ds, rest)) : (Token.fraction cs).2 = rest := by
  unfold Json.Token.fraction? at h
  fun_cases Token.fraction cs with
  | case1 cs =>
    obtain ⟨_, _, hspan⟩ := exists_span_of_digits? h fun _ => rfl
    rw [hspan]
  | case2 =>
    simp only [Option.some.injEq, Prod.mk.injEq] at h
    exact h.2

theorem IsUnsigned.head {cs rest : List Char} (h : IsUnsigned cs rest) :
    ∃ c cs', cs = c :: cs' ∧ c.isDigit := by
  obtain ⟨whole, _, _, cs₁, _, hwhole, -⟩ := h
  unfold Json.Token.integral? at hwhole
  split at hwhole
  · exact ⟨'0', _, rfl, rfl⟩
  · obtain ⟨hspan, hne⟩ := digits?_eq_some hwhole
    exact head_of_span hne hspan

theorem head_of_number? {cs rest : List Char} {n : Number}
    (h : Json.Token.number? cs = some (n, rest)) :
    ∃ c cs', cs = c :: cs' ∧ (c = '-' ∨ c.isDigit) := by
  rcases isUnsigned_of_number? h with hunsigned | ⟨cs', rfl, -⟩
  · obtain ⟨c, cs', hcs, hc⟩ := hunsigned.head
    exact ⟨c, cs', hcs, .inr hc⟩
  · exact ⟨_, _, rfl, .inl rfl⟩

theorem decimal?_of_isUnsigned {cs rest : List Char} (h : IsUnsigned cs rest) (negative : Bool) :
    ∃ whole part power,
      Token.decimal? negative cs = some (.decimal negative whole part power, rest) := by
  obtain ⟨whole, part, power, cs₁, cs₂, hwhole, hpart, hpower⟩ := h
  obtain ⟨hwhole, hne⟩ := integral_of_integral? hwhole
  obtain ⟨power', hpower⟩ := exponent?_of_exponent? hpower
  have hpart := fraction_of_fraction? hpart
  refine ⟨whole, (Token.fraction cs₁).1, power', ?_⟩
  have hwritten : (whole.isEmpty && ((Token.fraction cs₁).1.getD []).isEmpty) = false := by
    simp [hne]
  unfold Token.decimal?
  simp only [hwhole, hwritten, hpart, hpower, Bool.false_eq_true, if_false, Option.map_some]

/-- A literal that begins with a zero cannot go on as a hexadecimal one. -/
theorem hexadecimal?_of_isUnsigned {cs rest : List Char} (h : IsUnsigned cs rest)
    (hrest : Delimited rest) (negative : Bool) : Token.hexadecimal? negative cs = none := by
  obtain ⟨whole, part, power, cs₁, cs₂, hwhole, hpart, hpower⟩ := h
  unfold Token.hexadecimal?
  split
  · rename_i x cs
    obtain ⟨rfl, rfl⟩ := Prod.mk.inj (Option.some.inj hwhole)
    split
    · rename_i hx
      rcases hx with rfl | rfl
      all_goals
        obtain ⟨-, rfl⟩ := Prod.mk.inj (Option.some.inj hpart)
        obtain ⟨-, rfl⟩ := Prod.mk.inj (Option.some.inj hpower)
        cases hrest _ rfl
    · rfl
  · rfl

theorem toLower_of_isDigit {c : Char} (h : c.isDigit) : c.toLower = c := by
  refine dif_neg fun hupper => ?_
  have hle := (Char.isDigit_iff_toNat.1 h).2
  have hge : 'A'.toNat ≤ c.toNat := UInt32.le_iff_toNat_le.1 hupper.1
  exact absurd (Nat.le_trans hge hle) (by decide)

/-- A digit does not begin a name. -/
theorem infinity?_of_isUnsigned {cs rest : List Char} (h : IsUnsigned cs rest) (negative : Bool) :
    Token.infinity? negative cs = none := by
  obtain ⟨c, cs', rfl, hc⟩ := h.head
  have hname : ∀ n (name : String), name.toList.head? = some 'i' →
      String.ofList (((c :: cs').take (n + 1)).map Char.toLower) ≠ name := by
    rintro n _ hname rfl
    rw [String.toList_ofList, List.take_succ_cons, List.map_cons, List.head?_cons,
      toLower_of_isDigit hc, Option.some.injEq] at hname
    rw [hname] at hc
    exact absurd hc (by decide)
  unfold Token.infinity?
  simp only [hname 7 "infinity" rfl, hname 2 "inf" rfl, if_false]

theorem numeral?_of_number? {cs rest : List Char} {n : Number}
    (h : Json.Token.number? cs = some (n, rest)) (hrest : Delimited rest) :
    ∃ negative whole part power,
      Token.numeral? cs = some (.decimal negative whole part power, rest) := by
  rcases isUnsigned_of_number? h with hunsigned | ⟨cs', rfl, hunsigned⟩
  · obtain ⟨whole, part, power, hdecimal⟩ := decimal?_of_isUnsigned hunsigned false
    refine ⟨false, whole, part, power, ?_⟩
    obtain ⟨c, cs', rfl, hc⟩ := hunsigned.head
    unfold Token.numeral?
    split
    · rename_i hsign
      rw [(List.cons.inj hsign).1] at hc
      exact absurd hc (by decide)
    · rename_i hsign
      rw [(List.cons.inj hsign).1] at hc
      exact absurd hc (by decide)
    · rw [hexadecimal?_of_isUnsigned hunsigned hrest, hdecimal]
      rfl
  · obtain ⟨whole, part, power, hdecimal⟩ := decimal?_of_isUnsigned hunsigned true
    refine ⟨true, whole, part, power, ?_⟩
    change (Token.hexadecimal? true cs').or ((Token.infinity? true cs').or _) = _
    rw [hexadecimal?_of_isUnsigned hunsigned hrest, infinity?_of_isUnsigned hunsigned, hdecimal]
    rfl

/-! ## Tokens -/

/-- Whether a token of a relaxed document stands where a document has a certain token. -/
inductive Echoes : Json.Token → Token → Prop
  | openArray : Echoes .openArray .openArray
  | closeArray : Echoes .closeArray .closeArray
  | openObject : Echoes .openObject .openObject
  | closeObject : Echoes .closeObject .closeObject
  | colon : Echoes .colon .colon
  | comma : Echoes .comma .comma
  | text {s w} : Echoes (.scalar (.string s)) (.text w)
  | null {w} (h : value? w = some .null) : Echoes (.scalar .null) (.word w)
  | bool {b w} (h : value? w = some (.bool b)) : Echoes (.scalar (.bool b)) (.word w)
  | number {n negative whole part power} :
      Echoes (.scalar (.number n)) (.numeral (.decimal negative whole part power))

theorem takeWord_of_delimited {cs : List Char} (h : Delimited cs) :
    Token.takeWord cs = ([], cs) := by
  cases cs with
  | nil => rfl
  | cons c cs =>
    have hc := isDelimiter_iff.1 (h c rfl)
    simp only [List.mem_cons, List.not_mem_nil, or_false] at hc
    rcases hc with rfl | rfl | rfl | rfl | rfl | rfl | rfl | rfl <;> rfl

theorem next?_numeral {c : Char} (h : c = '-' ∨ c.isDigit) (cs : List Char) :
    Token.next? (c :: cs) =
      (Token.numeral? (c :: cs)).map fun x => (.numeral x.1, x.2) := by
  have hstart : (c == '+' || c == '-' || c == '.' || c.isDigit) = true := by
    rcases h with rfl | h
    · rfl
    · rw [h, Bool.or_true]
  unfold Token.next?
  split
  case h_9 hcs =>
    obtain ⟨rfl, rfl⟩ := List.cons.inj hcs
    rw [if_pos hstart]
  case h_10 hcs => cases hcs
  -- Neither a mark nor a quote begins a number.
  all_goals
    rename_i hcs
    rw [(List.cons.inj hcs).1] at h
    exact absurd h (by decide)

theorem next?_literal (name : String) (hname : name ∈ ["null", "true", "false"]) {cs : List Char}
    (h : Delimited cs) :
    Token.next? (name.toList ++ cs) = some (.word (name.toList.map .plain), cs) := by
  have hword : Token.next? (name.toList ++ cs) = some
      (.word (name.toList.map .plain ++ (Token.takeWord cs).1), (Token.takeWord cs).2) := by
    simp only [List.mem_cons, List.not_mem_nil, or_false] at hname
    rcases hname with rfl | rfl | rfl <;> rfl
  rw [hword, takeWord_of_delimited h, List.append_nil]

/-- **Tokens are cut at the same places**, as long as a literal name or a number has its end. -/
theorem next?_of_next? {cs rest : List Char} {t : Json.Token}
    (h : Json.Token.next? cs = some (t, rest))
    (hrest : ∀ v, t = .scalar v → Delimited rest) :
    ∃ t', Token.next? cs = some (t', rest) ∧ Echoes t t' := by
  unfold Json.Token.next? at h
  split at h
  · obtain ⟨rfl, rfl⟩ := Prod.mk.inj (Option.some.inj h)
    exact ⟨_, rfl, .openArray⟩
  · obtain ⟨rfl, rfl⟩ := Prod.mk.inj (Option.some.inj h)
    exact ⟨_, rfl, .closeArray⟩
  · obtain ⟨rfl, rfl⟩ := Prod.mk.inj (Option.some.inj h)
    exact ⟨_, rfl, .openObject⟩
  · obtain ⟨rfl, rfl⟩ := Prod.mk.inj (Option.some.inj h)
    exact ⟨_, rfl, .closeObject⟩
  · obtain ⟨rfl, rfl⟩ := Prod.mk.inj (Option.some.inj h)
    exact ⟨_, rfl, .colon⟩
  · obtain ⟨rfl, rfl⟩ := Prod.mk.inj (Option.some.inj h)
    exact ⟨_, rfl, .comma⟩
  · rename_i cs
    obtain ⟨⟨s, rest'⟩, htext, h⟩ := Option.map_eq_some_iff.1 h
    obtain ⟨rfl, rfl⟩ := Prod.mk.inj h
    obtain ⟨w, hw⟩ := (isText_of_text? htext).read?
    refine ⟨.text w, ?_, .text⟩
    change (Written.read? '"' cs).map _ = _
    rw [hw]
    rfl
  · obtain ⟨rfl, rfl⟩ := Prod.mk.inj (Option.some.inj h)
    exact ⟨_, next?_literal "null" (by simp) (hrest _ rfl), .null rfl⟩
  · obtain ⟨rfl, rfl⟩ := Prod.mk.inj (Option.some.inj h)
    exact ⟨_, next?_literal "true" (by simp) (hrest _ rfl), .bool rfl⟩
  · obtain ⟨rfl, rfl⟩ := Prod.mk.inj (Option.some.inj h)
    exact ⟨_, next?_literal "false" (by simp) (hrest _ rfl), .bool rfl⟩
  · obtain ⟨⟨n, rest'⟩, hnumber, h⟩ := Option.map_eq_some_iff.1 h
    obtain ⟨rfl, rfl⟩ := Prod.mk.inj h
    obtain ⟨negative, whole, part, power, hnumeral⟩ := numeral?_of_number? hnumber (hrest _ rfl)
    obtain ⟨c, cs', rfl, hc⟩ := head_of_number? hnumber
    refine ⟨.numeral (.decimal negative whole part power), ?_, .number⟩
    rw [next?_numeral hc, hnumeral]
    rfl

/-! ## Between tokens -/

/-- What begins a token is left out nowhere. -/
theorem not_spacing_of_next? {c : Char} {cs rest : List Char} {t : Json.Token}
    (h : Json.Token.next? (c :: cs) = some (t, rest)) :
    Token.isSpacing c = false ∧ c ≠ '/' := by
  have hdigit : c = '-' ∨ c.isDigit → Token.isSpacing c = false ∧ c ≠ '/' := by
    rintro (rfl | hc)
    · decide
    · obtain ⟨hge, hle⟩ := Char.isDigit_iff_toNat.1 hc
      change 48 ≤ c.toNat at hge
      change c.toNat ≤ 57 at hle
      constructor
      · simp only [Token.isSpacing, Bool.or_eq_false_iff, Bool.and_eq_false_iff,
          decide_eq_false_iff_not, beq_eq_false_iff_ne]
        omega
      · rintro rfl
        exact absurd hc (by decide)
  unfold Json.Token.next? at h
  split at h
  case h_11 =>
    obtain ⟨⟨n, rest'⟩, hnumber, -⟩ := Option.map_eq_some_iff.1 h
    obtain ⟨d, cs', hcs, hd⟩ := head_of_number? hnumber
    rw [← (List.cons.inj hcs).1] at hd
    exact hdigit hd
  all_goals
    rename_i hcs
    rw [(List.cons.inj hcs).1]
    decide

theorem skip?_cons_of_isSpacing {c : Char} (h : Json.Token.isSpacing c) (cs : List Char) :
    Token.skip? .outside (c :: cs) = Token.skip? .outside cs := by
  simp only [Json.Token.isSpacing, Bool.or_eq_true, beq_iff_eq] at h
  rcases h with ((rfl | rfl) | rfl) | rfl <;> rfl

theorem skip?_cons_of_next? {c : Char} {cs rest : List Char} {t : Json.Token}
    (h : Json.Token.next? (c :: cs) = some (t, rest)) :
    Token.skip? .outside (c :: cs) = some (c :: cs) := by
  obtain ⟨hspacing, hslash⟩ := not_spacing_of_next? h
  unfold Token.skip?
  split
  case h_3 hcs =>
    obtain ⟨rfl, rfl⟩ := List.cons.inj hcs
    rw [hspacing]
    rfl
  case h_1 hcs => exact absurd (List.cons.inj hcs).1 hslash
  case h_2 hcs => exact absurd (List.cons.inj hcs).1 hslash
  case h_4 hcs => cases hcs
  all_goals contradiction

/-- **Between tokens stand only blanks**, which are left out alike. -/
theorem skip?_eq {cs : List Char}
    (h : cs.dropWhile Json.Token.isSpacing = [] ∨ ∃ t rest,
      Json.Token.next? (cs.dropWhile Json.Token.isSpacing) = some (t, rest)) :
    Token.skip? .outside cs = some (cs.dropWhile Json.Token.isSpacing) := by
  induction cs with
  | nil => rfl
  | cons c cs ih =>
    rw [List.dropWhile_cons] at h ⊢
    split
    · rename_i hc
      rw [if_pos hc] at h
      rw [skip?_cons_of_isSpacing hc, ih h]
    · rename_i hc
      rw [if_neg hc] at h
      rcases h with h | ⟨t, rest, h⟩
      · cases h
      · exact skip?_cons_of_next? h

/-! ## The character 0 -/

theorem nul_notMem_of_dropWhile {p : Char → Bool} (hp : p '\x00' = false) {cs : List Char}
    (h : '\x00' ∉ cs.dropWhile p) : '\x00' ∉ cs := by
  induction cs with
  | nil => exact h
  | cons c cs ih =>
    rw [List.dropWhile_cons] at h
    split at h
    · rename_i hc
      have hc : '\x00' ≠ c := by
        rintro rfl
        rw [hp] at hc
        cases hc
      simp [hc, ih h]
    · exact h

theorem IsText.nul_notMem {cs rest : List Char} (h : IsText cs rest) (hrest : '\x00' ∉ rest) :
    '\x00' ∉ cs := by
  induction h with
  | close rest => simpa using hrest
  | @numbered a b c d cs _ hdigits _ ih =>
    intro hnul
    change '\x00' ∈ ['\\', 'u'] ++ ([a, b, c, d] ++ cs) at hnul
    rw [List.mem_append, List.mem_append] at hnul
    rcases hnul with hnul | hnul | hnul
    · exact absurd hnul (by decide)
    · exact absurd (List.all_eq_true.1 hdigits _ hnul) (by decide)
    · exact ih hrest hnul
  | @escape c _ _ _ hc _ ih =>
    have hc : c ≠ '\x00' := by
      rintro rfl
      cases hc
    simp [hc.symm, ih hrest]
  | @plain c _ _ _ _ hc _ ih =>
    have hc : c ≠ '\x00' := by
      rintro rfl
      exact hc (by decide)
    simp [hc.symm, ih hrest]

theorem nul_notMem_of_span {cs rest : List Char}
    (h : ∃ d ds, cs.span Char.isDigit = (d :: ds, rest)) (hrest : '\x00' ∉ rest) :
    '\x00' ∉ cs := by
  obtain ⟨d, ds, hspan⟩ := h
  rw [List.span_eq_takeWhile_dropWhile] at hspan
  obtain ⟨-, rfl⟩ := Prod.mk.inj hspan
  exact nul_notMem_of_dropWhile rfl hrest

theorem nul_notMem_of_exponent? {cs rest : List Char} {power : Option Int}
    (h : Json.Token.exponent? cs = some (power, rest)) (hrest : '\x00' ∉ rest) : '\x00' ∉ cs := by
  unfold Json.Token.exponent? at h
  split at h
  · rename_i c cs
    split at h
    · rename_i he
      have he : '\x00' ≠ c := by
        rintro rfl
        revert he
        decide
      have hcs : '\x00' ∉ cs := by
        dsimp only at h
        split at h
        · simpa using nul_notMem_of_span (exists_span_of_digits? h fun _ => rfl) hrest
        · simpa using nul_notMem_of_span (exists_span_of_digits? h fun _ => rfl) hrest
        · exact nul_notMem_of_span (exists_span_of_digits? h fun _ => rfl) hrest
      simp [he, hcs]
    · obtain ⟨-, rfl⟩ := Prod.mk.inj (Option.some.inj h)
      exact hrest
  · simp

theorem IsUnsigned.nul_notMem {cs rest : List Char} (h : IsUnsigned cs rest)
    (hrest : '\x00' ∉ rest) : '\x00' ∉ cs := by
  obtain ⟨whole, part, power, cs₁, cs₂, hwhole, hpart, hpower⟩ := h
  have hcs₂ : '\x00' ∉ cs₂ := nul_notMem_of_exponent? hpower hrest
  have hcs₁ : '\x00' ∉ cs₁ := by
    unfold Json.Token.fraction? at hpart
    split at hpart
    · simpa using nul_notMem_of_span (exists_span_of_digits? hpart fun _ => rfl) hcs₂
    · obtain ⟨-, rfl⟩ := Prod.mk.inj (Option.some.inj hpart)
      exact hcs₂
  unfold Json.Token.integral? at hwhole
  split at hwhole
  · obtain ⟨-, rfl⟩ := Prod.mk.inj (Option.some.inj hwhole)
    simpa using hcs₁
  · obtain ⟨hspan, hne⟩ := digits?_eq_some hwhole
    obtain ⟨d, ds, rfl⟩ := List.exists_cons_of_ne_nil hne
    exact nul_notMem_of_span ⟨d, ds, hspan⟩ hcs₁

theorem nul_notMem_of_next? {cs rest : List Char} {t : Json.Token}
    (h : Json.Token.next? cs = some (t, rest)) (hrest : '\x00' ∉ rest) : '\x00' ∉ cs := by
  unfold Json.Token.next? at h
  split at h
  case h_7 =>
    obtain ⟨⟨s, rest'⟩, htext, h⟩ := Option.map_eq_some_iff.1 h
    obtain ⟨-, rfl⟩ := Prod.mk.inj h
    simpa using (isText_of_text? htext).nul_notMem hrest
  case h_11 =>
    obtain ⟨⟨n, rest'⟩, hnumber, h⟩ := Option.map_eq_some_iff.1 h
    obtain ⟨-, rfl⟩ := Prod.mk.inj h
    rcases isUnsigned_of_number? hnumber with hunsigned | ⟨cs', rfl, hunsigned⟩
    · exact hunsigned.nul_notMem hrest
    · simpa using hunsigned.nul_notMem hrest
  all_goals
    obtain ⟨-, rfl⟩ := Prod.mk.inj (Option.some.inj h)
    simpa using hrest

/-- **The character 0 stands in no document.** -/
theorem nul_notMem_of_all? {fuel : Nat} {cs : List Char} {ts : List Json.Token}
    (h : Json.Token.all? fuel cs = some ts) : '\x00' ∉ cs := by
  refine nul_notMem_of_dropWhile (p := Json.Token.isSpacing) rfl ?_
  induction fuel generalizing cs ts with
  | zero =>
    unfold Json.Token.all? at h
    split at h
    · rename_i hempty
      simp [List.isEmpty_iff.1 hempty]
    · cases h
  | succ fuel ih =>
    unfold Json.Token.all? at h
    split at h
    · rename_i hempty
      simp [hempty]
    · obtain ⟨⟨t, rest⟩, hnext, h⟩ := Option.bind_eq_some_iff.1 h
      obtain ⟨ts', hrest, -⟩ := Option.bind_eq_some_iff.1 h
      exact nul_notMem_of_next? hnext (nul_notMem_of_dropWhile rfl (ih hrest))

end Json5

end SchemaVault
