import SchemaVault.Proofs.Json.Sameness
import SchemaVault.Proofs.Schema.Evolution
import SchemaVault.Proofs.Schema.Reports

/-!
# Integers are exact

Integers are kept and compared as they are, however large. A bound of an integer is told exactly
when it fails, and a step exactly when it does not divide the integer (`isMet_integer_iff`). Without
doubles sameness is equality, at any depth, so that a constant and a list of allowed values accept
these values and no others, and an array is told that its items must be unique exactly when it has
one item twice (`integers_exact`).
-/

namespace SchemaVault

open Definition Schema

variable {members : Json.Members} {pointer : String}

/-! ## Bounds and steps -/

/-- When an integer `i` misses a keyword under which an integer `m` is asked. -/
def Definition.Keyword.Fails : Keyword → (m i : Int) → Prop
  | minimum, m, i => i < m
  | maximum, m, i => m < i
  | exclusiveMinimum, m, i => i ≤ m
  | exclusiveMaximum, m, i => m ≤ i
  | multipleOf, m, i => ¬m ∣ i
  | _, _, _ => False

/-- **A bound or a step fails as an inequality or a divisor does.** -/
theorem isMet_integer_iff {k : Keyword} (hk : k ∈ Keyword.forNumbers) {m i : Int} {hm hi} :
    k.isMet (.number (.integer m hm)) (.number (.integer i hi)) = false ↔ k.Fails m i := by
  have hlt := @Number.compare_isLT_iff i m hi hm
  have hgt := @Number.compare_isGT_iff i m hi hm
  have hdvd := @Number.isMultiple_integer_iff i m hi hm
  simp only [Keyword.forNumbers, List.mem_cons, List.not_mem_nil, or_false] at hk
  rcases hk with rfl | rfl | rfl | rfl | rfl
  · rw [Keyword.isMet, Bool.not_eq_false', hlt, Keyword.Fails]
  · rw [Keyword.isMet, Bool.not_eq_false', hgt, Keyword.Fails]
  · rw [Keyword.isMet, ← Bool.not_eq_true, hgt, Keyword.Fails, Int.not_lt]
  · rw [Keyword.isMet, ← Bool.not_eq_true, hlt, Keyword.Fails, Int.not_lt]
  · rw [Keyword.isMet, ← Bool.not_eq_true, hdvd, Keyword.Fails]

/-- The words for an integer that is asked. -/
theorem wording_integer {k : Keyword} (hk : k ∈ Keyword.forNumbers) (m : Int) (hm) :
    k.wording (.number (.integer m hm)) = k.lead ++ toString m := by
  have hprint : (Json.number (.integer m hm)).print = toString m := Json.print_number _
  rw [Keyword.wording, ← hprint]
  simp only [Keyword.forNumbers, List.mem_cons, List.not_mem_nil, or_false] at hk
  rcases hk with rfl | rfl | rfl | rfl | rfl <;> rfl

/-! ## Constants, allowed values and unique items -/

/-- Without doubles a constant accepts what is equal to it. -/
theorem isMet_const_iff {c v : Json} (hc : c.Ordered) (hv : v.Ordered) (hexact : c.IsExact)
    (hexact' : v.IsExact) : Keyword.const.isMet c v ↔ v = c := by
  rw [Keyword.isMet, hc.same_iff_eq hv hexact hexact', eq_comm]

/-- Without doubles a list of allowed values accepts what is in it. -/
theorem isMet_enum_iff {allowed : List Json} {v : Json} (hallowed : (Json.array allowed).Ordered)
    (hv : v.Ordered) (hexact : (Json.array allowed).IsExact) (hexact' : v.IsExact) :
    Keyword.enum.isMet (.array allowed) v ↔ v ∈ allowed := by
  have hsame : ∀ a ∈ allowed, (a.same v ↔ a = v) := by
    intro a ha
    obtain ⟨n, hn⟩ := List.mem_iff_getElem?.1 ha
    exact (hallowed.of_getElem? hn).same_iff_eq hv (hexact.of_getElem? hn) hexact'
  rw [Keyword.isMet, List.any_eq_true]
  constructor
  · rintro ⟨a, ha, h⟩
    rwa [← (hsame a ha).1 h]
  · intro ha
    exact ⟨v, ha, (hsame v ha).2 rfl⟩

/-- Without doubles an array has a duplicate exactly if it has one item twice. -/
theorem hasDuplicate_exact_iff {vs : List Json} (hvs : (Json.array vs).Ordered)
    (hexact : (Json.array vs).IsExact) :
    hasDuplicate vs ↔ ∃ (m n : Nat) (w : Json), m < n ∧ vs[m]? = some w ∧ vs[n]? = some w := by
  rw [hasDuplicate_iff]
  constructor
  · rintro ⟨m, n, x, y, hlt, hx, hy, hsame⟩
    have hyx : y = x := ((hvs.of_getElem? hy).same_iff_eq (hvs.of_getElem? hx)
      (hexact.of_getElem? hy) (hexact.of_getElem? hx)).1 hsame
    exact ⟨m, n, x, hlt, hx, hyx ▸ hy⟩
  · rintro ⟨m, n, w, hlt, hm, hn⟩
    exact ⟨m, n, w, w, hlt, hm, hn, (hvs.of_getElem? hm).same_refl⟩

/-! ## Payloads -/

/-- What is asked under a keyword, in the terms of the definition without it. -/
theorem issuesAt_eq_nil_iff_dropped {k : Keyword} {asked : Json}
    (h : (compileAt (.object members) pointer).issues = [])
    (hasked : members.lookup k.name = some asked) (v : Json) (path : String) :
    (compileAt (.object members) pointer).value.issuesAt v path = [] ↔
      Satisfied (.object (members.filter (·.1 != k.name))) v ∧ k.isMet asked v := by
  have hmisses : misses members v k = false ↔ k.isMet asked v := by
    rw [misses, hasked, Option.any_some, Bool.not_eq_false']
  rw [← List.length_eq_zero_iff, length_issuesAt _ _ h, violations_eq_zero_iff,
    satisfied_iff_dropped k, hmisses]

/-- **Integers are exact at every magnitude.** For a definition that compiles, at whatever place:

* an integer of a kind that is allowed is told of an integer bound exactly if the inequality fails,
  and of an integer step exactly if the step does not divide it;
* documents without doubles are the same exactly if they are equal;
* such a payload is accepted exactly if the rest of the definition accepts it and it is equal to the
  constant, or is one of the allowed values;
* such an array of a kind that is allowed is told that its items must be unique exactly if it has
  the same item at two places. -/
theorem integers_exact {s : Schema} (h : compileAt (.object members) pointer = ⟨s, []⟩)
    (hordered : (Json.object members).Ordered) :
    (∀ k ∈ Keyword.forNumbers, ∀ m hm, members.lookup k.name = some (.number (.integer m hm)) →
      ∀ i hi path, ⟨path, k.lead ++ toString m⟩ ∈ s.issuesAt (.number (.integer i hi)) path ↔
        allowsKind members (.number (.integer i hi)) ∧ k.Fails m i) ∧
      (∀ a b : Json, a.Ordered → b.Ordered → a.IsExact → b.IsExact → (a.same b ↔ a = b)) ∧
      (∀ c, members.lookup "const" = some c → c.IsExact → ∀ v : Json, v.Ordered → v.IsExact →
        ∀ path, s.issuesAt v path = [] ↔
          Satisfied (.object (members.filter (·.1 != "const"))) v ∧ v = c) ∧
      (∀ allowed, members.lookup "enum" = some (.array allowed) → (Json.array allowed).IsExact →
        ∀ v : Json, v.Ordered → v.IsExact →
          ∀ path, s.issuesAt v path = [] ↔
            Satisfied (.object (members.filter (·.1 != "enum"))) v ∧ v ∈ allowed) ∧
      (members.lookup "uniqueItems" = some (.bool true) → ∀ vs : List Json,
        (Json.array vs).Ordered → (Json.array vs).IsExact →
          ∀ path, ⟨path, "items must be unique"⟩ ∈ s.issuesAt (.array vs) path ↔
            allowsKind members (.array vs) ∧
              ∃ (m n : Nat) (w : Json), m < n ∧ vs[m]? = some w ∧ vs[n]? = some w) := by
  obtain rfl : (compileAt (.object members) pointer).value = s := by rw [h]
  have hclean : (compileAt (.object members) pointer).issues = [] := by rw [h]
  refine ⟨?_, ?_, ?_, ?_, ?_⟩
  · intro k hk m hm hasked i hi path
    rw [← wording_integer hk m hm, mem_issuesAt_iff hclean rfl hasked, isMet_integer_iff hk]
  · intro a b ha hb hexact hexact'
    exact ha.same_iff_eq hb hexact hexact'
  · intro c hasked hexact v hv hexact' path
    rw [issuesAt_eq_nil_iff_dropped (k := .const) hclean hasked,
      isMet_const_iff (hordered.of_lookup hasked) hv hexact hexact', Keyword.name]
  · intro allowed hasked hexact v hv hexact' path
    rw [issuesAt_eq_nil_iff_dropped (k := .enum) hclean hasked,
      isMet_enum_iff (hordered.of_lookup hasked) hv hexact hexact', Keyword.name]
  · intro hasked vs hvs hexact path
    rw [mem_issuesAt_unique_iff hclean hasked, hasDuplicate_exact_iff hvs hexact]

namespace Sample

/-- A definition that bounds integers by the greatest but one that there is. -/
def bounded : Json.Members :=
  [("maximum", .number (.integer 0xFFFFFFFFFFFFFFFE (by omega))), ("uniqueItems", .bool true)]

theorem bounded_ordered : (Json.object bounded).Ordered := by
  have hnames : Json.Ascending bounded := by
    unfold Json.Ascending
    decide
  refine .object hnames ?_
  simp only [bounded, List.forall_mem_cons]
  exact ⟨.number _, .bool true, by simp⟩

theorem issues_bounded : (compileAt (.object bounded) "#").issues = [] := by
  rw [compileAt_of_no_parts rfl rfl rfl]
  rfl

/-- The greatest integer is above the bound, and the one before it is not. -/
theorem integers_exact_bounded : ∃ s, compileAt (.object bounded) "#" = ⟨s, []⟩ ∧
    ⟨"$", "must be <= 18446744073709551614"⟩ ∈
      s.issuesAt (.number (.integer 0xFFFFFFFFFFFFFFFF (by omega))) "$" ∧
    ⟨"$", "must be <= 18446744073709551614"⟩ ∉
      s.issuesAt (.number (.integer 0xFFFFFFFFFFFFFFFE (by omega))) "$" := by
  have h : compileAt (.object bounded) "#" = ⟨(compileAt (.object bounded) "#").value, []⟩ := by
    rw [← issues_bounded]
  have hmaximum : Keyword.maximum ∈ Keyword.forNumbers := by simp [Keyword.forNumbers]
  have hbound := (integers_exact h bounded_ordered).1 .maximum hmaximum _ _ rfl
  have hwords : Keyword.maximum.lead ++ toString (0xFFFFFFFFFFFFFFFE : Int) =
      "must be <= 18446744073709551614" := by decide
  rw [hwords] at hbound
  refine ⟨_, h, (hbound _ _ _).2 ⟨rfl, ?_⟩, fun htold => ?_⟩
  · show (0xFFFFFFFFFFFFFFFE : Int) < 0xFFFFFFFFFFFFFFFF
    omega
  · have hfails : (0xFFFFFFFFFFFFFFFE : Int) < 0xFFFFFFFFFFFFFFFE := ((hbound _ _ _).1 htold).2
    omega

end Sample

end SchemaVault
