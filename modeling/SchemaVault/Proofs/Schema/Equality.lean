import SchemaVault.Proofs.Schema.Integers

/-!
# Constants and unique items up to sameness

An integer and a double are compared after the integer has been rounded, and so two different
integers can be the same as one double (`same_not_transitive`). That is the only way in which
sameness is no equivalence (`same_laws`): it is reflexive and symmetric, and documents that are the
same as a third are the same unless it blurs them. The same holds of two payloads that a constant
accepts, and an item of an array can be exchanged for one that is the same, unless the exchange
blurs the item and another, without a change of whether the items are unique.
-/

namespace SchemaVault

open Definition Schema

variable {members : Json.Members} {pointer path : String} {a b c : Json} {vs : List Json} {n : Nat}

/-! ## Constants -/

/-- A payload that is accepted is the same as the constant, if there is one. -/
theorem same_const_of_accepted (h : (compileAt (.object members) pointer).issues = [])
    (hconst : members.lookup "const" = some c)
    (haccepted : (compileAt (.object members) pointer).value.issuesAt a path = []) : c.same a := by
  have hmet := ((issuesAt_eq_nil_iff_dropped (k := .const) h hconst a path).1 haccepted).2
  rwa [Keyword.isMet] at hmet

/-! ## Unique items -/

/-- An array keeps its duplicates when an item is exchanged for one that is the same as all the
others that the item is the same as. -/
theorem hasDuplicate_set (hitem : vs[n]? = some a)
    (hsame : ∀ m z, m ≠ n → vs[m]? = some z → (a.same z → b.same z) ∧ (z.same a → z.same b))
    (h : hasDuplicate vs) : hasDuplicate (vs.set n b) := by
  obtain ⟨i, j, x, y, hlt, hx, hy, hyx⟩ := (hasDuplicate_iff vs).1 h
  have hn : n < vs.length := (List.getElem?_eq_some_iff.1 hitem).1
  have hset : (vs.set n b)[n]? = some b := List.getElem?_set_self hn
  have hkept {m : Nat} (hm : m ≠ n) : (vs.set n b)[m]? = vs[m]? := List.getElem?_set_ne hm.symm
  refine (hasDuplicate_iff _).2 ?_
  by_cases hi : i = n
  · subst hi
    obtain rfl := Option.some.inj (hx.symm.trans hitem)
    have hj : j ≠ i := by omega
    exact ⟨i, j, b, y, hlt, hset, (hkept hj).trans hy, (hsame j y hj hy).2 hyx⟩
  · by_cases hj : j = n
    · subst hj
      obtain rfl := Option.some.inj (hy.symm.trans hitem)
      exact ⟨i, j, x, b, hlt, (hkept hi).trans hx, hset, (hsame i x hi hx).1 hyx⟩
    · exact ⟨i, j, x, y, hlt, (hkept hi).trans hx, (hkept hj).trans hy, hyx⟩

/-- What is the same as an item is the same as one that is the same, unless the item blurs them. -/
theorem same_of_exchange (ha : a.Ordered) (hb : b.Ordered) (hc : c.Ordered) (hab : a.same b)
    (hblurs : ¬Json.Blurs c a b) : (a.same c → b.same c) ∧ (c.same a → c.same b) := by
  have hleft : c.same a → c.same b := fun hca => (hc.same_iff_not_blurs ha hb hca hab).2 hblurs
  exact ⟨fun hac => hc.same_symm hb (hleft (ha.same_symm hc hac)), hleft⟩

/-- **Whether items are unique does not depend on which of two same items appears**, unless one of
them blurs the other and a further item. -/
theorem hasDuplicate_exchange (hvs : (Json.array vs).Ordered) (hb : b.Ordered)
    (hitem : vs[n]? = some a) (hab : a.same b)
    (hblurs : ∀ m z, m ≠ n → vs[m]? = some z → ¬Json.Blurs z a b ∧ ¬Json.Blurs z b a) :
    hasDuplicate (vs.set n b) = hasDuplicate vs := by
  have ha : a.Ordered := hvs.of_getElem? hitem
  have hn : n < vs.length := (List.getElem?_eq_some_iff.1 hitem).1
  have hset : (vs.set n b)[n]? = some b := List.getElem?_set_self hn
  have hback : (vs.set n b).set n a = vs := by
    rw [List.set_set]
    obtain ⟨_, rfl⟩ := List.getElem?_eq_some_iff.1 hitem
    exact List.set_getElem_self hn
  rw [Bool.eq_iff_iff]
  constructor
  · intro h
    rw [← hback]
    refine hasDuplicate_set hset (fun m z hm hz => ?_) h
    rw [List.getElem?_set_ne hm.symm] at hz
    exact same_of_exchange hb ha (hvs.of_getElem? hz) (ha.same_symm hb hab) (hblurs m z hm hz).2
  · refine hasDuplicate_set hitem fun m z hm hz => ?_
    exact same_of_exchange ha hb (hvs.of_getElem? hz) hab (hblurs m z hm hz).1

/-! ## The laws of sameness -/

/-- **Sameness is an equivalence but for doubles between integers.** It is reflexive and symmetric,
and two documents that are the same as a third are the same exactly if it does not blur them, which
it never does without doubles from `2 ^ 53` on. So two payloads that are accepted by a constant are
the same exactly if the constant does not blur them. And where an item of an array is exchanged for
one that is the same, the array is told that its items must be unique as it was before, unless one
of the two blurs the other and a further item. -/
theorem same_laws (ha : a.Ordered) (hb : b.Ordered) (hc : c.Ordered) :
    a.same a ∧ (a.same b → b.same a) ∧
      (a.same b → b.same c → (a.same c ↔ ¬Json.Blurs a b c) ∧
        (b.EachNumber Number.IsFine → a.same c)) ∧
      (∀ members pointer s path, compileAt (.object members) pointer = ⟨s, []⟩ →
        members.lookup "const" = some b → s.issuesAt a path = [] → s.issuesAt c path = [] →
          (a.same c ↔ ¬Json.Blurs a b c)) ∧
      (∀ members pointer s path, compileAt (.object members) pointer = ⟨s, []⟩ →
        members.lookup "uniqueItems" = some (.bool true) → a.same b →
        ∀ vs n, (Json.array vs).Ordered → vs[n]? = some a →
          (∀ m z, m ≠ n → vs[m]? = some z → ¬Json.Blurs z a b ∧ ¬Json.Blurs z b a) →
            (⟨path, "items must be unique"⟩ ∈ s.issuesAt (.array (vs.set n b)) path ↔
              ⟨path, "items must be unique"⟩ ∈ s.issuesAt (.array vs) path)) := by
  have hlaw (hab : a.same b) (hbc : b.same c) : a.same c ↔ ¬Json.Blurs a b c :=
    ha.same_iff_not_blurs hb hc hab hbc
  refine ⟨ha.same_refl, ha.same_symm hb, fun hab hbc => ⟨hlaw hab hbc, fun hfine => ?_⟩, ?_, ?_⟩
  · exact (hlaw hab hbc).2 fun hblurs => hblurs.not_fine ha hb hc hab hbc hfine
  · intro members pointer s path h hconst hfirst hsecond
    obtain rfl : (compileAt (.object members) pointer).value = s := by rw [h]
    have hclean : (compileAt (.object members) pointer).issues = [] := by rw [h]
    have hba := same_const_of_accepted hclean hconst hfirst
    have hbc := same_const_of_accepted hclean hconst hsecond
    exact hlaw (hb.same_symm ha hba) hbc
  · intro members pointer s path h hunique hab vs n hvs hitem hblurs
    obtain rfl : (compileAt (.object members) pointer).value = s := by rw [h]
    have hclean : (compileAt (.object members) pointer).issues = [] := by rw [h]
    have hkind : allowsKind members (.array (vs.set n b)) = allowsKind members (.array vs) := rfl
    rw [mem_issuesAt_unique_iff hclean hunique, mem_issuesAt_unique_iff hclean hunique, hkind,
      hasDuplicate_exchange hvs hb hitem hab hblurs]

/-! ## A double between two integers -/

namespace Sample

/-- The integers `2 ^ 53` and `2 ^ 53 + 1`, and the double that both of them round to. -/
def even : Json := .number (.integer 0x20000000000000 (by omega))

@[inherit_doc even]
def odd : Json := .number (.integer 0x20000000000001 (by omega))

@[inherit_doc even]
def rounded : Json := .number (.double ⟨false, 0x10000000000000, 1, by decide⟩)

theorem even_same_rounded : even.same rounded := by
  refine (Number.same_iff_units (.inr rfl)).2 (congrArg Double.units ?_)
  decide +kernel

theorem rounded_same_odd : rounded.same odd := by
  refine (Number.same_iff_units (.inl rfl)).2 (congrArg Double.units ?_)
  decide +kernel

/-- A definition of arrays of unique items that are the same as the double. -/
def roundedOnce : Json :=
  .object [("items", .object [("const", rounded)]), ("uniqueItems", .bool true)]

theorem issues_roundedOnce : (compileAt roundedOnce "#").issues = [] := by
  rw [roundedOnce, compileAt_object, compilePart_of_none rfl,
    compilePart_of_some (d := .object [("const", rounded)]) rfl, compileAt_object,
    compilePart_of_none rfl, compilePart_of_none rfl]
  rfl

/-- What is the same as the double satisfies the definition of items. -/
theorem satisfied_rounded {v : Json} (h : rounded.same v) :
    Satisfied (.object [("const", rounded)]) v := by
  have hmissing : missing [("const", rounded)] v = [] := by
    cases v <;> rfl
  refine .ruled rfl (fun k => ?_) hmissing nofun nofun nofun
  have hmet : Keyword.const.isMet rounded v := by rwa [Keyword.isMet]
  cases k with
  | const => exact congrArg not hmet
  | _ => rfl

theorem satisfied_roundedOnce : Satisfied roundedOnce (.array [even, odd]) := by
  refine .ruled rfl (fun k => ?_) rfl nofun nofun ?_
  · have hunique : Keyword.uniqueItems.isMet (.bool true) (.array [even, odd]) := by
      decide +kernel
    cases k with
    | uniqueItems => exact congrArg not hunique
    | _ => rfl
  · intro d hd
    obtain rfl : .object [("const", rounded)] = d := Option.some.inj hd
    simp only [itemsOf, List.forall_mem_cons]
    have hsame := Json.Ordered.same_symm (.number _) (.number _) even_same_rounded
    exact ⟨satisfied_rounded hsame, satisfied_rounded rounded_same_odd, by simp⟩

/-- **Sameness is not transitive.** The integers are both the same as the double and not the same as
each other. So the definition accepts the two of them together, each as the same as the constant and
the pair as unique. -/
theorem same_not_transitive : even.same rounded ∧ rounded.same odd ∧ even.same odd = false ∧
    (compileAt roundedOnce "#").issues = [] ∧
    (compileAt roundedOnce "#").value.issues (.array [even, odd]) = [] := by
  refine ⟨even_same_rounded, rounded_same_odd, by decide +kernel, issues_roundedOnce, ?_⟩
  rw [Schema.issues, ← List.length_eq_zero_iff, length_issuesAt _ _ issues_roundedOnce,
    violations_eq_zero_iff]
  exact satisfied_roundedOnce

/-- The laws for the two integers and the double, which blurs them. -/
theorem same_laws_rounded : even.same rounded ∧ rounded.same odd ∧ Json.Blurs even rounded odd ∧
    ¬even.same odd := by
  have hblurs : Json.Blurs even rounded odd := .number (.intro (by omega))
  have hlaws := same_laws (a := even) (b := rounded) (c := odd) (.number _) (.number _) (.number _)
  have htransitive := (hlaws.2.2.1 even_same_rounded rounded_same_odd).1
  exact ⟨even_same_rounded, rounded_same_odd, hblurs, fun h => htransitive.1 h hblurs⟩

end Sample

end SchemaVault
