import SchemaVault.Proofs.Json.Ordered
import SchemaVault.Proofs.Number.Comparison
import Mathlib.Data.List.Perm.Subperm

/-!
# Documents that count as the same

Two arrays are the same if they are as long as each other and have the same items at every index,
and two objects if they have the same names and the same members under every name
(`same_array_iff`, `same_object_iff`). That an object is only searched for the names of the other is
enough, since no name occurs twice and there are as many.

From this every law of sameness goes back to numbers, by induction on a document. It is reflexive
and symmetric; without doubles it is equality (`same_iff_eq`). It is transitive but for one case
(`same_iff_not_blurs`): where one document is the same as two others, these are the same unless
somewhere in them there are different integers and in its place it has a double. No double below
`2 ^ 53` comes between two integers like that.
-/

namespace SchemaVault.Json

/-! ## Sameness by kinds -/

section Kinds

variable {b : Json} {xs ys : List Json} {as bs : Members}

theorem same_null_iff : null.same b ↔ null = b := by
  cases b <;> simp [same]

theorem same_bool_iff {x : Bool} : (bool x).same b ↔ bool x = b := by
  cases b <;> simp [same]

theorem same_string_iff {s : String} : (string s).same b ↔ string s = b := by
  cases b <;> simp [same]

theorem same_number_iff {n : Number} : (number n).same b ↔ ∃ m, b = number m ∧ n.same m := by
  cases b <;> simp [same]

theorem sameItems_iff : sameItems xs ys ↔ xs.length = ys.length ∧
    ∀ (n : Nat) (x y : Json), xs[n]? = some x → ys[n]? = some y → x.same y := by
  induction xs generalizing ys with
  | nil => cases ys <;> simp [sameItems]
  | cons x xs ih =>
    cases ys with
    | nil => simp [sameItems]
    | cons y ys =>
      simp only [sameItems, Bool.and_eq_true, ih, List.length_cons, Nat.add_right_cancel_iff]
      constructor
      · rintro ⟨hfirst, hlength, hrest⟩
        refine ⟨hlength, fun n v w hv hw => ?_⟩
        cases n with
        | zero =>
          cases hv
          cases hw
          exact hfirst
        | succ n => exact hrest n v w hv hw
      · rintro ⟨hlength, h⟩
        exact ⟨h 0 x y rfl rfl, hlength, fun n => h (n + 1)⟩

/-- **Arrays are the same item by item.** -/
theorem same_array_iff : (array xs).same b ↔ ∃ ys, b = array ys ∧ xs.length = ys.length ∧
    ∀ (n : Nat) (x y : Json), xs[n]? = some x → ys[n]? = some y → x.same y := by
  cases b <;> simp [same, sameItems_iff]

theorem sameMembers_iff : sameMembers as bs ↔
    ∀ m ∈ as, ∃ w, bs.lookup m.1 = some w ∧ m.2.same w := by
  induction as with
  | nil => simp [sameMembers]
  | cons m as ih =>
    obtain ⟨name, v⟩ := m
    rw [sameMembers, Bool.and_eq_true, ih, List.forall_mem_cons]
    cases bs.lookup name <;> simp

/-- Objects whose names are in order are the same name by name. The names of the first are found in
the second. There are as many of them, and so they are all of its names, in the one order that there
is. -/
theorem same_members_iff (has : Ascending as) (hbs : Ascending bs) :
    (as.length = bs.length ∧ sameMembers as bs) ↔ as.map (·.1) = bs.map (·.1) ∧
      ∀ name (x y : Json), as.lookup name = some x → bs.lookup name = some y → x.same y := by
  rw [sameMembers_iff]
  constructor
  · rintro ⟨hlength, h⟩
    have hsubset : as.map (·.1) ⊆ bs.map (·.1) := by
      intro name hname
      obtain ⟨m, hm, rfl⟩ := List.mem_map.1 hname
      obtain ⟨w, hw, -⟩ := h m hm
      exact List.mem_map.2 ⟨_, mem_of_lookup hw, rfl⟩
    have hperm : (as.map (·.1)).Perm (bs.map (·.1)) :=
      (List.subperm_of_subset has.nodup hsubset).perm_of_length_le (by simp [hlength])
    refine ⟨hperm.eq_of_pairwise ?_ has hbs, fun name x y hx hy => ?_⟩
    · intro a b _ _ hab hba
      exact absurd (String.lt_trans hab hba) (String.lt_irrefl a)
    · obtain ⟨w, hw, hsame⟩ := h _ (mem_of_lookup hx)
      obtain rfl := Option.some.inj (hw.symm.trans hy)
      exact hsame
  · rintro ⟨hnames, h⟩
    refine ⟨by simpa using congrArg List.length hnames, fun m hm => ?_⟩
    have hlookup := lookup_of_mem has.nodup hm
    obtain ⟨w, hw⟩ := exists_lookup_of_names hnames hlookup
    exact ⟨w, hw, h _ _ _ hlookup hw⟩

/-- **Objects are the same name by name.** -/
theorem same_object_iff (has : Ascending as) (hb : b.Ordered) :
    (object as).same b ↔ ∃ bs, b = object bs ∧ as.map (·.1) = bs.map (·.1) ∧
      ∀ name (x y : Json), as.lookup name = some x → bs.lookup name = some y → x.same y := by
  cases hb with
  | object hbs _ =>
    rw [same, Bool.and_eq_true, beq_iff_eq, same_members_iff has hbs]
    simp
  | _ => simp [same]

theorem same_of_getElem? {n : Nat} {x y : Json} (h : (array xs).same (array ys))
    (hx : xs[n]? = some x) (hy : ys[n]? = some y) : x.same y := by
  obtain ⟨_, heq, -, h⟩ := same_array_iff.1 h
  cases heq
  exact h n x y hx hy

theorem same_of_lookup {name : String} {x y : Json} (has : (object as).Ordered)
    (hbs : (object bs).Ordered) (h : (object as).same (object bs)) (hx : as.lookup name = some x)
    (hy : bs.lookup name = some y) : x.same y := by
  obtain ⟨_, heq, -, h⟩ := (same_object_iff has.ascending hbs).1 h
  cases heq
  exact h name x y hx hy

end Kinds

/-! ## Laws -/

variable {a b c : Json}

/-- Every document is the same as itself. -/
theorem Ordered.same_refl (ha : a.Ordered) : a.same a := by
  induction ha with
  | null => exact same_null_iff.2 rfl
  | bool x => exact same_bool_iff.2 rfl
  | string s => exact same_string_iff.2 rfl
  | number n => exact same_number_iff.2 ⟨n, rfl, n.same_refl⟩
  | array _ ih =>
    refine same_array_iff.2 ⟨_, rfl, rfl, fun n x y hx hy => ?_⟩
    obtain rfl := Option.some.inj (hx.symm.trans hy)
    exact ih x (List.mem_of_getElem? hx)
  | object hnames h ih =>
    refine (same_object_iff hnames (.object hnames h)).2 ⟨_, rfl, rfl, fun name x y hx hy => ?_⟩
    obtain rfl := Option.some.inj (hx.symm.trans hy)
    exact ih _ (mem_of_lookup hx)

/-- **Sameness is symmetric.** By induction on the first document. -/
theorem Ordered.same_symm (ha : a.Ordered) (hb : b.Ordered) (h : a.same b) : b.same a := by
  induction ha generalizing b with
  | null =>
    obtain rfl := same_null_iff.1 h
    exact h
  | bool x =>
    obtain rfl := same_bool_iff.1 h
    exact h
  | string s =>
    obtain rfl := same_string_iff.1 h
    exact h
  | number n =>
    obtain ⟨m, rfl, h⟩ := same_number_iff.1 h
    exact same_number_iff.2 ⟨n, rfl, Number.same_symm h⟩
  | array _ ih =>
    obtain ⟨ys, rfl, hlength, h⟩ := same_array_iff.1 h
    refine same_array_iff.2 ⟨_, rfl, hlength.symm, fun n y x hy hx => ?_⟩
    exact ih x (List.mem_of_getElem? hx) (hb.of_getElem? hy) (h n x y hx hy)
  | object hnames hxs ih =>
    obtain ⟨bs, rfl, hsame, h⟩ := (same_object_iff hnames hb).1 h
    refine (same_object_iff hb.ascending (.object hnames hxs)).2
      ⟨_, rfl, hsame.symm, fun name y x hy hx => ?_⟩
    exact ih _ (mem_of_lookup hx) (hb.of_lookup hy) (h name x y hx hy)

/-! ### Documents without doubles -/

/-- All numbers in a document satisfy a condition. -/
inductive EachNumber (p : Number → Prop) : Json → Prop
  | null : EachNumber p .null
  | bool (x : Bool) : EachNumber p (.bool x)
  | number {n : Number} (h : p n) : EachNumber p (.number n)
  | string (s : String) : EachNumber p (.string s)
  | array {items : List Json} (h : ∀ v ∈ items, v.EachNumber p) : EachNumber p (.array items)
  | object {members : Members} (h : ∀ m ∈ members, m.2.EachNumber p) :
      EachNumber p (.object members)

theorem EachNumber.of_getElem? {p : Number → Prop} {items : List Json} {n : Nat} {v : Json}
    (h : (Json.array items).EachNumber p) (hitem : items[n]? = some v) : v.EachNumber p := by
  cases h with
  | array h => exact h _ (List.mem_of_getElem? hitem)

theorem EachNumber.of_lookup {p : Number → Prop} {members : Members} {name : String} {v : Json}
    (h : (Json.object members).EachNumber p) (hlookup : members.lookup name = some v) :
    v.EachNumber p := by
  cases h with
  | object h => exact h _ (mem_of_lookup hlookup)

/-- A document that has no double in it. -/
abbrev IsExact (v : Json) : Prop := v.EachNumber fun n => n.toInt? ≠ none

/-- **Without doubles, only equal documents are the same.** By induction on the first document. -/
theorem Ordered.same_iff_eq (ha : a.Ordered) (hb : b.Ordered) (hexact : a.IsExact)
    (hexact' : b.IsExact) : a.same b ↔ a = b := by
  refine ⟨fun h => ?_, fun h => h ▸ ha.same_refl⟩
  induction ha generalizing b with
  | null => exact same_null_iff.1 h
  | bool x => exact same_bool_iff.1 h
  | string s => exact same_string_iff.1 h
  | number n =>
    obtain ⟨m, rfl, h⟩ := same_number_iff.1 h
    cases hexact with
    | number hn =>
      cases hexact' with
      | number hm => rw [(Number.same_iff_eq hn hm).1 h]
  | array _ ih =>
    obtain ⟨ys, rfl, hlength, h⟩ := same_array_iff.1 h
    congr 1
    refine List.ext_getElem hlength fun n hx hy => ?_
    have hx' := List.getElem?_eq_getElem hx
    have hy' := List.getElem?_eq_getElem hy
    exact ih _ (List.getElem_mem hx) (hb.of_getElem? hy') (hexact.of_getElem? hx')
      (hexact'.of_getElem? hy') (h n _ _ hx' hy')
  | object hnames hxs ih =>
    obtain ⟨bs, rfl, hsame, h⟩ := (same_object_iff hnames hb).1 h
    congr 1
    refine eq_of_lookup hnames.nodup hsame fun name x y hx hy => ?_
    exact ih _ (mem_of_lookup hx) (hb.of_lookup hy) (hexact.of_lookup hx) (hexact'.of_lookup hy)
      (h name x y hx hy)

/-! ### Documents that are the same as a third -/

/-- **A document blurs two others** if somewhere it has a double where these have different
integers. -/
inductive Blurs : (a b c : Json) → Prop
  | number {l m n : Number} (h : l.Blurs m n) : Blurs (.number l) (.number m) (.number n)
  | item {xs ys zs : List Json} {n : Nat} {x y z : Json} (hx : xs[n]? = some x)
      (hy : ys[n]? = some y) (hz : zs[n]? = some z) (h : Blurs x y z) :
      Blurs (.array xs) (.array ys) (.array zs)
  | member {as bs cs : Members} {name : String} {x y z : Json} (hx : as.lookup name = some x)
      (hy : bs.lookup name = some y) (hz : cs.lookup name = some z) (h : Blurs x y z) :
      Blurs (.object as) (.object bs) (.object cs)

/-- **Documents that are the same as a third are the same, unless it blurs them.** By induction on
the first document; what the others have in the place of a part of it is found by its index or its
name. -/
theorem Ordered.same_iff_not_blurs (ha : a.Ordered) (hb : b.Ordered) (hc : c.Ordered)
    (hab : a.same b) (hbc : b.same c) : a.same c ↔ ¬Blurs a b c := by
  induction ha generalizing b c with
  | null =>
    obtain rfl := same_null_iff.1 hab
    exact iff_of_true hbc (by rintro ⟨⟩)
  | bool x =>
    obtain rfl := same_bool_iff.1 hab
    exact iff_of_true hbc (by rintro ⟨⟩)
  | string s =>
    obtain rfl := same_string_iff.1 hab
    exact iff_of_true hbc (by rintro ⟨⟩)
  | number n =>
    obtain ⟨m, rfl, hab⟩ := same_number_iff.1 hab
    obtain ⟨l, rfl, hbc⟩ := same_number_iff.1 hbc
    have hblurs : Blurs (.number n) (.number m) (.number l) ↔ n.Blurs m l := by
      refine ⟨?_, .number⟩
      rintro ⟨h⟩
      exact h
    rw [hblurs, ← Number.same_iff_not_blurs hab hbc]
    simp [same]
  | @array xs _ ih =>
    obtain ⟨ys, rfl, hlength, hab⟩ := same_array_iff.1 hab
    obtain ⟨zs, rfl, hlength', hbc⟩ := same_array_iff.1 hbc
    have hitem : ∀ {n : Nat} {x y z : Json}, xs[n]? = some x → ys[n]? = some y →
        zs[n]? = some z → (x.same z ↔ ¬Blurs x y z) := by
      intro n x y z hx hy hz
      exact ih x (List.mem_of_getElem? hx) (hb.of_getElem? hy) (hc.of_getElem? hz)
        (hab n x y hx hy) (hbc n y z hy hz)
    constructor
    · intro h hblurs
      cases hblurs with
      | item hx hy hz hblurs => exact (hitem hx hy hz).1 (same_of_getElem? h hx hz) hblurs
    · intro hnot
      refine same_array_iff.2 ⟨_, rfl, hlength.trans hlength', fun n x z hx hz => ?_⟩
      have hn : n < ys.length := by
        rw [← hlength]
        exact (List.getElem?_eq_some_iff.1 hx).1
      have hy := List.getElem?_eq_getElem hn
      exact (hitem hx hy hz).2 fun h => hnot (.item hx hy hz h)
  | @object as hnames hxs ih =>
    obtain ⟨bs, rfl, hsame, hab⟩ := (same_object_iff hnames hb).1 hab
    obtain ⟨cs, rfl, hsame', hbc⟩ := (same_object_iff hb.ascending hc).1 hbc
    have hmember : ∀ {name x y z}, as.lookup name = some x → bs.lookup name = some y →
        cs.lookup name = some z → (x.same z ↔ ¬Blurs x y z) := by
      intro name x y z hx hy hz
      exact ih _ (mem_of_lookup hx) (hb.of_lookup hy) (hc.of_lookup hz) (hab name x y hx hy)
        (hbc name y z hy hz)
    constructor
    · intro h hblurs
      cases hblurs with
      | member hx hy hz hblurs =>
        exact (hmember hx hy hz).1 (same_of_lookup (.object hnames hxs) hc h hx hz) hblurs
    · intro hnot
      refine (same_object_iff hnames hc).2 ⟨_, rfl, hsame.trans hsame', fun name x z hx hz => ?_⟩
      obtain ⟨y, hy⟩ := exists_lookup_of_names hsame hx
      exact (hmember hx hy hz).2 fun h => hnot (.member hx hy hz h)

/-- **No document whose doubles are below `2 ^ 53` blurs others.** By induction on the place where
it would. -/
theorem Blurs.not_fine (h : Blurs a b c) (ha : a.Ordered) (hb : b.Ordered) (hc : c.Ordered)
    (hab : a.same b) (hbc : b.same c) : ¬b.EachNumber Number.IsFine := by
  intro hfine
  induction h with
  | number h =>
    rw [same] at hab hbc
    cases hfine with
    | number hfine => exact h.not_isFine hab hbc hfine
  | item hx hy hz _ ih =>
    exact ih (ha.of_getElem? hx) (hb.of_getElem? hy) (hc.of_getElem? hz)
      (same_of_getElem? hab hx hy) (same_of_getElem? hbc hy hz) (hfine.of_getElem? hy)
  | member hx hy hz _ ih =>
    exact ih (ha.of_lookup hx) (hb.of_lookup hy) (hc.of_lookup hz)
      (same_of_lookup ha hb hab hx hy) (same_of_lookup hb hc hbc hy hz) (hfine.of_lookup hy)

end SchemaVault.Json
