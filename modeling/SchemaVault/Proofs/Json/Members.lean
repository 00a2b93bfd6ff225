import SchemaVault.Json.Basic

/-!
# Looking up the members of objects

What a look-up finds after a member has been put in its place, and after members have been left
out. How the members of an object are ordered makes no difference to the look-ups. Where no name
occurs twice, the names and what is found under them determine the members (`eq_of_lookup`).
-/

namespace SchemaVault.Json

variable {name other : String} {value : Json} {members : Members}

theorem mem_of_lookup (h : members.lookup name = some value) : (name, value) ∈ members := by
  obtain ⟨before, after, rfl, -⟩ := List.lookup_eq_some_iff.1 h
  exact List.mem_append_right _ List.mem_cons_self

theorem lookup_cons :
    ((name, value) :: members : Members).lookup other =
      if other = name then some value else members.lookup other := by
  rw [List.lookup_cons]
  by_cases h : other = name
  · rw [if_pos h, beq_iff_eq.2 h]
  · rw [if_neg h, beq_eq_false_iff_ne.2 h]

theorem lookup_eq_none (h : other ∉ members.map (·.1)) : members.lookup other = none := by
  induction members with
  | nil => rfl
  | cons first members ih =>
    obtain ⟨n, v⟩ := first
    rw [List.map_cons, List.mem_cons, not_or] at h
    rw [lookup_cons, if_neg h.1, ih h.2]

/-- An object has a member of a name if one is found. -/
theorem any_name : members.any (·.1 == other) = (members.lookup other).isSome := by
  rw [Bool.eq_iff_iff, List.lookup_isSome_iff, List.any_eq_true]
  simp only [Bool.beq_comm (a := other)]

/-! ## Putting a member in place -/

theorem lookup_insertMember :
    (insertMember name value members).lookup other =
      if other = name then some value else members.lookup other := by
  induction members with
  | nil => exact lookup_cons
  | cons first members ih =>
    obtain ⟨n, v⟩ := first
    unfold insertMember
    split
    · exact lookup_cons
    · split
      · rename_i heq
        subst heq
        rw [lookup_cons, lookup_cons]
        split <;> rfl
      · rename_i hne
        rw [lookup_cons, ih, lookup_cons]
        split
        · rename_i h
          rw [if_neg fun h' => hne (h'.symm.trans h)]
        · rfl

/-- Members with different names are looked up in an object as in their list. -/
theorem lookup_foldl_insertMember (start : Members) (h : (members.map (·.1)).Nodup) :
    (members.foldl (fun ms m => insertMember m.1 m.2 ms) start).lookup other =
      (members.lookup other).or (start.lookup other) := by
  induction members generalizing start with
  | nil => rfl
  | cons first members ih =>
    obtain ⟨n, v⟩ := first
    obtain ⟨hfirst, hrest⟩ := List.nodup_cons.1 h
    rw [List.foldl_cons, ih _ hrest, lookup_insertMember, lookup_cons]
    split
    · rename_i hname
      rw [lookup_eq_none (hname ▸ hfirst)]
      rfl
    · rfl

theorem mem_insertMember {m : String × Json} {members : Members}
    (h : m ∈ insertMember name value members) : m = (name, value) ∨ m ∈ members := by
  induction members with
  | nil => exact .inl (List.mem_singleton.1 h)
  | cons first members ih =>
    unfold insertMember at h
    split at h
    · exact List.mem_cons.1 h
    · split at h
      · exact (List.mem_cons.1 h).imp_right (List.mem_cons_of_mem _)
      · rcases List.mem_cons.1 h with rfl | h
        · exact .inr List.mem_cons_self
        · exact (ih h).imp_right (List.mem_cons_of_mem _)

/-! ## Leaving members out -/

/-- A member that is left out is not found, and the others are found as before. -/
theorem lookup_filter (keep : String → Bool) :
    (members.filter fun m => keep m.1).lookup other =
      if keep other then members.lookup other else none := by
  induction members with
  | nil => simp
  | cons first members ih =>
    obtain ⟨n, v⟩ := first
    rw [List.filter_cons, lookup_cons]
    by_cases hname : other = n
    · subst hname
      cases hkeep : keep other with
      | true => rw [if_pos rfl, lookup_cons, if_pos rfl, if_pos rfl, if_pos rfl]
      | false => simp [ih, hkeep]
    · rw [if_neg hname]
      split
      · rw [lookup_cons, if_neg hname, ih]
      · exact ih

/-! ## Different names -/

section Names

variable {v : Json} {xs ys : Members}

theorem lookup_of_mem (hnames : (xs.map (·.1)).Nodup) (h : (name, v) ∈ xs) :
    xs.lookup name = some v := by
  induction xs with
  | nil => cases h
  | cons first xs ih =>
    obtain ⟨n, w⟩ := first
    obtain ⟨hfirst, hrest⟩ := List.nodup_cons.1 hnames
    rw [lookup_cons]
    rcases List.mem_cons.1 h with heq | h
    · cases heq
      rw [if_pos rfl]
    · have hmem : name ∈ xs.map (·.1) := List.mem_map_of_mem h
      have hne : name ≠ n := by
        rintro rfl
        exact hfirst hmem
      rw [if_neg hne, ih hrest h]

/-- Objects with the same names find members under the same names. -/
theorem exists_lookup_of_names (hnames : xs.map (·.1) = ys.map (·.1))
    (h : xs.lookup name = some v) : ∃ w, ys.lookup name = some w := by
  refine Option.ne_none_iff_exists'.1 fun hnone => ?_
  have hmem : name ∈ ys.map (·.1) := by
    rw [← hnames]
    exact List.mem_map_of_mem (mem_of_lookup h)
  obtain ⟨⟨n, w⟩, hw, rfl⟩ := List.mem_map.1 hmem
  have hfound : (ys.lookup n).isSome := List.lookup_isSome_iff.2 ⟨_, hw, by simp⟩
  simp [hnone] at hfound

/-- Members with the same names are equal if they are so under every name. -/
theorem eq_of_lookup (hxs : (xs.map (·.1)).Nodup) (hnames : xs.map (·.1) = ys.map (·.1))
    (h : ∀ name v w, xs.lookup name = some v → ys.lookup name = some w → v = w) : xs = ys := by
  induction xs generalizing ys with
  | nil => simpa using hnames
  | cons first xs ih =>
    cases ys with
    | nil => simp at hnames
    | cons other ys =>
      obtain ⟨n, v⟩ := first
      obtain ⟨n', w⟩ := other
      obtain ⟨hfirst, hrest⟩ := List.nodup_cons.1 hxs
      simp only [List.map_cons, List.cons.injEq] at hnames
      obtain ⟨rfl, hnames⟩ := hnames
      have hfound {v : Json} {zs : Members} : ((n, v) :: zs : Members).lookup n = some v := by
        rw [lookup_cons, if_pos rfl]
      rw [h n v w hfound hfound, ih hrest hnames fun name x y hx hy => ?_]
      have hname : name ≠ n := by
        rintro rfl
        exact hfirst (List.mem_map.2 ⟨_, mem_of_lookup hx, rfl⟩)
      apply h name x y <;> rwa [lookup_cons, if_neg hname]

end Names

end SchemaVault.Json
