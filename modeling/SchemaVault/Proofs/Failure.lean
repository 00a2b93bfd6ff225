import SchemaVault.Failure
import Mathlib.Data.List.Basic
import Mathlib.Data.List.Induction

/-!
# Messages by field

Messages that are added one after the other are grouped by field. The fields are those of the
messages, each of them once and in ascending order, and a field has the messages that were added
for it, in the order in which they were added. None is lost or told twice. What is kept in order
while a message is put in its place is the list of the fields (`Ascending.push`), and it is only in
an ascending list that a field is sure to be found again (`Ascending.messages_push`).
-/

namespace SchemaVault.FieldErrors

variable {e : FieldErrors} {field message other : String} {ms : List String}
variable {entries : List (String × List String)} {pairs : List (String × String)}

/-! ## Adding a message -/

theorem insert_ne_nil (field message : String) (entries : List (String × List String)) :
    insert field message entries ≠ [] := by
  cases entries with
  | nil => simp [insert]
  | cons entry rest =>
    unfold insert
    split
    · simp
    · split <;> simp

theorem mem_fields_push : other ∈ (e.push field message).fields ↔ other = field ∨ other ∈ e.fields := by
  obtain ⟨entries⟩ := e
  change other ∈ (insert field message entries).map (·.1) ↔ other = field ∨ other ∈ entries.map (·.1)
  induction entries with
  | nil => simp [insert]
  | cons entry rest ih =>
    obtain ⟨f, ms⟩ := entry
    unfold insert
    split
    · simp
    · split
      · rename_i heq
        simp [heq]
      · rw [List.map_cons, List.mem_cons, ih, List.map_cons, List.mem_cons, or_left_comm]

/-- Whether the fields stand in ascending order, each of them once. -/
def Ascending (e : FieldErrors) : Prop := e.fields.Pairwise (· < ·)

/-- A message is put in its place. -/
theorem Ascending.push (h : e.Ascending) : (e.push field message).Ascending := by
  obtain ⟨entries⟩ := e
  induction entries with
  | nil => exact List.pairwise_singleton ..
  | cons entry rest ih =>
    obtain ⟨f, ms⟩ := entry
    obtain ⟨hfirst, hrest⟩ := List.pairwise_cons.1 h
    unfold FieldErrors.push insert
    split
    · rename_i hlt
      refine List.pairwise_cons.2 ⟨?_, h⟩
      rintro g hg
      rcases List.mem_cons.1 hg with rfl | hg
      · exact hlt
      · exact String.lt_trans hlt (hfirst g hg)
    · split
      · exact h
      · rename_i hnot hne
        have hlt : f < field := Std.lt_of_le_of_ne (String.not_lt.1 hnot) (Ne.symm hne)
        refine List.pairwise_cons.2 ⟨fun g hg => ?_, ih hrest⟩
        rcases mem_fields_push.1 hg with rfl | hg
        · exact hlt
        · exact hfirst g hg

theorem messages_cons : (⟨(field, ms) :: entries⟩ : FieldErrors).messages other =
    if other = field then ms else (⟨entries⟩ : FieldErrors).messages other := by
  unfold messages
  rw [List.lookup_cons]
  by_cases h : other = field
  · rw [if_pos h, beq_iff_eq.2 h]
    rfl
  · rw [if_neg h, beq_eq_false_iff_ne.2 h]

theorem messages_eq_nil (h : other ∉ e.fields) : e.messages other = [] := by
  have hnone : e.entries.lookup other = none := List.lookup_eq_none_iff.2 fun p hp =>
    bne_iff_ne.2 fun heq => h (heq ▸ List.mem_map_of_mem hp)
  rw [messages, hnone]
  rfl

/-- **A message is added behind those of its field**, and the other fields keep theirs. -/
theorem Ascending.messages_push (h : e.Ascending) : (e.push field message).messages other =
    e.messages other ++ if other = field then [message] else [] := by
  obtain ⟨entries⟩ := e
  change (⟨insert field message entries⟩ : FieldErrors).messages other = _
  induction entries with
  | nil =>
    rw [insert, messages_cons]
    rfl
  | cons entry rest ih =>
    obtain ⟨f, ms⟩ := entry
    obtain ⟨hfirst, hrest⟩ := List.pairwise_cons.1 h
    unfold insert
    split
    · rename_i hlt
      -- A field before the first one has no messages yet.
      have hnew : field ∉ (⟨(f, ms) :: rest⟩ : FieldErrors).fields := by
        intro hmem
        rcases List.mem_cons.1 hmem with rfl | hmem
        · exact String.lt_irrefl _ hlt
        · exact String.lt_irrefl _ (String.lt_trans hlt (hfirst field hmem))
      rw [messages_cons]
      split
      · rename_i ho
        rw [ho, messages_eq_nil hnew, List.nil_append]
      · rw [List.append_nil]
    · split
      · rename_i heq
        subst heq
        rw [messages_cons, messages_cons]
        split
        · rfl
        · rw [List.append_nil]
      · rename_i hne
        rw [messages_cons, messages_cons, ih hrest]
        split
        · rename_i ho
          rw [if_neg fun ho' => hne (ho'.symm.trans ho), List.append_nil]
        · rfl

/-- No message is lost, and none is told twice. -/
theorem toPairs_push_perm : (e.push field message).toPairs.Perm ((field, message) :: e.toPairs) := by
  obtain ⟨entries⟩ := e
  change ((insert field message entries).flatMap fun p => p.2.map fun m => (p.1, m)).Perm
    ((field, message) :: entries.flatMap fun p => p.2.map fun m => (p.1, m))
  induction entries with
  | nil => exact .refl _
  | cons entry rest ih =>
    obtain ⟨f, ms⟩ := entry
    unfold insert
    split
    · exact .refl _
    · split
      · rename_i heq
        subst heq
        rw [List.flatMap_cons, List.flatMap_cons, List.map_append, List.append_assoc]
        exact List.perm_middle
      · rw [List.flatMap_cons, List.flatMap_cons]
        exact (ih.append_left _).trans List.perm_middle

/-! ## Adding many -/

theorem ofPairs_concat (pairs : List (String × String)) (p : String × String) :
    ofPairs (pairs ++ [p]) = (ofPairs pairs).push p.1 p.2 := by
  rw [ofPairs, List.foldl_append]
  rfl

theorem ascending_ofPairs (pairs : List (String × String)) : (ofPairs pairs).Ascending := by
  induction pairs using List.reverseRecOn with
  | nil => exact List.Pairwise.nil
  | append_singleton pairs p ih =>
    rw [ofPairs_concat]
    exact ih.push

theorem mem_fields_ofPairs : field ∈ (ofPairs pairs).fields ↔ ∃ p ∈ pairs, p.1 = field := by
  induction pairs using List.reverseRecOn with
  | nil => simp [ofPairs, empty, fields]
  | append_singleton pairs p ih =>
    rw [ofPairs_concat, mem_fields_push, ih]
    simp [or_and_right, exists_or, or_comm, eq_comm]

/-- **A field has the messages that were added for it**, in the order in which they were added. -/
theorem messages_ofPairs (pairs : List (String × String)) (field : String) :
    (ofPairs pairs).messages field = (pairs.filter (·.1 = field)).map (·.2) := by
  induction pairs using List.reverseRecOn with
  | nil => rfl
  | append_singleton pairs p ih =>
    rw [ofPairs_concat, (ascending_ofPairs pairs).messages_push, ih, List.filter_append,
      List.map_append]
    by_cases h : p.1 = field
    · simp [h]
    · simp [h, Ne.symm h]

theorem toPairs_ofPairs_perm (pairs : List (String × String)) :
    (ofPairs pairs).toPairs.Perm pairs := by
  induction pairs using List.reverseRecOn with
  | nil => exact .refl _
  | append_singleton pairs p ih =>
    rw [ofPairs_concat]
    exact toPairs_push_perm.trans ((ih.cons p).trans (List.perm_append_singleton p pairs).symm)

theorem ofPairs_isEmpty (pairs : List (String × String)) :
    (ofPairs pairs).isEmpty = pairs.isEmpty := by
  rcases List.eq_nil_or_concat pairs with rfl | ⟨rest, p, rfl⟩
  · rfl
  · rw [List.concat_eq_append, ofPairs_concat, Bool.eq_iff_iff]
    simp [isEmpty, push, insert_ne_nil]

/-! ## What is told -/

/-- All messages with their fields, field by field. -/
theorem Ascending.toPairs_eq (h : e.Ascending) :
    e.toPairs = e.fields.flatMap fun field => (e.messages field).map fun m => (field, m) := by
  obtain ⟨entries⟩ := e
  induction entries with
  | nil => rfl
  | cons entry rest ih =>
    obtain ⟨f, ms⟩ := entry
    obtain ⟨hfirst, hrest⟩ := List.pairwise_cons.1 h
    have hrest : (⟨rest⟩ : FieldErrors).toPairs = _ := ih hrest
    change (ms.map fun m => (f, m)) ++ (⟨rest⟩ : FieldErrors).toPairs =
      ((⟨(f, ms) :: rest⟩ : FieldErrors).messages f).map (fun m => (f, m)) ++
        ((⟨rest⟩ : FieldErrors).fields.flatMap fun field =>
          ((⟨(f, ms) :: rest⟩ : FieldErrors).messages field).map fun m => (field, m))
    rw [messages_cons, if_pos rfl, hrest]
    refine congrArg _ (List.flatMap_congr fun g hg => ?_)
    rw [messages_cons, if_neg]
    rintro rfl
    exact String.lt_irrefl _ (hfirst g hg)

theorem check_eq_ok_iff : e.check = .ok () ↔ e.isEmpty := by
  unfold check
  cases e.isEmpty <;> simp

theorem check_eq_error {f : Failure} (h : e.check = .error f) : f = .validation e := by
  unfold check at h
  split at h
  · cases h
  · exact (Except.error.inj h).symm

end SchemaVault.FieldErrors
