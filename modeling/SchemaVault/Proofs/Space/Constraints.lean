import SchemaVault.Proofs.Text
import SchemaVault.Space.StorageError

/-!
# Constraints that are told and read back

A failed statement tells the columns of the violated index in a message, `table.column` after
`table.column` with commas between them, behind a lead that ends in `: `. What is read back are the
columns in their order (`failedColumns_listing`), if the names can be told apart there: none has a
comma or a blank at either end, and no column has a point, since the last point of each is taken to
end the table. A table may have points, and the lead any colons without a space behind them. Where
there is no such lead, no columns are read (`failedColumns_of_not_infix`).
-/

namespace SchemaVault.StorageError

open Text

variable {c d : Char} {before lead rest cs : List Char}

/-! ## The lead of a message -/

/-- The first occurrence of two different characters is where they stand for the first time. -/
theorem afterFirst?_append (hcd : c ≠ d) (h : ¬[c, d] <:+: before) (rest : List Char) :
    afterFirst? [c, d] (before ++ c :: d :: rest) = some rest := by
  induction before with
  | nil =>
    have hlead : afterLead? [c, d] (c :: d :: rest) = some rest := afterLead?_append [c, d] rest
    rw [List.nil_append, afterFirst?, hlead, Option.some_or]
  | cons b before ih =>
    rw [List.infix_cons_iff, not_or] at h
    have hnone : afterLead? [c, d] (b :: (before ++ c :: d :: rest)) = none := by
      rw [afterLead?_eq_none_iff]
      intro hlead
      obtain ⟨rfl, hnext⟩ := List.cons_prefix_cons.1 hlead
      -- The second character cannot be the first one of the lead itself.
      cases before with
      | nil => exact hcd (List.cons_prefix_cons.1 hnext).1.symm
      | cons b before =>
        obtain ⟨rfl, -⟩ := List.cons_prefix_cons.1 hnext
        exact h.1 ⟨before, rfl⟩
    rw [List.cons_append, afterFirst?, hnone, Option.none_or, ih h.2]

theorem afterFirst?_eq_none (h : ¬lead <:+: cs) : afterFirst? lead cs = none := by
  induction cs with
  | nil => rw [afterFirst?, afterLead?_eq_none_iff.2 fun hlead => h hlead.isInfix]
  | cons c cs ih =>
    rw [List.infix_cons_iff, not_or] at h
    rw [afterFirst?, afterLead?_eq_none_iff.2 h.1, Option.none_or, ih h.2]

/-! ## Listed names -/

/-- Whether a name can stand in a list of names: it has no comma, and no blank at either end. -/
structure IsListable (name : String) : Prop where
  comma : ',' ∉ name.toList
  first : ∀ c ∈ name.toList.head?, ¬isBlank c
  last : ∀ c ∈ name.toList.getLast?, ¬isBlank c

theorem isListable_iff {name : String} : IsListable name ↔ ',' ∉ name.toList ∧
    name.toList.head?.any isBlank = false ∧ name.toList.getLast?.any isBlank = false := by
  rw [Option.any_eq_false, Option.any_eq_false]
  simp only [← Bool.not_eq_true]
  constructor
  · rintro ⟨comma, first, last⟩
    exact ⟨comma, first, last⟩
  · rintro ⟨comma, first, last⟩
    exact ⟨comma, first, last⟩

instance : DecidablePred IsListable := fun _ => decidable_of_iff' _ isListable_iff

/-- A column and its table. -/
structure ColumnName where
  table : String
  column : String

namespace ColumnName

variable {n : ColumnName}

/-- A column with its table, as a message tells it. -/
def text (n : ColumnName) : String := n.table ++ "." ++ n.column

/-- Whether a column can be told apart in a list of columns with their tables. -/
structure IsListable (n : ColumnName) : Prop where
  table : StorageError.IsListable n.table
  column : StorageError.IsListable n.column
  point : '.' ∉ n.column.toList

instance : DecidablePred IsListable := fun n =>
  decidable_of_iff (StorageError.IsListable n.table ∧ StorageError.IsListable n.column ∧
    '.' ∉ n.column.toList)
    ⟨fun ⟨table, column, point⟩ => ⟨table, column, point⟩, fun h => ⟨h.table, h.column, h.point⟩⟩

theorem toList_text (n : ColumnName) : n.text.toList = n.table.toList ++ '.' :: n.column.toList := by
  simp [text]

theorem IsListable.notMem_text (h : n.IsListable) : ',' ∉ n.text.toList := by
  rw [toList_text, List.mem_append, List.mem_cons, not_or, not_or]
  exact ⟨h.table.comma, by decide, h.column.comma⟩

/-- The point between table and column stands in for a name that is empty. -/
theorem IsListable.trimChars_text (h : n.IsListable) :
    trimChars n.text.toList = n.text.toList := by
  rw [trimChars_eq_self_iff, toList_text]
  constructor
  · cases htable : n.table.toList with
    | nil => simp; decide
    | cons t ts => simpa [htable] using h.table.first
  · cases hcolumn : n.column.toList.getLast? with
    | none =>
      rw [List.getLast?_eq_none_iff.1 hcolumn, List.getLast?_append]
      simp; decide
    | some t =>
      have hlast := h.column.last t hcolumn
      simpa [List.getLast?_append, List.getLast?_cons, hcolumn] using hlast

theorem IsListable.unqualified_text (h : n.IsListable) :
    unqualified n.text.toList = n.column.toList := by
  rw [unqualified, toList_text, cutLast_append h.point]

end ColumnName

/-! ## Reading them back -/

/-- Names with a comma and a blank between them are names, of which all but the first have a blank
in front, with a comma between them. -/
theorem intercalate_spaced (sep blank : Char) (p : List Char) (ps : List (List Char)) :
    [sep, blank].intercalate (p :: ps) = [sep].intercalate (p :: ps.map (blank :: ·)) := by
  induction ps generalizing p with
  | nil => simp
  | cons q ps ih =>
    rw [List.intercalate_cons_cons, ih, List.map_cons, List.intercalate_cons_cons,
      List.intercalate_cons_cons_left]
    simp

theorem pieces_spaced {sep blank : Char} {p : List Char} {ps : List (List Char)}
    (hblank : sep ≠ blank) (hp : sep ∉ p) (hps : ∀ q ∈ ps, sep ∉ q) :
    pieces sep ([sep, blank].intercalate (p :: ps)) = p :: ps.map (blank :: ·) := by
  rw [intercalate_spaced, pieces_eq_splitOn]
  refine List.splitOn_intercalate sep (List.forall_mem_cons.2 ⟨hp, ?_⟩) (List.cons_ne_nil _ _)
  rw [List.forall_mem_map]
  exact fun q hq => List.not_mem_cons_of_ne_of_not_mem hblank (hps q hq)

variable {names : List ColumnName} {message text : String}

/-- A message that tells columns with their tables behind a lead. -/
def listing (text : String) (names : List ColumnName) : String :=
  text ++ ": " ++ ", ".intercalate (names.map ColumnName.text)

/-- **The columns are read back** from a message that tells them. -/
theorem failedColumns_listing (htext : ¬[':', ' '] <:+: text.toList) (hne : names ≠ [])
    (hnames : ∀ n ∈ names, n.IsListable) :
    failedColumns (listing text names) = names.map (·.column) := by
  obtain ⟨n, ns, rfl⟩ := List.exists_cons_of_ne_nil hne
  obtain ⟨hn, hns⟩ := List.forall_mem_cons.1 hnames
  have hmessage : (listing text (n :: ns)).toList = text.toList ++ ':' :: ' ' ::
      [',', ' '].intercalate (n.text.toList :: ns.map (·.text.toList)) := by
    simp [listing, String.toList_intercalate, Function.comp_def]
  have hapart : ',' ≠ ' ' := by decide
  have hpieces := pieces_spaced hapart hn.notMem_text
    (List.forall_mem_map.2 fun m hm => (hns m hm).notMem_text)
  have hread : ∀ {m : ColumnName}, m.IsListable →
      String.ofList (unqualified (trimChars m.text.toList)) = m.column := fun hm => by
    rw [hm.trimChars_text, hm.unqualified_text, String.ofList_toList]
  have hblank : ∀ cs, trimChars (' ' :: cs) = trimChars cs := fun _ => rfl
  rw [failedColumns, hmessage, afterFirst?_append (by decide) htext]
  dsimp only
  rw [hpieces, List.map_cons, List.map_cons, hread hn, List.map_map, List.map_map]
  refine congrArg _ (List.map_congr_left fun m hm => ?_)
  simp only [Function.comp_apply, hblank, hread (hns m hm)]

theorem failedColumns_of_not_infix (h : ¬[':', ' '] <:+: message.toList) :
    failedColumns message = [] := by
  rw [failedColumns, afterFirst?_eq_none h]

theorem constraint?_unique (message : String) :
    (refused uniqueCode (some message)).constraint? = some (.unique (failedColumns message)) := rfl

theorem constraint?_primaryKey (message : String) :
    (refused primaryKeyCode (some message)).constraint? =
      some (.primaryKey (failedColumns message)) := rfl

end SchemaVault.StorageError
