import SchemaVault.Proofs.Json.Ordered
import SchemaVault.Proofs.Schema.Compilation
import SchemaVault.Proofs.Schema.Malformed

/-!
# Compiling finds the malformed places

The issues of a definition are its malformed places, one issue for each (`compile_malformed`), and
the pointer of an issue leads to the value that is wrong.

`Covers` says that some issues are those of certain places, one for each, seen from the definition
that a pointer leads to. It holds of the issues of each keyword, and is kept when issues of
different places are put together (`Covers.append`) and when the places are seen from further out
(`Covers.under`). From these `covers_compileAt` follows by induction on the definition.
-/

namespace SchemaVault

open Definition

namespace Schema

variable {P Q : Place → Prop} {pointer keyword message : String} {asked : Json}
  {members : Json.Members} {α : Type}

/-! ## Issues that cover places -/

/-- Some issues, one for each of the places of which `P` holds, in the definition that a pointer
leads to. -/
def Covers (P : Place → Prop) (pointer : String) (issues : List CompileIssue) : Prop :=
  ∃ places : List Place, places.Nodup ∧ (∀ p, p ∈ places ↔ P p) ∧
    issues.map (·.pointer) = places.map fun p => pointer ++ Json.pathText p.path

namespace Covers

variable {issues issues' : List CompileIssue}

theorem congr (h : Covers P pointer issues) (hiff : ∀ p, P p ↔ Q p) : Covers Q pointer issues := by
  obtain ⟨places, hnodup, hmem, hpointers⟩ := h
  exact ⟨places, hnodup, fun p => (hmem p).trans (hiff p), hpointers⟩

theorem nil (h : ∀ p, ¬P p) : Covers P pointer [] :=
  ⟨[], .nil, fun p => iff_of_false List.not_mem_nil (h p), rfl⟩

/-- A single issue at the place of a definition itself. -/
theorem here (h : ∀ p, P p ↔ p = .here) : Covers P pointer [⟨pointer, message⟩] := by
  refine ⟨[.here], List.pairwise_singleton .., fun p => List.mem_singleton.trans (h p).symm, ?_⟩
  simp [Place.here, Json.pathText]

/-- Issues at different places. -/
theorem append (h : Covers P pointer issues) (h' : Covers Q pointer issues')
    (hdisjoint : ∀ p, P p → ¬Q p) : Covers (fun p => P p ∨ Q p) pointer (issues ++ issues') := by
  obtain ⟨places, hnodup, hmem, hpointers⟩ := h
  obtain ⟨places', hnodup', hmem', hpointers'⟩ := h'
  refine ⟨places ++ places', List.nodup_append.2 ⟨hnodup, hnodup', ?_⟩, fun p => ?_, ?_⟩
  · rintro p hp _ hq rfl
    exact hdisjoint p ((hmem p).1 hp) ((hmem' p).1 hq)
  · rw [List.mem_append, hmem, hmem']
  · rw [List.map_append, hpointers, hpointers', List.map_append]

/-- One more issue, at a place of its own. -/
theorem cons {issue : CompileIssue} (h : Covers P pointer issues) (p₀ : Place) (hnew : ¬P p₀)
    (hpointer : issue.pointer = pointer ++ Json.pathText p₀.path) :
    Covers (fun p => p = p₀ ∨ P p) pointer (issue :: issues) := by
  have hfirst : Covers (· = p₀) pointer [issue] :=
    ⟨[p₀], List.pairwise_singleton .., fun p => List.mem_singleton,
      congrArg (fun s => [s]) hpointer⟩
  refine hfirst.append h ?_
  rintro p rfl
  exact hnew

/-- The issues of the value at the end of a token, seen from outside. -/
theorem under {token : String}
    (h : Covers P (keywordPointer pointer (Json.escapeToken token)) issues) :
    Covers (fun p => ∃ q, p = q.under token ∧ P q) pointer issues := by
  obtain ⟨places, hnodup, hmem, hpointers⟩ := h
  refine ⟨places.map (·.under token), ?_, fun p => ?_, ?_⟩
  · exact List.Pairwise.map _ (fun p q hne heq => hne (Place.under_inj.1 heq).2) hnodup
  · simp only [List.mem_map, hmem]
    constructor
    · rintro ⟨q, hq, rfl⟩
      exact ⟨q, rfl, hq⟩
    · rintro ⟨q, rfl, hq⟩
      exact ⟨q, hq, rfl⟩
  · rw [hpointers, List.map_map]
    refine List.map_congr_left fun p _ => ?_
    simp [keywordPointer, Place.under, Json.pathText, String.append_assoc]

/-- The issues of several parts of a definition, each under a token of its own. -/
theorem join {R : String → Place → Prop} {parts : List (String × List CompileIssue)}
    (hnodup : (parts.map (·.1)).Nodup)
    (h : ∀ part ∈ parts,
      Covers (R part.1) (keywordPointer pointer (Json.escapeToken part.1)) part.2) :
    Covers (fun p => ∃ token ∈ parts.map (·.1), ∃ q, p = q.under token ∧ R token q) pointer
      (parts.flatMap (·.2)) := by
  induction parts with
  | nil =>
    refine nil ?_
    rintro p ⟨token, htoken, -⟩
    exact List.not_mem_nil htoken
  | cons part parts ih =>
    obtain ⟨hpart, hparts⟩ := List.forall_mem_cons.1 h
    obtain ⟨hnew, hnodup⟩ := List.nodup_cons.1 hnodup
    rw [List.flatMap_cons]
    refine (hpart.under.append (ih hnodup hparts) ?_).congr fun p => ?_
    · rintro p ⟨q, rfl, -⟩ ⟨token, htoken, q', heq, -⟩
      obtain ⟨rfl, -⟩ := Place.under_inj.1 heq
      exact hnew htoken
    · simp only [List.map_cons, List.mem_cons, or_and_right, exists_or, exists_eq_left]

end Covers

/-! ## Keywords -/

theorem forall_ne_name_iff {v : Json} :
    (∀ k : Kind, v ≠ .string k.name) ↔ v.text?.bind Kind.ofName? = none := by
  constructor
  · intro h
    cases v with
    | string name =>
      cases hk : Kind.ofName? name with
      | none => exact hk
      | some k => exact absurd (congrArg Json.string (Kind.name_of_ofName? hk)) (h k)
    | _ => rfl
  · rintro h k rfl
    cases k <;> cases h

/-- An entry of a list is the first, or one of the others. -/
theorem exists_entry_cons_iff (f : Nat → Place) (R : Nat → Json → Prop) (first : Json)
    (names : List Json) (k : Nat) (p : Place) :
    (∃ i v, p = f (k + i) ∧ (first :: names)[i]? = some v ∧ R i v) ↔
      p = f k ∧ R 0 first ∨
        ∃ i v, p = f (k + 1 + i) ∧ names[i]? = some v ∧ R (i + 1) v := by
  constructor
  · rintro ⟨i, v, hp, hi, hR⟩
    cases i with
    | zero =>
      cases hi
      exact .inl ⟨hp, hR⟩
    | succ i => exact .inr ⟨i, v, by rw [hp, Nat.add_right_comm, Nat.add_assoc], hi, hR⟩
  · rintro (⟨hp, hR⟩ | ⟨i, v, hp, hi, hR⟩)
    · exact ⟨0, first, hp, rfl, hR⟩
    · exact ⟨i + 1, v, by rw [hp, Nat.add_right_comm, Nat.add_assoc], hi, hR⟩

/-- The issues of a list of kinds, whose first entry has the number `k`. -/
theorem covers_readKindNames (names : List Json) (k : Nat) :
    Covers (fun p => ∃ i v, p = ⟨[], some (k + i)⟩ ∧ names[i]? = some v ∧
      ∀ kind : Kind, v ≠ .string kind.name) pointer (readKindNames pointer names).issues := by
  induction names generalizing k with
  | nil =>
    refine .nil ?_
    rintro p ⟨i, v, -, hi, -⟩
    cases hi
  | cons first names ih =>
    have hentry := exists_entry_cons_iff (fun i => ⟨[], some i⟩)
      (fun _ v => ∀ kind : Kind, v ≠ .string kind.name) first names k
    have hrest := ih (k + 1)
    unfold readKindNames
    dsimp only
    cases hkind : first.text?.bind Kind.ofName? with
    | some kind =>
      have hknown : ¬∀ kind : Kind, first ≠ .string kind.name := by
        rw [forall_ne_name_iff, hkind]
        exact Option.some_ne_none _
      refine hrest.congr fun p => ?_
      rw [hentry, or_iff_right fun h => hknown h.2]
    | none =>
      have hunknown := forall_ne_name_iff.2 hkind
      refine (hrest.cons ⟨[], some k⟩ ?_ ?_).congr fun p => ?_
      · rintro ⟨i, v, heq, -⟩
        simp at heq
        omega
      · simp [Json.pathText]
      · rw [hentry, and_iff_left hunknown]

/-- An entry of a list of names that is no text, or repeats one of the names in `seen` or an
earlier entry. -/
def IsBadName (seen : List String) (names : List Json) (i : Nat) (v : Json) : Prop :=
  v.text? = none ∨ ∃ name, v = .string name ∧
    (name ∈ seen ∨ ∃ j < i, names[j]? = some (.string name))

/-- What is wrong with an entry, after the first entry has been seen. -/
theorem isBadName_cons_iff {seen : List String} {first v : Json} {names : List Json} {i : Nat} :
    IsBadName seen (first :: names) (i + 1) v ↔
      IsBadName (first.text?.toList ++ seen) names i v := by
  have hearlier (name : String) : (∃ j < i + 1, (first :: names)[j]? = some (.string name)) ↔
      first = .string name ∨ ∃ j < i, names[j]? = some (.string name) := by
    constructor
    · rintro ⟨j, hj, h⟩
      cases j with
      | zero => exact .inl (Option.some.inj h)
      | succ j => exact .inr ⟨j, by omega, h⟩
    · rintro (h | ⟨j, hj, h⟩)
      · exact ⟨0, by omega, congrArg some h⟩
      · exact ⟨j + 1, by omega, h⟩
  have hfirst (name : String) : first = .string name ↔ name ∈ first.text?.toList := by
    cases first <;> simp [Json.text?, eq_comm]
  simp only [IsBadName, hearlier, hfirst, List.mem_append]
  grind

/-- The issues of a list of required names, whose first entry has the number `k`. -/
theorem covers_readNames (seen : List String) (names : List Json) (k : Nat) :
    Covers (fun p => ∃ i v, p = Place.here.under (toString (k + i)) ∧ names[i]? = some v ∧
      IsBadName seen names i v) pointer (readNames pointer seen k names).issues := by
  induction names generalizing k seen with
  | nil =>
    refine .nil ?_
    rintro p ⟨i, v, -, hi, -⟩
    cases hi
  | cons first names ih =>
    have hentry := exists_entry_cons_iff (fun i => Place.here.under (toString i))
      (IsBadName seen (first :: names)) first names k
    simp only [isBadName_cons_iff] at hentry
    have hbad : IsBadName seen (first :: names) 0 first ↔
        first.text? = none ∨ ∃ name, first = .string name ∧ name ∈ seen := by
      simp [IsBadName]
    have hfresh (R : Nat → Json → Prop) : ¬∃ i v, Place.here.under (toString k) =
        Place.here.under (toString (k + 1 + i)) ∧ names[i]? = some v ∧ R i v := by
      rintro ⟨i, v, heq, -⟩
      have := toString_inj.1 (Place.under_inj.1 heq).1
      omega
    have hpointer : keywordPointer pointer (toString k) =
        pointer ++ Json.pathText (Place.here.under (toString k)).path := by
      simp only [keywordPointer, Place.under, Place.here, Json.pathText, Json.escapeToken_toString,
        String.append_empty, String.append_assoc]
    unfold readNames
    dsimp only
    cases hfirst : first.text? with
    | none =>
      rw [hfirst] at hentry hbad
      refine ((ih seen (k + 1)).cons _ (hfresh _) hpointer).congr fun p => ?_
      rw [hentry, hbad]
      simp
    | some name =>
      have hname : first = .string name := by
        cases first <;> cases hfirst
        rfl
      rw [hfirst] at hentry hbad
      dsimp only
      split
      · rename_i hseen
        have hseen := List.contains_iff_mem.1 hseen
        -- A repeated name is not remembered once more, which makes no difference to the rest.
        have hsame (i : Nat) (v : Json) : IsBadName seen names i v ↔
            IsBadName ((some name).toList ++ seen) names i v := by
          have hmem (other : String) :
              other ∈ (some name).toList ++ seen ↔ other ∈ seen :=
            ⟨fun h => (List.mem_cons.1 h).elim (· ▸ hseen) id, List.mem_cons_of_mem name⟩
          simp only [IsBadName, hmem]
        refine ((ih seen (k + 1)).cons _ (hfresh _) hpointer).congr fun p => ?_
        simp only [hsame]
        rw [hentry, hbad]
        simp [hname, hseen]
      · rename_i hseen
        have hseen : name ∉ seen := fun h => hseen (List.contains_iff_mem.2 h)
        refine (ih (name :: seen) (k + 1)).congr fun p => ?_
        rw [hentry, hbad]
        simp [hname, hseen]

/-- The issue of a value that is wrong as a whole, or none. -/
theorem Covers.value {b : Prop} {issues : List CompileIssue}
    (hP : ∀ p, P p ↔ p = .here ∧ b)
    (h : (∃ message, issues = [⟨pointer, message⟩]) ∧ b ∨ issues = [] ∧ ¬b) :
    Covers P pointer issues := by
  rcases h with ⟨⟨message, rfl⟩, hbad⟩ | ⟨rfl, hgood⟩
  · exact .here fun p => by rw [hP, and_iff_left hbad]
  · exact .nil fun p hp => hgood ((hP p).1 hp).2

theorem covers_readKinds (asked : Json) :
    Covers (fun p => ∃ v, Amiss "type" asked p v) pointer (readKinds pointer asked).issues := by
  simp only [amiss_type_iff]
  cases asked with
  | string name =>
    have hname : (∀ k : Kind, name ≠ k.name) ↔ Kind.ofName? name = none := by
      simpa [Json.text?] using forall_ne_name_iff (v := .string name)
    unfold readKinds readKindNames readKindNames
    cases hk : Kind.ofName? name with
    | none =>
      simp only [Json.text?, Option.bind_some, hk]
      refine .here fun p => ?_
      simp [hname, hk]
    | some k =>
      simp only [Json.text?, Option.bind_some, hk]
      refine .nil fun p => ?_
      rw [Kind.name_of_ofName? hk]
      rintro (⟨-, htext, -⟩ | ⟨-, name, hname, hunknown⟩ | ⟨names, hlist, -⟩)
      · cases htext
      · exact hunknown k (Json.string.inj hname).symm
      · cases hlist
  | array names =>
    cases names with
    | nil =>
      refine .here fun p => ?_
      simp [Json.text?]
    | cons first names =>
      refine (covers_readKindNames (first :: names) 0).congr fun p => ?_
      simp [Json.text?]
  | null | bool | number | object =>
    refine .here fun p => ?_
    simp [Json.text?]

theorem covers_readRequired (asked : Json) :
    Covers (fun p => ∃ v, Amiss "required" asked p v) pointer
      (readRequired pointer asked).issues := by
  simp only [amiss_required_iff]
  cases asked with
  | array names =>
    refine (covers_readNames [] names 0).congr fun p => ?_
    simp [Json.items?, IsBadName]
  | null | bool | number | string | object =>
    refine .here fun p => ?_
    simp [Json.items?]

/-- The issues are those of the malformed places under a keyword of an object. -/
def CoversKeyword (members : Json.Members) (pointer keyword : String)
    (issues : List CompileIssue) : Prop :=
  Covers (fun p => ∃ v, Malformed (.object members) (p.under keyword) v)
    (keywordPointer pointer keyword) issues

section Keywords

/-- The issues of a keyword of the definition itself. -/
theorem covers_optional {read : String → Json → Finding (Option α)}
    (hkeyword : keyword ∉ "properties" :: partKeywords)
    (hread : ∀ asked, Covers (fun p => ∃ v, Amiss keyword asked p v)
      (keywordPointer pointer keyword) (read (keywordPointer pointer keyword) asked).issues) :
    CoversKeyword members pointer keyword (optional members pointer keyword read).issues := by
  rw [List.mem_cons, not_or] at hkeyword
  unfold CoversKeyword optional
  simp only [malformed_under_iff, hkeyword.1, hkeyword.2, false_and, or_false]
  cases members.lookup keyword with
  | none =>
    refine .nil ?_
    rintro p ⟨v, asked, hasked, -⟩
    cases hasked
  | some asked => exact (hread asked).congr fun p => by simp

theorem covers_kinds :
    CoversKeyword members pointer "type" (optional members pointer "type" readKinds).issues :=
  covers_optional (by decide) covers_readKinds

theorem covers_required :
    CoversKeyword members pointer "required"
      (optional members pointer "required" readRequired).issues :=
  covers_optional (by decide) covers_readRequired

theorem covers_allowed :
    CoversKeyword members pointer "enum" (optional members pointer "enum" readAllowed).issues := by
  refine covers_optional (by decide) fun asked => ?_
  refine .value (b := asked.items? = none) (fun p => ?_) ?_
  · simp [amiss_iff, countKeywords, numberKeywords, and_comm]
  · unfold readAllowed
    cases asked.items? <;> simp [Finding.clean, Finding.flawed]

/-- The issues of a bound on a number of characters or items. -/
theorem covers_count (hkeyword : keyword ∈ countKeywords) :
    CoversKeyword members pointer keyword (optional members pointer keyword readCount).issues := by
  simp only [countKeywords, List.mem_cons, List.not_mem_nil, or_false] at hkeyword
  refine covers_optional ?_ fun asked => ?_
  · rcases hkeyword with rfl | rfl | rfl | rfl <;> decide
  · refine .value (b := ∀ i, asked.int? = some i → i < 0) (fun p => ?_) ?_
    · rcases hkeyword with rfl | rfl | rfl | rfl <;>
        simp [amiss_iff, countKeywords, numberKeywords, and_comm]
    · unfold readCount Json.uint64?
      cases asked.int? with
      | none => simp [Finding.flawed]
      | some i =>
        by_cases hi : 0 ≤ i
        · simp [hi, Finding.clean]
        · simp [hi, Finding.flawed]
          omega

theorem covers_pattern :
    CoversKeyword members pointer "pattern"
      (optional members pointer "pattern" readPattern).issues := by
  refine covers_optional (by decide) fun asked => ?_
  refine .value (b := asked.text? = none ∨ ∃ source fault, asked = .string source ∧
    Pattern.ofSource source = .error fault) (fun p => ⟨?_, ?_⟩) ?_
  · rintro ⟨v, h⟩
    simp [amiss_iff, countKeywords, numberKeywords] at h
    rcases h with ⟨htext, rfl, -⟩ | ⟨source, ⟨fault, hfault⟩, rfl, rfl, -⟩
    · exact ⟨rfl, .inl htext⟩
    · exact ⟨rfl, .inr ⟨source, fault, rfl, hfault⟩⟩
  · rintro ⟨rfl, htext | ⟨source, fault, rfl, hfault⟩⟩
    · exact ⟨_, .patternText htext⟩
    · exact ⟨_, .pattern hfault⟩
  · unfold readPattern
    cases asked with
    | string source =>
      dsimp only [Json.text?]
      cases hpattern : Pattern.ofSource source <;> simp [Finding.clean, Finding.flawed, hpattern]
    | _ => simp [Json.text?, Finding.flawed]

theorem covers_format :
    CoversKeyword members pointer "format"
      (optional members pointer "format" readFormat).issues := by
  refine covers_optional (by decide) fun asked => ?_
  refine .value (b := asked.text? = none) (fun p => ?_) ?_
  · simp [amiss_iff, countKeywords, numberKeywords, and_comm]
  · unfold readFormat
    cases asked.text? <;> simp [Finding.clean, Finding.flawed]

/-- The issues of a bound on a number. -/
theorem covers_bound (hkeyword : keyword ∈ numberKeywords) (hstep : keyword ≠ "multipleOf") :
    CoversKeyword members pointer keyword
      (optional members pointer keyword readNumber).issues := by
  simp only [numberKeywords, List.mem_cons, List.not_mem_nil, or_false] at hkeyword
  refine covers_optional ?_ fun asked => ?_
  · rcases hkeyword with rfl | rfl | rfl | rfl | rfl <;> decide
  · refine .value (b := asked.number? = none) (fun p => ?_) ?_
    · rcases hkeyword with rfl | rfl | rfl | rfl | rfl
      case inr.inr.inr.inr => exact absurd rfl hstep
      all_goals simp [amiss_iff, countKeywords, numberKeywords, and_comm]
    · unfold readNumber
      cases asked.number? <;> simp [Finding.clean, Finding.flawed]

theorem covers_step :
    CoversKeyword members pointer "multipleOf"
      (optional members pointer "multipleOf" readStep).issues := by
  refine covers_optional (by decide) fun asked => ?_
  refine .value (b := asked.number? = none ∨ ∃ n, asked = .number n ∧ ¬n.AboveZero)
    (fun p => ⟨?_, ?_⟩) ?_
  · rintro ⟨v, h⟩
    simp [amiss_iff, countKeywords, numberKeywords] at h
    rcases h with ⟨hnumber, rfl, -⟩ | ⟨n, hn, rfl, rfl, -⟩
    · exact ⟨rfl, .inl hnumber⟩
    · exact ⟨rfl, .inr ⟨n, rfl, hn⟩⟩
  · rintro ⟨rfl, hnumber | ⟨n, rfl, hn⟩⟩
    · exact ⟨_, .bound (by decide) hnumber⟩
    · exact ⟨_, .step hn⟩
  · unfold readStep
    cases asked with
    | number n =>
      dsimp only [Json.number?]
      by_cases hpos : n.AboveZero
      · simp [hpos, n.isPositive_iff, Finding.clean]
      · simp [hpos, n.isPositive_iff, Finding.flawed]
    | _ => simp [Json.number?, Finding.flawed]

theorem covers_switch :
    CoversKeyword members pointer "uniqueItems"
      (optional members pointer "uniqueItems" readSwitch).issues := by
  refine covers_optional (by decide) fun asked => ?_
  refine .value (b := asked.bool? = none) (fun p => ?_) ?_
  · simp [amiss_iff, countKeywords, numberKeywords, and_comm]
  · unfold readSwitch
    cases asked.bool? <;> simp [Finding.clean, Finding.flawed]

end Keywords

/-! ## Whole definitions -/

/-- The keywords of a definition and the issues under each, in the order in which they are found. -/
def issuesByKeyword (members : Json.Members) (pointer : String) :
    List (String × List CompileIssue) :=
  let own := OwnFindings.read members pointer
  [("type", own.kinds.issues), ("enum", own.allowed.issues), ("minLength", own.minLength.issues),
    ("maxLength", own.maxLength.issues), ("pattern", own.pattern.issues),
    ("format", own.format.issues), ("minimum", own.minimum.issues),
    ("maximum", own.maximum.issues), ("exclusiveMinimum", own.exclusiveMinimum.issues),
    ("exclusiveMaximum", own.exclusiveMaximum.issues), ("multipleOf", own.multipleOf.issues),
    ("properties", (compileProperties members pointer).issues),
    ("required", own.required.issues),
    ("additionalProperties", (compilePart members "additionalProperties" pointer).issues),
    ("items", (compilePart members "items" pointer).issues), ("minItems", own.minItems.issues),
    ("maxItems", own.maxItems.issues), ("uniqueItems", own.uniqueItems.issues)]

theorem issues_compileAt_object (members : Json.Members) (pointer : String) :
    (compileAt (.object members) pointer).issues =
      (issuesByKeyword members pointer).flatMap (·.2) := by
  rw [compileAt_object]
  simp [issuesByKeyword, OwnFindings.valueIssues, OwnFindings.itemIssues]

/-- The keywords under which something can be malformed. -/
def keywords : List String :=
  ["type", "enum", "minLength", "maxLength", "pattern", "format", "minimum", "maximum",
    "exclusiveMinimum", "exclusiveMaximum", "multipleOf", "properties", "required",
    "additionalProperties", "items", "minItems", "maxItems", "uniqueItems"]

theorem map_fst_issuesByKeyword : (issuesByKeyword members pointer).map (·.1) = keywords := rfl

theorem countKeywords_subset : countKeywords ⊆ keywords := by
  decide

theorem numberKeywords_subset : numberKeywords ⊆ keywords := by
  decide

theorem partKeywords_subset : partKeywords ⊆ keywords := by
  decide

/-- A malformed place of an object lies under one of the keywords. -/
theorem exists_under_of_malformed {p : Place} {v : Json} (h : Malformed (.object members) p v) :
    ∃ token ∈ keywords, ∃ q : Place, p = q.under token := by
  cases h with
  | notDefinition _ hobject => exact absurd rfl (hobject _)
  | @keyword _ token _ q _ _ h =>
    refine ⟨token, ?_, q, rfl⟩
    cases h with
    | count hkeyword => exact countKeywords_subset hkeyword
    | bound hkeyword => exact numberKeywords_subset hkeyword
    | _ => decide
  | property => exact ⟨"properties", by decide, _, rfl⟩
  | @part _ token _ q _ hkeyword =>
    exact ⟨token, partKeywords_subset hkeyword, q, rfl⟩

theorem escapeToken_keyword : ∀ token ∈ keywords, Json.escapeToken token = token := by
  decide

/-- The issues of an object are those under its keywords. -/
theorem covers_object
    (h : ∀ part ∈ issuesByKeyword members pointer,
      CoversKeyword members pointer part.1 part.2) :
    Covers (fun p => ∃ v, Malformed (.object members) p v) pointer
      (compileAt (.object members) pointer).issues := by
  rw [issues_compileAt_object]
  have hnodup : ((issuesByKeyword members pointer).map (·.1)).Nodup := by
    rw [map_fst_issuesByKeyword]
    decide
  refine (Covers.join (R := fun token q => ∃ v, Malformed (.object members) (q.under token) v)
    hnodup fun part hpart => ?_).congr fun p => ?_
  · -- Keywords are written unescaped, unlike the names of members.
    rw [escapeToken_keyword part.1 (List.mem_map_of_mem hpart)]
    exact h part hpart
  · rw [map_fst_issuesByKeyword]
    constructor
    · rintro ⟨token, -, q, rfl, hv⟩
      exact hv
    · rintro ⟨v, hv⟩
      obtain ⟨token, htoken, q, rfl⟩ := exists_under_of_malformed hv
      exact ⟨token, htoken, q, rfl, v, hv⟩

/-- The malformed places of the definitions that some members are, of which each name has one. -/
def MalformedMember (ps : Json.Members) (p : Place) : Prop :=
  ∃ name d inner, ps.lookup name = some d ∧ p = Place.under name inner ∧ ∃ v, Malformed d inner v

theorem malformedMember_cons_iff {name : String} {d : Json} {ps : Json.Members} {p : Place}
    (hnew : name ∉ ps.map (·.1)) :
    MalformedMember ((name, d) :: ps) p ↔
      (∃ q, p = q.under name ∧ ∃ v, Malformed d q v) ∨ MalformedMember ps p := by
  constructor
  · rintro ⟨other, d', inner, hd, rfl, hv⟩
    rw [List.lookup_cons] at hd
    split at hd
    · rename_i heq
      cases hd
      exact .inl ⟨inner, by rw [eq_of_beq heq], hv⟩
    · exact .inr ⟨other, d', inner, hd, rfl, hv⟩
  · rintro (⟨q, rfl, hv⟩ | ⟨other, d', inner, hd, rfl, hv⟩)
    · exact ⟨name, d, q, List.lookup_cons_self, rfl, hv⟩
    · refine ⟨other, d', inner, ?_, rfl, hv⟩
      have hne : other ≠ name := by
        rintro rfl
        exact hnew (List.mem_map_of_mem (Json.mem_of_lookup hd))
      rw [List.lookup_cons, beq_false_of_ne hne]
      exact hd

/-- The issues of the first of some members and those of the others. -/
theorem covers_compileMembers_cons {name : String} {d : Json} {ps : Json.Members}
    (hnew : name ∉ ps.map (·.1))
    (hd : Covers (fun p => ∃ v, Malformed d p v)
      (keywordPointer pointer (Json.escapeToken name))
      (compileAt d (keywordPointer pointer (Json.escapeToken name))).issues)
    (hps : Covers (MalformedMember ps) pointer (compileMembers ps pointer).issues) :
    Covers (MalformedMember ((name, d) :: ps)) pointer
      (compileMembers ((name, d) :: ps) pointer).issues := by
  rw [compileMembers]
  refine (hd.under.append hps ?_).congr fun p => (malformedMember_cons_iff hnew).symm
  rintro p ⟨q, rfl, -⟩ ⟨other, d', inner, hd', heq, -⟩
  obtain ⟨rfl, -⟩ := Place.under_inj.1 heq
  exact hnew (List.mem_map_of_mem (Json.mem_of_lookup hd'))

/-- The issues of the definitions declared for members. -/
theorem covers_compileProperties
    (h : ∀ ps, members.lookup "properties" = some (.object ps) →
      Covers (MalformedMember ps) (keywordPointer pointer "properties")
        (compileMembers ps (keywordPointer pointer "properties")).issues) :
    CoversKeyword members pointer "properties" (compileProperties members pointer).issues := by
  have hpart : "properties" ∉ partKeywords := by decide
  unfold CoversKeyword
  simp only [malformed_under_iff, hpart, false_and, or_false, true_and]
  unfold compileProperties
  cases hasked : members.lookup "properties" with
  | none => exact .nil (by simp)
  | some asked =>
    cases asked with
    | object ps =>
      have hamiss (p : Place) (v : Json) : ¬Amiss "properties" (.object ps) p v := by
        simp [amiss_iff, countKeywords, numberKeywords]
      refine (h ps hasked).congr fun p => ?_
      constructor
      · rintro ⟨name, d, inner, hd, rfl, v, hv⟩
        exact ⟨v, .inr ⟨ps, rfl, name, d, inner, hd, rfl, hv⟩⟩
      · rintro ⟨v, ⟨asked, hsome, h⟩ | ⟨ps', hsome, name, d, inner, hd, rfl, hv⟩⟩
        · cases hsome
          exact absurd h (hamiss _ v)
        · cases hsome
          exact ⟨name, d, inner, hd, rfl, v, hv⟩
    | _ => exact .here fun p => by simp [amiss_iff, countKeywords, numberKeywords]

/-- The issues of a part that is a definition. -/
theorem covers_compilePart (hkeyword : keyword ∈ partKeywords)
    (h : ∀ d, members.lookup keyword = some d →
      Covers (fun p => ∃ v, Malformed d p v) (keywordPointer pointer keyword)
        (compileAt d (keywordPointer pointer keyword)).issues) :
    CoversKeyword members pointer keyword (compilePart members keyword pointer).issues := by
  have hamiss (asked : Json) (p : Place) (v : Json) : ¬Amiss keyword asked p v := by
    rw [partKeywords, List.mem_cons, List.mem_singleton] at hkeyword
    rcases hkeyword with rfl | rfl <;> simp [amiss_iff, countKeywords, numberKeywords]
  have hproperties : keyword ≠ "properties" := by
    rintro rfl
    exact absurd hkeyword (by decide)
  unfold CoversKeyword
  simp only [malformed_under_iff, hkeyword, hamiss, hproperties, and_false, exists_false,
    false_and, false_or, true_and]
  cases hd : members.lookup keyword with
  | none =>
    rw [compilePart_of_none hd]
    refine .nil ?_
    rintro p ⟨v, d, hd', -⟩
    cases hd'
  | some d =>
    rw [compilePart_of_some hd]
    exact (h d hd).congr fun p => by simp

/-- **The issues of a definition are its malformed places**, by induction on the definition. -/
theorem covers_compileAt (definition : Json) (pointer : String) :
    definition.Ordered → Covers (fun p => ∃ v, Malformed definition p v) pointer
      (compileAt definition pointer).issues := by
  apply compileAt.induct
    (fun definition pointer => definition.Ordered →
      Covers (fun p => ∃ v, Malformed definition p v) pointer (compileAt definition pointer).issues)
    (fun members keyword pointer => keyword ∈ partKeywords → (Json.object members).Ordered →
      CoversKeyword members pointer keyword (compilePart members keyword pointer).issues)
    (fun ps pointer => (Json.object ps).Ordered →
      Covers (MalformedMember ps) pointer (compileMembers ps pointer).issues)
  case case1 =>
    intro pointer allowed _
    rw [compileAt]
    refine .nil ?_
    rintro p ⟨v, hv⟩
    cases hv with
    | notDefinition hbool => exact hbool allowed rfl
  case case2 =>
    intro pointer members hproperties hadditional hitems hordered
    refine covers_object ?_
    simp only [issuesByKeyword, List.forall_mem_cons, OwnFindings.read]
    exact ⟨covers_kinds, covers_allowed, covers_count (by decide), covers_count (by decide),
      covers_pattern, covers_format, covers_bound (by decide) (by decide),
      covers_bound (by decide) (by decide), covers_bound (by decide) (by decide),
      covers_bound (by decide) (by decide), covers_step,
      covers_compileProperties fun ps hps => hproperties ps hps (hordered.of_lookup hps),
      covers_required, hadditional (by decide) hordered, hitems (by decide) hordered,
      covers_count (by decide), covers_count (by decide), covers_switch,
      fun part hpart => absurd hpart List.not_mem_nil⟩
  case case3 =>
    intro pointer definition hbool hobject _
    rw [compileAt.eq_3 _ _ hbool hobject]
    refine .here fun p => ⟨?_, ?_⟩
    · rintro ⟨v, hv⟩
      cases hv with
      | notDefinition => rfl
      | keyword | property | part => exact absurd rfl (hobject _)
    · rintro rfl
      exact ⟨definition, .notDefinition hbool hobject⟩
  case case4 =>
    intro members keyword pointer hnone hkeyword _
    refine covers_compilePart hkeyword fun d hd => ?_
    cases hnone.symm.trans hd
  case case5 =>
    intro members keyword pointer d hd ih hkeyword hordered
    refine covers_compilePart hkeyword fun d' hd' => ?_
    obtain rfl := Option.some.inj (hd.symm.trans hd')
    exact ih (hordered.of_lookup hd)
  case case6 =>
    intro pointer _
    rw [compileMembers]
    refine .nil ?_
    rintro p ⟨name, d, inner, hd, -⟩
    cases hd
  case case7 =>
    intro pointer name d ps ih ihs hordered
    cases hordered with
    | object hnames hvalues =>
      obtain ⟨hd, hps⟩ := List.forall_mem_cons.1 hvalues
      obtain ⟨hnew, -⟩ := List.nodup_cons.1 hnames.nodup
      exact covers_compileMembers_cons hnew (ih hd)
        (ihs (.object (List.pairwise_cons.1 hnames).2 hps))

end Schema

/-- **Compiling finds exactly the malformed places and points at them.** A definition compiles
exactly if no place of it is malformed. If it does not, its issues correspond one to one to the
malformed places, and the pointer of an issue, without the number sign, leads to the value there.
Every document that is read lists its members in order. -/
theorem compile_malformed {definition : Json} (h : definition.Ordered) :
    ((∃ schema, Schema.compile definition = .ok schema) ↔
      ∀ place v, ¬Malformed definition place v) ∧
    (∀ e, Schema.compile definition = .error e → ∃ places : List Place, places.Nodup ∧
      (∀ place, place ∈ places ↔ ∃ v, Malformed definition place v) ∧
      e.issues.map (·.pointer) = places.map fun place => "#" ++ Json.pathText place.path) ∧
    ∀ place v, Malformed definition place v →
      definition.pointer? (Json.pathText place.path) = some v := by
  obtain ⟨places, hnodup, hmem, hpointers⟩ := Schema.covers_compileAt definition "#" h
  refine ⟨?_, ?_, ?_⟩
  · have hnone : (∀ place v, ¬Malformed definition place v) ↔ places = [] := by
      simp only [List.eq_nil_iff_forall_not_mem, hmem, not_exists]
    rw [hnone]
    constructor
    · rintro ⟨schema, hschema⟩
      rw [(Schema.compile_eq_ok_iff.1 hschema).1] at hpointers
      exact List.map_eq_nil_iff.1 hpointers.symm
    · rintro rfl
      exact ⟨_, Schema.compile_eq_ok_iff.2 ⟨List.map_eq_nil_iff.1 hpointers, rfl⟩⟩
  · intro e he
    unfold Schema.compile at he
    dsimp only at he
    split at he <;> cases he
    exact ⟨places, hnodup, hmem, hpointers⟩
  · intro place v hv
    rw [Json.pointer?_pathText]
    exact hv.atPath?

namespace Sample

/-- A definition that declares an unknown kind for a member whose name holds a slash. -/
def unknownKind : Json :=
  .object [("properties", .object [("a/b", .object [("type", .string "text")])])]

theorem unknownKind_ordered : unknownKind.Ordered := by
  have hread : Json.read? unknownKind.print = some unknownKind := by decide +kernel
  exact Json.read?_ordered hread

/-- The definition does not compile, and the place of the unknown kind is pointed at. -/
theorem compile_malformed_unknownKind :
    (¬∃ schema, Schema.compile unknownKind = .ok schema) ∧
      unknownKind.pointer? "/properties/a~1b/type" = some (.string "text") := by
  obtain ⟨hcompiles, -, hpointer⟩ := compile_malformed unknownKind_ordered
  have hkind : Malformed (.object [("type", .string "text")]) (Place.here.under "type")
      (.string "text") :=
    .keyword rfl (.kind fun k => by cases k <;> decide)
  have hplace : Malformed unknownKind (((Place.here.under "type").under "a/b").under "properties")
      (.string "text") :=
    .property rfl rfl hkind
  refine ⟨fun hok => hcompiles.1 hok _ _ hplace, ?_⟩
  have htext : Json.pathText ["properties", "a/b", "type"] = "/properties/a~1b/type" := by
    decide +kernel
  rw [← htext]
  exact hpointer _ _ hplace

end Sample

end SchemaVault
