import SchemaVault.Proofs.Schema.Compilation
import SchemaVault.Proofs.Schema.Locations
import SchemaVault.Proofs.Schema.Meaning
import Mathlib.Data.List.Basic
import Mathlib.Data.List.Pairwise

/-!
# What is told of a payload itself

The issues of a payload itself are known to the word. Each keyword has its own words for what it
asks (`Keyword.wording`), and no two keywords begin alike (`Keyword.eq_of_append_eq`). When a
definition compiles, a payload of a kind that it allows is told once of each keyword that it
misses, in the order of the keywords and before anything that is wrong further inside
(`issuesAt_ruled`). So a payload that is no object is told of a keyword exactly if it is of a kind
that is allowed and misses the keyword (`mem_issuesAt_iff`).
-/

namespace SchemaVault

open Definition

/-! ## The words of keywords -/

namespace Definition.Keyword

/-- The words with which the issue of a keyword begins. -/
def lead : Keyword → String
  | enum => "must be one of ["
  | const => "must equal "
  | minLength => "must be at least "
  | maxLength => "must be at most "
  | pattern => "must match pattern "
  | format => "must be a valid "
  | minimum => "must be >= "
  | maximum => "must be <= "
  | exclusiveMinimum => "must be > "
  | exclusiveMaximum => "must be < "
  | multipleOf => "must be a multiple of "
  | minItems => "must contain at least "
  | maxItems => "must contain at most "
  | uniqueItems => "items must be unique"

/-- The words for what is asked under a keyword. -/
def detail : Keyword → (asked : Json) → String
  | enum, asked => ", ".intercalate ((itemsOf asked).map Json.print) ++ "]"
  | minLength, asked | maxLength, asked => asked.print ++ " characters long"
  | minItems, asked | maxItems, asked => asked.print ++ " items"
  | pattern, asked | format, asked => asked.text?.getD ""
  | uniqueItems, _ => ""
  | _, asked => asked.print

/-- **What a payload is told that misses a keyword.** -/
def wording (k : Keyword) (asked : Json) : String := k.lead ++ k.detail asked

/-- Neither of two keywords begins as the other does. -/
def Apart (k k' : Keyword) : Prop :=
  ¬k.lead.toList <+: k'.lead.toList ∧ ¬k'.lead.toList <+: k.lead.toList

instance : DecidableRel Apart := fun _ _ => inferInstanceAs (Decidable (_ ∧ _))

instance : Std.Symm Apart := ⟨fun _ _ => And.symm⟩

theorem all_apart : all.Pairwise Apart := by decide +kernel

theorem eq_of_lead_isPrefix {k k' : Keyword} (h : k.lead.toList <+: k'.lead.toList) : k = k' := by
  by_contra hne
  exact (all_apart.forall k.mem_all k'.mem_all hne).1 h

/-- **The words of different keywords are different.** -/
theorem eq_of_append_eq {k k' : Keyword} {s t : String} (h : k.lead ++ s = k'.lead ++ t) :
    k = k' := by
  have hlists : k.lead.toList ++ s.toList = k'.lead.toList ++ t.toList := by
    rw [← String.toList_append, ← String.toList_append, h]
  have hprefix : k.lead.toList <+: k'.lead.toList ++ t.toList := ⟨s.toList, hlists⟩
  rcases List.prefix_or_prefix_of_prefix hprefix (List.prefix_append _ _) with hle | hle
  · exact eq_of_lead_isPrefix hle
  · exact (eq_of_lead_isPrefix hle).symm

end Definition.Keyword

theorem Json.print_number (n : Number) : (Json.number n).print = n.text := by
  rw [print, chars, String.ofList_toList]

theorem Pattern.source_of_ofSource {source : String} {p : Pattern} (h : ofSource source = .ok p) :
    p.source = source := by
  unfold ofSource at h
  cases hread : Expr.read source.toList with
  | error fault =>
    rw [hread] at h
    cases h
  | ok e =>
    simp only [hread, bind, Except.bind] at h
    split at h
    · cases h
      rfl
    · cases h

namespace Schema

variable {pointer path : String} {asked v : Json} {members : Json.Members} {α : Type}

/-! ## Keywords that read without issues -/

theorem isOfKind_name (v : Json) (k : Kind) : isOfKind v k.name = k.accepts v := by
  cases k <;> cases v <;> rfl

/-- Names of kinds that read without issues are the names of the kinds read. -/
theorem readKindNames_clean (names : List Json)
    (h : (readKindNames pointer names).issues = []) :
    names.filterMap Json.text? = (readKindNames pointer names).value.map Kind.name := by
  induction names with
  | nil => rfl
  | cons v names ih =>
    unfold readKindNames at h ⊢
    dsimp only at h ⊢
    cases hk : v.text?.bind Kind.ofName? with
    | none => simp [hk] at h
    | some k =>
      obtain ⟨name, hname, hkind⟩ := Option.bind_eq_some_iff.1 hk
      simp only [hk] at h
      simp [hname, ih h, Kind.name_of_ofName? hkind]

theorem readKinds_clean (h : (readKinds pointer asked).issues = []) :
    ∃ kinds, kindNames asked = kinds.map Kind.name ∧
      (readKinds pointer asked).value = some kinds := by
  unfold readKinds at h ⊢
  cases asked with
  | string name => exact ⟨_, readKindNames_clean [.string name] h, rfl⟩
  | array names =>
    cases names with
    | nil => cases h
    | cons x xs => exact ⟨_, readKindNames_clean (x :: xs) h, rfl⟩
  | _ => cases h

theorem readAllowed_clean (h : (readAllowed pointer asked).issues = []) :
    ∃ allowed, asked = .array allowed ∧ (readAllowed pointer asked).value = some allowed := by
  cases asked with
  | array allowed => exact ⟨allowed, rfl, rfl⟩
  | _ => cases h

theorem readCount_clean (h : (readCount pointer asked).issues = []) :
    ∃ n : UInt64, asked = .number (.ofUInt64 n) ∧ (readCount pointer asked).value = some n := by
  unfold readCount at h ⊢
  cases hn : asked.uint64? with
  | none => simp [hn, Finding.flawed] at h
  | some n =>
    refine ⟨n, ?_, rfl⟩
    cases asked with
    | number m =>
      cases m with
      | integer i hrange =>
        simp only [Json.uint64?, Json.int?, Number.toInt?] at hn
        split at hn
        · rename_i hpos
          obtain rfl := Option.some.inj hn
          have hi : ((UInt64.ofNat i.toNat).toNat : Int) = i := by
            rw [UInt64.toNat_ofNat_of_lt' (by simp [UInt64.size]; omega)]
            omega
          simp only [Number.ofUInt64, hi]
        · cases hn
      | double d => cases hn
    | _ => cases hn

theorem readPattern_clean (h : (readPattern pointer asked).issues = []) :
    ∃ source p, asked = .string source ∧ Pattern.ofSource source = .ok p ∧
      (readPattern pointer asked).value = some p := by
  cases asked with
  | string source =>
    unfold readPattern at h ⊢
    dsimp only [Json.text?] at h ⊢
    cases hp : Pattern.ofSource source with
    | ok p => exact ⟨source, p, rfl, hp, rfl⟩
    | error fault => simp [hp, Finding.flawed] at h
  | _ => cases h

theorem readFormat_clean (h : (readFormat pointer asked).issues = []) :
    ∃ name, asked = .string name ∧
      (readFormat pointer asked).value = some (name, Format.ofName name) := by
  cases asked with
  | string name => exact ⟨name, rfl, rfl⟩
  | _ => cases h

theorem readNumber_clean (h : (readNumber pointer asked).issues = []) :
    ∃ n, asked = .number n ∧ (readNumber pointer asked).value = some n := by
  cases asked with
  | number n => exact ⟨n, rfl, rfl⟩
  | _ => cases h

theorem readStep_clean (h : (readStep pointer asked).issues = []) :
    ∃ n, asked = .number n ∧ (readStep pointer asked).value = some n := by
  cases asked with
  | number n =>
    refine ⟨n, rfl, ?_⟩
    unfold readStep
    dsimp only [Json.number?]
    split <;> rfl
  | _ => cases h

theorem readSwitch_clean (h : (readSwitch pointer asked).issues = []) :
    ∃ b, asked = .bool b ∧ (readSwitch pointer asked).value = some b := by
  cases asked with
  | bool b => exact ⟨b, rfl, rfl⟩
  | _ => cases h

theorem readNames_clean {seen : List String} {i : Nat} {names : List Json}
    (h : (readNames pointer seen i names).issues = []) :
    (readNames pointer seen i names).value = names.filterMap Json.text? := by
  induction names generalizing seen i with
  | nil => rfl
  | cons v names ih =>
    unfold readNames at h ⊢
    dsimp only at h ⊢
    cases hv : v.text? with
    | none => simp [hv] at h
    | some name =>
      simp only [hv] at h ⊢
      split at h
      · cases h
      · rename_i hnew
        rw [if_neg hnew, List.filterMap_cons_some hv, ih h]

theorem readRequired_clean (h : (readRequired pointer asked).issues = []) :
    ∃ names, asked = .array names ∧
      (readRequired pointer asked).value = some (names.filterMap Json.text?) := by
  cases asked with
  | array names => exact ⟨names, rfl, congrArg some (readNames_clean h)⟩
  | _ => cases h

/-! ## Issues of the rules -/

/-- The issue of a keyword, if a payload misses it. -/
def report (members : Json.Members) (v : Json) (path : String) (k : Keyword) : Option Issue :=
  (members.lookup k.name).bind fun asked =>
    if k.isMet asked v then none else some ⟨path, k.wording asked⟩

theorem isSome_report (k : Keyword) : (report members v path k).isSome = misses members v k := by
  unfold report misses
  cases members.lookup k.name with
  | none => rfl
  | some asked =>
    dsimp only [Option.bind_some, Option.any_some]
    cases k.isMet asked v <;> rfl

theorem length_filterMap_report (ks : List Keyword) :
    (ks.filterMap (report members v path)).length = ks.countP (misses members v) := by
  simp only [List.length_filterMap_eq_countP, isSome_report]

section Rules

variable {k : Keyword} {name : String} {violated : α → Bool} {message : α → String}

/-- The rule of a keyword that reads without issues tells of the keyword, provided that it says what
the keyword asks. -/
theorem issueOf_optional {read : String → Json → Finding (Option α)} (k : Keyword) (v : Json)
    (hclean : (optional members pointer name read).issues = []) (hname : k.name = name)
    (hread : ∀ pointer asked, (read pointer asked).issues = [] →
      ∃ a, (read pointer asked).value = some a ∧ violated a = !k.isMet asked v ∧
        message a = k.wording asked) :
    issueOf (optional members pointer name read).value path violated message =
      (report members v path k).toList := by
  subst hname
  unfold optional report at *
  cases hasked : members.lookup k.name with
  | none => rfl
  | some asked =>
    rw [hasked] at hclean
    obtain ⟨a, hvalue, hviolated, hmessage⟩ := hread _ asked hclean
    dsimp only
    rw [hvalue, issueOf, hviolated, hmessage, issueIf, Option.bind_some]
    cases k.isMet asked v <;> rfl

/-- The rule of a keyword under which a count is asked. -/
theorem issueOf_count {violated : UInt64 → Bool} {message : UInt64 → String} (k : Keyword)
    (v : Json)
    (hclean : (optional members pointer name readCount).issues = []) (hname : k.name = name)
    (hmet : ∀ n : UInt64, violated n = !k.isMet (.number (.ofUInt64 n)) v)
    {unit : String} (hmessage : ∀ n : UInt64, message n = k.lead ++ toString n.toNat ++ unit)
    (hdetail : k.detail = fun asked => asked.print ++ unit) :
    issueOf (optional members pointer name readCount).value path violated message =
      (report members v path k).toList := by
  refine issueOf_optional k v hclean hname fun _ asked hread => ?_
  obtain ⟨n, rfl, hvalue⟩ := readCount_clean hread
  refine ⟨n, hvalue, hmet n, ?_⟩
  have hprint : (Json.number (.ofUInt64 n)).print = toString n.toNat := Json.print_number _
  simp only [hmessage, Keyword.wording, hdetail, hprint, String.append_assoc]

/-- The rule of a keyword under which a number is asked. -/
theorem issueOf_number {violated : Number → Bool} {message : Number → String}
    {read : String → Json → Finding (Option Number)} (k : Keyword) (v : Json)
    (hread : ∀ {pointer asked}, (read pointer asked).issues = [] →
      ∃ m, asked = .number m ∧ (read pointer asked).value = some m)
    (hclean : (optional members pointer name read).issues = []) (hname : k.name = name)
    (hmet : ∀ m : Number, violated m = !k.isMet (.number m) v)
    (hmessage : ∀ m : Number, message m = k.lead ++ m.text) (hdetail : k.detail = Json.print) :
    issueOf (optional members pointer name read).value path violated message =
      (report members v path k).toList := by
  refine issueOf_optional k v hclean hname fun _ asked hclean => ?_
  obtain ⟨m, rfl, hvalue⟩ := hread hclean
  refine ⟨m, hvalue, hmet m, ?_⟩
  rw [hmessage, Keyword.wording, hdetail, Json.print_number]

end Rules

/-- The issues of the allowed values and of the constant. -/
theorem valueIssues_eq (h : (OwnFindings.read members pointer).valueIssues = []) (v : Json)
    (path : String) : valueIssues (OwnFindings.read members pointer).rules v path =
      Keyword.forValues.filterMap (report members v path) := by
  simp only [OwnFindings.valueIssues, OwnFindings.read, List.append_eq_nil_iff, and_assoc] at h
  obtain ⟨-, henum, -⟩ := h
  have hconstant : issueOf (members.lookup "const") path (fun constant => !constant.same v)
      (fun constant => "must equal " ++ constant.print) =
      (report members v path .const).toList := by
    have hname : Keyword.const.name = "const" := rfl
    rw [report, hname]
    cases members.lookup "const" with
    | none => rfl
    | some constant =>
      rw [issueOf, issueIf, Option.bind_some, Keyword.isMet]
      cases constant.same v <;> rfl
  simp only [valueIssues, OwnFindings.rules, OwnFindings.read]
  rw [hconstant, issueOf_optional .enum v henum rfl]
  · simp [Keyword.forValues, List.filterMap_eq_flatMap_toList]
  · intro _ asked hread
    obtain ⟨allowed, rfl, hvalue⟩ := readAllowed_clean hread
    refine ⟨allowed, hvalue, by rw [Keyword.isMet], ?_⟩
    rw [Keyword.wording, Keyword.lead, Keyword.detail, itemsOf, String.append_assoc]

/-- The issues of the rules for texts. -/
theorem textIssues_eq (h : (OwnFindings.read members pointer).valueIssues = []) (s : String)
    (path : String) : textIssues (OwnFindings.read members pointer).rules s path =
      Keyword.forTexts.filterMap (report members (.string s) path) := by
  simp only [OwnFindings.valueIssues, OwnFindings.read, List.append_eq_nil_iff, and_assoc] at h
  obtain ⟨-, -, hleast, hmost, hpattern, hformat, -⟩ := h
  simp only [textIssues, OwnFindings.rules, OwnFindings.read]
  rw [issueOf_count .minLength (.string s) hleast rfl ?_ ?_ rfl,
    issueOf_count .maxLength (.string s) hmost rfl ?_ ?_ rfl,
    issueOf_optional .pattern (.string s) hpattern rfl,
    issueOf_optional .format (.string s) hformat rfl]
  · simp [Keyword.forTexts, List.filterMap_eq_flatMap_toList]
  · intro _ asked hread
    obtain ⟨name, rfl, hvalue⟩ := readFormat_clean hread
    exact ⟨_, hvalue, by rw [Keyword.isMet], rfl⟩
  · intro _ asked hread
    obtain ⟨source, p, rfl, hp, hvalue⟩ := readPattern_clean hread
    refine ⟨p, hvalue, by simp only [Keyword.isMet, Keyword.finds, hp], ?_⟩
    rw [Pattern.source_of_ofSource hp]
    rfl
  · intro n
    simp [Number.ofUInt64, Keyword.isMet, ← decide_not]
  · exact fun _ => rfl
  · intro n
    simp [Number.ofUInt64, Keyword.isMet, ← decide_not]
  · exact fun _ => rfl

/-- The issues of the rules for numbers. -/
theorem numberIssues_eq (h : (OwnFindings.read members pointer).valueIssues = []) (n : Number)
    (path : String) : numberIssues (OwnFindings.read members pointer).rules n path =
      Keyword.forNumbers.filterMap (report members (.number n) path) := by
  simp only [OwnFindings.valueIssues, OwnFindings.read, List.append_eq_nil_iff, and_assoc] at h
  obtain ⟨-, -, -, -, -, -, hleast, hmost, habove, hbelow, hstep⟩ := h
  simp only [numberIssues, OwnFindings.rules, OwnFindings.read]
  rw [issueOf_number .minimum (.number n) readNumber_clean hleast rfl ?_ ?_ rfl,
    issueOf_number .maximum (.number n) readNumber_clean hmost rfl ?_ ?_ rfl,
    issueOf_number .exclusiveMinimum (.number n) readNumber_clean habove rfl ?_ ?_ rfl,
    issueOf_number .exclusiveMaximum (.number n) readNumber_clean hbelow rfl ?_ ?_ rfl,
    issueOf_number .multipleOf (.number n) readStep_clean hstep rfl ?_ ?_ rfl]
  · simp [Keyword.forNumbers, List.filterMap_eq_flatMap_toList]
  · exact fun step => by rw [Keyword.isMet]
  · exact fun _ => rfl
  · exact fun m => by rw [Keyword.isMet]
  · exact fun _ => rfl
  · exact fun m => by rw [Keyword.isMet]
  · exact fun _ => rfl
  · exact fun m => by rw [Keyword.isMet, Bool.not_not]
  · exact fun _ => rfl
  · exact fun m => by rw [Keyword.isMet, Bool.not_not]
  · exact fun _ => rfl

theorem hasDuplicate_eq_false_iff (vs : List Json) :
    hasDuplicate vs = false ↔ vs.Pairwise fun a b => b.same a = false := by
  induction vs with
  | nil => simp [hasDuplicate]
  | cons v vs ih => simp [hasDuplicate, ih]

/-- An array has a duplicate exactly if it has the same item at two places. -/
theorem hasDuplicate_iff (vs : List Json) : hasDuplicate vs ↔
    ∃ (m n : Nat) (x y : Json), m < n ∧ vs[m]? = some x ∧ vs[n]? = some y ∧ y.same x := by
  rw [← Bool.not_eq_false, hasDuplicate_eq_false_iff, List.pairwise_iff_getElem]
  constructor
  · intro h
    push Not at h
    obtain ⟨m, n, hm, hn, hlt, hsame⟩ := h
    exact ⟨m, n, _, _, hlt, List.getElem?_eq_getElem hm, List.getElem?_eq_getElem hn,
      (Bool.not_eq_false _).mp hsame⟩
  · rintro ⟨m, n, x, y, hlt, hx, hy, hsame⟩ h
    obtain ⟨hm, rfl⟩ := List.getElem?_eq_some_iff.1 hx
    obtain ⟨hn, rfl⟩ := List.getElem?_eq_some_iff.1 hy
    exact Bool.false_ne_true ((h m n hm hn hlt).symm.trans hsame)

/-- The issues of the rules for the number of items. -/
theorem countIssues_eq (h : (OwnFindings.read members pointer).itemIssues = [])
    (vs : List Json) (path : String) :
    countIssues (OwnFindings.read members pointer).rules vs path =
      Keyword.forArrays.filterMap (report members (.array vs) path) := by
  simp only [OwnFindings.itemIssues, OwnFindings.read, List.append_eq_nil_iff, and_assoc] at h
  obtain ⟨hleast, hmost, hunique⟩ := h
  -- A switch that is absent is off, unlike the other rules, so that it is no rule of its own.
  have hswitch : issueIf ((optional members pointer "uniqueItems" readSwitch).value.getD false &&
      hasDuplicate vs) path "items must be unique" =
      issueOf (optional members pointer "uniqueItems" readSwitch).value path
        (· && hasDuplicate vs) fun _ => "items must be unique" := by
    cases (optional members pointer "uniqueItems" readSwitch).value <;> rfl
  simp only [countIssues, OwnFindings.rules, OwnFindings.read]
  rw [hswitch, issueOf_count .minItems (.array vs) hleast rfl ?_ ?_ rfl,
    issueOf_count .maxItems (.array vs) hmost rfl ?_ ?_ rfl,
    issueOf_optional .uniqueItems (.array vs) hunique rfl]
  · simp [Keyword.forArrays, List.filterMap_eq_flatMap_toList]
  · intro _ asked hread
    obtain ⟨b, rfl, hvalue⟩ := readSwitch_clean hread
    refine ⟨b, hvalue, ?_, rfl⟩
    cases b <;> simp [Keyword.isMet, ← hasDuplicate_eq_false_iff]
  · intro n
    simp [Number.ofUInt64, Keyword.isMet, ← decide_not]
  · exact fun _ => rfl
  · intro n
    simp [Number.ofUInt64, Keyword.isMet, ← decide_not]
  · exact fun _ => rfl

/-- The issue of the kind. -/
theorem length_kindIssues (h : (OwnFindings.read members pointer).valueIssues = []) (v : Json)
    (path : String) :
    (kindIssues (OwnFindings.read members pointer).rules v path).length =
      (!allowsKind members v).toNat := by
  simp only [OwnFindings.valueIssues, OwnFindings.read, List.append_eq_nil_iff, and_assoc] at h
  obtain ⟨hkinds, -⟩ := h
  have hany : (optional members pointer "type" readKinds).value.any
      (fun kinds => !kinds.any (·.accepts v)) = !allowsKind members v := by
    unfold optional allowsKind at *
    cases hasked : members.lookup "type" with
    | none => rfl
    | some asked =>
      rw [hasked] at hkinds
      obtain ⟨kinds, hnames, hvalue⟩ := readKinds_clean hkinds
      dsimp only
      rw [hvalue, Option.any_some, Option.all_some, hnames, List.any_map]
      congr 2
      funext k
      exact (isOfKind_name v k).symm
  simp only [kindIssues, OwnFindings.rules, OwnFindings.read]
  rw [← hany]
  cases (optional members pointer "type" readKinds).value with
  | none => rfl
  | some kinds =>
    rw [issueOf, issueIf, Option.any_some]
    cases !kinds.any (·.accepts v) <;> rfl

/-! ## Issues of whole payloads -/

/-- The keywords of which a payload is told are those for payloads of all kinds and those for its
own kind. -/
theorem filterMap_all (members : Json.Members) (v : Json) (path : String) :
    Keyword.all.filterMap (report members v path) =
      Keyword.forValues.filterMap (report members v path) ++
        match v with
        | .string _ => Keyword.forTexts.filterMap (report members v path)
        | .number _ => Keyword.forNumbers.filterMap (report members v path)
        | .array _ => Keyword.forArrays.filterMap (report members v path)
        | _ => [] := by
  have hother {kind : Kind} {ks : List Keyword} (hks : ∀ k ∈ ks, k.kind? = some kind)
      (hv : kind.accepts v = false) : ks.filterMap (report members v path) = [] := by
    refine List.filterMap_eq_nil_iff.2 fun k hk => ?_
    rw [← Option.isNone_iff_eq_none, ← Option.not_isSome, isSome_report,
      misses_of_kind (hks k hk) hv, Bool.not_false]
  have htexts (hv : Kind.string.accepts v = false) :
      Keyword.forTexts.filterMap (report members v path) = [] :=
    hother (by simp [Keyword.forTexts, Keyword.kind?]) hv
  have hnumbers (hv : Kind.number.accepts v = false) :
      Keyword.forNumbers.filterMap (report members v path) = [] :=
    hother (by simp [Keyword.forNumbers, Keyword.kind?]) hv
  have harrays (hv : Kind.array.accepts v = false) :
      Keyword.forArrays.filterMap (report members v path) = [] :=
    hother (by simp [Keyword.forArrays, Keyword.kind?]) hv
  simp only [Keyword.all, List.filterMap_append, List.append_assoc]
  cases v with
  | null | bool | object => simp only [htexts rfl, hnumbers rfl, harrays rfl, List.append_nil]
  | string => simp only [hnumbers rfl, harrays rfl, List.append_nil]
  | number => simp only [htexts rfl, harrays rfl, List.nil_append, List.append_nil]
  | array => simp only [htexts rfl, hnumbers rfl, List.nil_append]

/-- The issues of the parts of a payload. -/
def innerIssues (r : Rules) (properties : List (String × Schema)) (additional items : Option Schema)
    (v : Json) (path : String) : List Issue :=
  match v with
  | .object ms =>
    requiredIssues r ms path ++ propertyIssues properties ms path ++
      additionalIssues additional (undeclared properties ms) path
  | .array vs => itemIssues items vs path
  | _ => []

/-- **What a payload is told.** A payload of a kind that is not allowed is told so and nothing else.
Another is told of each keyword that it misses, and then of what is wrong with its parts. -/
theorem issuesAt_ruled {properties : List (String × Schema)} {additional items : Option Schema}
    (hvalues : (OwnFindings.read members pointer).valueIssues = [])
    (hcounts : (OwnFindings.read members pointer).itemIssues = []) (v : Json) (path : String) :
    issuesAt (ruled (OwnFindings.read members pointer).rules properties additional items) v path =
      if allowsKind members v then
        Keyword.all.filterMap (report members v path) ++
          innerIssues (OwnFindings.read members pointer).rules properties additional items v path
      else kindIssues (OwnFindings.read members pointer).rules v path := by
  have hlength := length_kindIssues hvalues v path
  rw [issuesAt.eq_def, filterMap_all]
  dsimp only
  cases hallowed : allowsKind members v with
  | false =>
    rw [hallowed] at hlength
    have hwrong : (!(kindIssues (OwnFindings.read members pointer).rules v path).isEmpty) := by
      rw [Bool.not_eq_true', List.isEmpty_eq_false_iff, ← List.length_pos_iff, hlength]
      exact Nat.one_pos
    rw [if_pos hwrong, if_neg Bool.false_ne_true]
  | true =>
    rw [hallowed] at hlength
    have hright : ¬(!(kindIssues (OwnFindings.read members pointer).rules v path).isEmpty) := by
      rw [List.length_eq_zero_iff.1 hlength]
      exact Bool.false_ne_true
    rw [if_neg hright, if_pos rfl, valueIssues_eq hvalues, List.append_assoc]
    congr 1
    cases v with
    | null | bool => rfl
    | string s => exact (textIssues_eq hvalues s path).trans (List.append_nil _).symm
    | number n => exact (numberIssues_eq hvalues n path).trans (List.append_nil _).symm
    | array vs => exact congrArg (· ++ itemIssues items vs path) (countIssues_eq hcounts vs path)
    | object ms => rfl

/-! ### Issues of parts -/

/-- The place of a member begins with the place of the object, unless that is the payload. -/
theorem prefix_memberPath (h : path ≠ rootPath) (name : String) :
    path.toList <+: (memberPath path name).toList := by
  rw [memberPath, if_neg h, String.append_assoc, String.toList_append]
  exact List.prefix_append _ _

theorem memberPath_ne_rootPath (h : path ≠ rootPath) (name : String) :
    memberPath path name ≠ rootPath := by
  rw [memberPath, if_neg h]
  exact Location.dotted_ne_rootSign path name

theorem prefix_itemPath (path : String) (index : Nat) :
    path.toList <+: (itemPath path index).toList := by
  rw [itemPath, String.append_assoc, String.append_assoc, String.toList_append]
  exact List.prefix_append _ _

/-- **What is told at a place or inside of it has a path that begins with the place**, unless that
is the payload. By induction on the schema. -/
theorem prefix_of_mem_issuesAt (t : Schema) (w : Json) (path : String) : path ≠ rootPath →
    ∀ i ∈ t.issuesAt w path, path.toList <+: i.path.toList := by
  have here {path : String} {i : Issue} (h : i.path = path) : path.toList <+: i.path.toList :=
    h ▸ List.prefix_rfl
  apply issuesAt.induct
    (fun t w path => path ≠ rootPath → ∀ i ∈ t.issuesAt w path, path.toList <+: i.path.toList)
    (fun items vs path => ∀ i ∈ itemIssues items vs path, path.toList <+: i.path.toList)
    (fun additional members path => path ≠ rootPath →
      ∀ i ∈ additionalIssues additional members path, path.toList <+: i.path.toList)
    (fun properties members path => path ≠ rootPath →
      ∀ i ∈ propertyIssues properties members path, path.toList <+: i.path.toList)
  case case1 =>
    intro path w _ i hi
    rw [issuesAt] at hi
    cases hi
  case case2 =>
    intro w path _ i hi
    rw [issuesAt] at hi
    exact here (by rw [List.mem_singleton.1 hi])
  case case3 =>
    intro r properties additional items w path _ hwrong _ i hi
    rw [issuesAt.eq_def] at hi
    dsimp only at hi
    rw [if_pos hwrong] at hi
    exact here (path_of_mem_issueOf hi)
  case case4 =>
    intro r properties additional items w path _ hright hproperties hadditional hitems hpath i hi
    rw [issuesAt.eq_def] at hi
    dsimp only at hi
    rw [if_neg hright] at hi
    rcases List.mem_append.1 hi with hi | hi
    · exact here (path_of_mem_valueIssues hi)
    · cases w with
      | null | bool => cases hi
      | string x => exact here (path_of_mem_textIssues hi)
      | number n => exact here (path_of_mem_numberIssues hi)
      | array vs =>
        rcases List.mem_append.1 hi with hi | hi
        · exact here (path_of_mem_countIssues hi)
        · exact hitems vs i hi
      | object members =>
        simp only [List.mem_append, or_assoc] at hi
        rcases hi with hi | hi | hi
        · obtain ⟨name, -, -, hmember⟩ := mem_requiredIssues hi
          rw [hmember]
          exact prefix_memberPath hpath name
        · exact hproperties members hpath i hi
        · exact hadditional members hpath i hi
  case case5 =>
    intro path members _ i hi
    rw [propertyIssues] at hi
    cases hi
  case case6 =>
    intro name t properties members path ih ihs hpath i hi
    rw [propertyIssues] at hi
    rcases List.mem_append.1 hi with hi | hi
    · split at hi
      · rename_i w _
        exact (prefix_memberPath hpath name).trans (ih w (memberPath_ne_rootPath hpath name) i hi)
      · cases hi
    · exact ihs hpath i hi
  case case7 =>
    intro vs path i hi
    rw [itemIssues] at hi
    cases hi
  case case8 =>
    intro t vs path ih i hi
    rw [itemIssues] at hi
    obtain ⟨⟨w, index⟩, -, hi⟩ := List.mem_flatMap.1 hi
    have hitem := ih w index (Location.bracketed_ne_rootSign path _) i hi
    exact (prefix_itemPath path index).trans hitem
  case case9 =>
    intro members path _ i hi
    rw [additionalIssues] at hi
    cases hi
  case case10 =>
    intro members path hpath i hi
    rw [additionalIssues] at hi
    obtain ⟨m, -, rfl⟩ := List.mem_map.1 hi
    exact prefix_memberPath hpath m.1
  case case11 =>
    intro t members path hsome ih hpath i hi
    rw [additionalIssues.eq_3 _ _ _ hsome] at hi
    obtain ⟨m, -, hi⟩ := List.mem_flatMap.1 hi
    exact (prefix_memberPath hpath m.1).trans (ih m (memberPath_ne_rootPath hpath m.1) i hi)

/-- What is told of the items of an array has a path longer than that of the array. -/
theorem length_lt_of_mem_itemIssues {items : Option Schema} {vs : List Json} {i : Issue}
    (hi : i ∈ itemIssues items vs path) : path.length < i.path.length := by
  cases items with
  | none =>
    rw [itemIssues] at hi
    cases hi
  | some s =>
    rw [itemIssues] at hi
    obtain ⟨⟨w, index⟩, -, hi⟩ := List.mem_flatMap.1 hi
    have hprefix := prefix_of_mem_issuesAt s w _ (Location.bracketed_ne_rootSign path _) i hi
    have hlength := hprefix.length_le
    simp only [String.length_toList, String.length_append] at hlength
    have hbracket : "[".length = 1 := rfl
    omega

/-- What is told of the parts of a payload that is no object is told elsewhere. -/
theorem path_ne_of_mem_innerIssues {r : Rules} {properties : List (String × Schema)}
    {additional items : Option Schema} {i : Issue} (hv : Kind.object.accepts v = false)
    (hi : i ∈ innerIssues r properties additional items v path) : i.path ≠ path := by
  intro hpath
  cases v with
  | object => cases hv
  | array vs =>
    have hlength := length_lt_of_mem_itemIssues hi
    rw [hpath] at hlength
    exact absurd hlength (Nat.lt_irrefl _)
  | _ => cases hi

/-- Words for a keyword are not those for a kind. -/
theorem notMem_kindIssues (r : Rules) (k : Keyword) :
    ⟨path, k.wording asked⟩ ∉ kindIssues r v path := by
  intro hi
  unfold kindIssues issueOf at hi
  split at hi
  · cases hi
  · unfold issueIf at hi
    split at hi
    · have hmessage := congrArg Issue.message (List.mem_singleton.1 hi)
      have hchars := congrArg (fun s => s.toList.head?) hmessage
      simp only [Keyword.wording, String.toList_append] at hchars
      cases k <;> cases hchars
    · cases hi

/-- **When a payload is told of a keyword.** One that is no object is told exactly if it is of a
kind that is allowed and misses the keyword. For an object the same words can come from a member,
when this is told under the path of the object. -/
theorem mem_issuesAt_iff {k : Keyword}
    (hclean : (compileAt (.object members) pointer).issues = [])
    (hv : Kind.object.accepts v = false) (hasked : members.lookup k.name = some asked)
    (path : String) :
    ⟨path, k.wording asked⟩ ∈ issuesAt (compileAt (.object members) pointer).value v path ↔
      allowsKind members v ∧ k.isMet asked v = false := by
  rw [compileAt_object] at hclean ⊢
  simp only [List.append_eq_nil_iff, and_assoc] at hclean
  obtain ⟨hvalues, -, -, -, -, hcounts⟩ := hclean
  dsimp only
  rw [issuesAt_ruled hvalues hcounts]
  split
  · rename_i hallowed
    rw [List.mem_append, List.mem_filterMap, iff_true_intro hallowed, true_and]
    constructor
    · rintro (⟨k', -, hreport⟩ | hinner)
      · obtain ⟨asked', hasked', hreport⟩ := Option.bind_eq_some_iff.1 hreport
        split at hreport
        · cases hreport
        · rename_i hmissed
          have hwords : k'.wording asked' = k.wording asked :=
            congrArg Issue.message (Option.some.inj hreport)
          obtain rfl := Keyword.eq_of_append_eq hwords
          obtain rfl := Option.some.inj (hasked'.symm.trans hasked)
          exact Bool.eq_false_iff.2 hmissed
      · exact absurd rfl (path_ne_of_mem_innerIssues hv hinner)
    · intro hmissed
      refine .inl ⟨k, k.mem_all, ?_⟩
      rw [report, hasked, Option.bind_some, hmissed, if_neg Bool.false_ne_true]
  · rename_i hallowed
    exact iff_of_false (notMem_kindIssues _ k) fun h => hallowed h.1

/-- When an array is told that its items must be unique. -/
theorem mem_issuesAt_unique_iff {vs : List Json}
    (hclean : (compileAt (.object members) pointer).issues = [])
    (hasked : members.lookup "uniqueItems" = some (.bool true)) (path : String) :
    ⟨path, "items must be unique"⟩ ∈
        issuesAt (compileAt (.object members) pointer).value (.array vs) path ↔
      allowsKind members (.array vs) ∧ hasDuplicate vs := by
  have hwords : Keyword.uniqueItems.wording (.bool true) = "items must be unique" := by decide
  rw [← hwords, mem_issuesAt_iff (k := .uniqueItems) hclean rfl hasked, Keyword.isMet,
    decide_eq_false_iff_not, ← hasDuplicate_eq_false_iff, Bool.not_eq_false]

end Schema

end SchemaVault
