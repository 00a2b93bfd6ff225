import SchemaVault.Json.Reader
import SchemaVault.Proofs.Json.Members

/-!
# Documents keep their members in order

In a document each object lists its members in ascending order of their names, so that no name
occurs twice. The machine that reads documents builds all objects by `Json.insertMember`, which
keeps the order, and so every document that is read is ordered (`read?_ordered`).
-/

namespace SchemaVault.Json

/-- Members in ascending order of their names. -/
def Ascending (members : Members) : Prop := (members.map (·.1)).Pairwise (· < ·)

/-- A document whose objects all list their members in ascending order of their names. -/
inductive Ordered : Json → Prop
  | null : Ordered .null
  | bool (b : Bool) : Ordered (.bool b)
  | number (n : Number) : Ordered (.number n)
  | string (s : String) : Ordered (.string s)
  | array {items : List Json} (h : ∀ v ∈ items, v.Ordered) : Ordered (.array items)
  | object {members : Members} (hnames : Ascending members) (h : ∀ m ∈ members, m.2.Ordered) :
      Ordered (.object members)

theorem Ascending.nodup {members : Members} (h : Ascending members) :
    (members.map (·.1)).Nodup := by
  refine List.Pairwise.imp (fun {a b} hlt => ?_) h
  rintro rfl
  exact String.lt_irrefl _ hlt

theorem Ordered.ascending {members : Members} (h : (Json.object members).Ordered) :
    Ascending members := by
  cases h with
  | object hnames _ => exact hnames

theorem Ordered.of_lookup {members : Members} {name : String} {v : Json}
    (h : (Json.object members).Ordered) (hlookup : members.lookup name = some v) : v.Ordered := by
  cases h with
  | object _ h => exact h _ (mem_of_lookup hlookup)

theorem Ordered.of_getElem? {items : List Json} {n : Nat} {v : Json}
    (h : (Json.array items).Ordered) (hitem : items[n]? = some v) : v.Ordered := by
  cases h with
  | array h => exact h _ (List.mem_of_getElem? hitem)

/-! ## Putting a member in place -/

section Insert

variable {name : String} {value : Json}

theorem Ascending.insertMember {members : Members} (h : Ascending members) :
    Ascending (insertMember name value members) := by
  induction members with
  | nil => exact List.pairwise_singleton ..
  | cons first members ih =>
    obtain ⟨hfirst, hrest⟩ := List.pairwise_cons.1 h
    unfold Json.insertMember
    split
    · rename_i hlt
      refine List.pairwise_cons.2 ⟨?_, h⟩
      rintro n hn
      rcases List.mem_cons.1 hn with rfl | hn
      · exact hlt
      · exact String.lt_trans hlt (hfirst n hn)
    · split
      · rename_i heq
        exact heq ▸ h
      · rename_i hnot hne
        have hlt : first.1 < name := Std.lt_of_le_of_ne (String.not_lt.1 hnot) (Ne.symm hne)
        refine List.pairwise_cons.2 ⟨fun n hn => ?_, ih hrest⟩
        obtain ⟨m, hm, rfl⟩ := List.mem_map.1 hn
        rcases mem_insertMember hm with rfl | hm
        · exact hlt
        · exact hfirst _ (List.mem_map_of_mem hm)

theorem Ordered.insertMember {members : Members} (h : (Json.object members).Ordered)
    (hvalue : value.Ordered) : (Json.object (insertMember name value members)).Ordered := by
  cases h with
  | object hnames h =>
    refine .object hnames.insertMember fun m hm => ?_
    rcases mem_insertMember hm with rfl | hm
    · exact hvalue
    · exact h m hm

end Insert

/-! ## Reading -/

/-- An open array or object whose contents so far are ordered. -/
inductive Frame.Ordered : Frame → Prop
  | item {before : List Json} (h : ∀ v ∈ before, v.Ordered) : Ordered (.item before)
  | member {before : Members} {name : String} (h : (object before).Ordered) :
      Ordered (.member before name)

/-- What has been read is ordered. -/
inductive Progress.Ordered : Progress → Prop
  | value {outer} (houter : ∀ f ∈ outer, f.Ordered) : Ordered (.value outer)
  | firstItem {outer} (houter : ∀ f ∈ outer, f.Ordered) : Ordered (.firstItem outer)
  | afterItem {items outer} (h : ∀ v ∈ items, v.Ordered) (houter : ∀ f ∈ outer, f.Ordered) :
      Ordered (.afterItem items outer)
  | firstName {outer} (houter : ∀ f ∈ outer, f.Ordered) : Ordered (.firstName outer)
  | nextName {members outer} (h : (object members).Ordered) (houter : ∀ f ∈ outer, f.Ordered) :
      Ordered (.nextName members outer)
  | colon {members name outer} (h : (object members).Ordered)
      (houter : ∀ f ∈ outer, f.Ordered) : Ordered (.colon members name outer)
  | afterMember {members outer} (h : (object members).Ordered)
      (houter : ∀ f ∈ outer, f.Ordered) : Ordered (.afterMember members outer)
  | finished {v} (h : v.Ordered) : Ordered (.finished v)

/-- The scalar of a token holds no object. -/
inductive Token.Ordered : Token → Prop
  | scalar {v : Json} (h : v.Ordered) : Ordered (.scalar v)
  | openArray : Ordered .openArray
  | closeArray : Ordered .closeArray
  | openObject : Ordered .openObject
  | closeObject : Ordered .closeObject
  | colon : Ordered .colon
  | comma : Ordered .comma

theorem Progress.Ordered.complete {v : Json} (hv : v.Ordered) {outer : List Frame}
    (houter : ∀ f ∈ outer, f.Ordered) : (Progress.complete v outer).Ordered := by
  cases outer with
  | nil => exact .finished hv
  | cons f outer =>
    obtain ⟨hf, hrest⟩ := List.forall_mem_cons.1 houter
    cases hf with
    | item h => exact .afterItem (List.forall_mem_cons.2 ⟨hv, h⟩) hrest
    | member h => exact .afterMember (h.insertMember hv) hrest

theorem Progress.Ordered.start {outer : List Frame} (houter : ∀ f ∈ outer, f.Ordered) {t : Token}
    (ht : t.Ordered) {p : Progress} (h : start? outer t = some p) : p.Ordered := by
  cases ht with
  | scalar hv =>
    cases h
    exact .complete hv houter
  | openArray =>
    obtain ⟨-, rfl⟩ : outer.length < depthLimit ∧ Progress.firstItem outer = p := by
      simpa [start?] using h
    exact .firstItem houter
  | openObject =>
    obtain ⟨-, rfl⟩ : outer.length < depthLimit ∧ Progress.firstName outer = p := by
      simpa [start?] using h
    exact .firstName houter
  | closeArray | closeObject | colon | comma => cases h

/-- One step of the machine keeps what has been read ordered. -/
theorem Progress.Ordered.step {p q : Progress} (hp : p.Ordered) {t : Token} (ht : t.Ordered)
    (h : p.step? t = some q) : q.Ordered := by
  cases hp with
  | value houter => exact .start houter ht h
  | firstItem houter =>
    have hitem : ∀ f ∈ Frame.item [] :: _, f.Ordered :=
      List.forall_mem_cons.2 ⟨.item fun v hv => absurd hv List.not_mem_nil, houter⟩
    cases ht with
    | closeArray =>
      cases h
      exact .complete (.array fun v hv => absurd hv List.not_mem_nil) houter
    | scalar hv => exact .start hitem (.scalar hv) h
    | openArray => exact .start hitem .openArray h
    | openObject => exact .start hitem .openObject h
    | closeObject | colon | comma => cases h
  | afterItem hitems houter =>
    cases ht with
    | comma =>
      cases h
      exact .value (List.forall_mem_cons.2 ⟨.item hitems, houter⟩)
    | closeArray =>
      cases h
      exact .complete (.array fun v hv => hitems v (List.mem_reverse.1 hv)) houter
    | scalar | openArray | openObject | closeObject | colon => cases h
  | firstName houter =>
    have hempty : (object []).Ordered := .object .nil fun m hm => absurd hm List.not_mem_nil
    cases ht with
    | closeObject =>
      cases h
      exact .complete hempty houter
    | @scalar v hv =>
      cases v <;> cases h
      exact .colon hempty houter
    | openArray | closeArray | openObject | colon | comma => cases h
  | nextName hmembers houter =>
    cases ht with
    | @scalar v hv =>
      cases v <;> cases h
      exact .colon hmembers houter
    | openArray | closeArray | openObject | closeObject | colon | comma => cases h
  | colon hmembers houter =>
    cases ht with
    | colon =>
      cases h
      exact .value (List.forall_mem_cons.2 ⟨.member hmembers, houter⟩)
    | scalar | openArray | closeArray | openObject | closeObject | comma => cases h
  | afterMember hmembers houter =>
    cases ht with
    | comma =>
      cases h
      exact .nextName hmembers houter
    | closeObject =>
      cases h
      exact .complete hmembers houter
    | scalar | openArray | closeArray | openObject | colon => cases h
  | finished => cases ht <;> cases h

/-- A run of the machine over tokens keeps what has been read ordered. -/
theorem Progress.Ordered.run {tokens : List Token} (htokens : ∀ t ∈ tokens, t.Ordered)
    {p q : Progress} (hp : p.Ordered) (h : tokens.foldlM step? p = some q) : q.Ordered := by
  induction tokens generalizing p with
  | nil =>
    cases h
    exact hp
  | cons t tokens ih =>
    obtain ⟨ht, htokens⟩ := List.forall_mem_cons.1 htokens
    rw [List.foldlM_cons] at h
    obtain ⟨next, hstep, hrun⟩ := Option.bind_eq_some_iff.1 h
    exact ih htokens (hp.step ht hstep) hrun

theorem Token.ordered_of_next? {cs rest : List Char} {t : Token} (h : next? cs = some (t, rest)) :
    t.Ordered := by
  unfold next? at h
  split at h
  case h_7 =>
    obtain ⟨⟨s, _⟩, -, hs⟩ := Option.map_eq_some_iff.1 h
    cases hs
    exact .scalar (.string _)
  case h_11 =>
    obtain ⟨⟨n, _⟩, -, hn⟩ := Option.map_eq_some_iff.1 h
    cases hn
    exact .scalar (.number n)
  all_goals
    cases h
    first
      | exact .scalar .null
      | exact .scalar (.bool _)
      | constructor

theorem Token.ordered_of_all? {fuel : Nat} {cs : List Char} {tokens : List Token}
    (h : all? fuel cs = some tokens) : ∀ t ∈ tokens, t.Ordered := by
  induction fuel generalizing cs tokens with
  | zero =>
    unfold all? at h
    split at h <;> cases h
    exact fun t ht => absurd ht List.not_mem_nil
  | succ fuel ih =>
    unfold all? at h
    split at h
    · cases h
      exact fun t ht => absurd ht List.not_mem_nil
    · obtain ⟨⟨t, rest⟩, hnext, h⟩ := Option.bind_eq_some_iff.1 h
      obtain ⟨ts, hall, h⟩ := Option.bind_eq_some_iff.1 h
      cases h
      exact List.forall_mem_cons.2 ⟨ordered_of_next? hnext, ih hall⟩

/-- **Every document that is read keeps its members in order.** -/
theorem read?_ordered {s : String} {v : Json} (h : read? s = some v) : v.Ordered := by
  obtain ⟨tokens, htokens, h⟩ := Option.bind_eq_some_iff.1 h
  unfold ofTokens? at h
  split at h
  · rename_i document hrun
    cases h
    have hstart : (Progress.value []).Ordered := .value fun f hf => absurd hf List.not_mem_nil
    cases hstart.run (Token.ordered_of_all? htokens) hrun with
    | finished hv => exact hv
  · cases h

end SchemaVault.Json
