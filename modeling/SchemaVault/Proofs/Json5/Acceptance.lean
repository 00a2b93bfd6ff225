import SchemaVault.Entities.SortValue
import SchemaVault.Proofs.Json5.Tokens
import Mathlib.Data.List.Forall2
import Mathlib.Data.List.TakeWhile

/-!
# Documents are relaxed documents

Whatever reads as a document reads as a relaxed one, and all its properties have values to sort by
(`read?_of_read?`). The machines of both readers take the same steps (`Follows.step`): the relaxed
one has fewer states, since it may end an array or object wherever it expects an item or a name, and
allows deeper nesting.
-/

namespace SchemaVault

namespace Json5

/-! ## Values -/

namespace Document

/-- Whether a document has a value to sort by, and so has each of its properties. -/
def IsValued (d : Document) : Prop :=
  (SortValue.ofDocument? d).isSome ∧ ∀ name, (SortValue.ofProperty? name d).isSome

theorem IsValued.of_not_object {d : Document} (h : (SortValue.ofDocument? d).isSome)
    (hd : ∀ members, d ≠ object members) : d.IsValued := by
  refine ⟨h, fun name => ?_⟩
  cases d with
  | object members => exact absurd rfl (hd members)
  | _ => rfl

theorem IsValued.null : IsValued null := .of_not_object rfl fun _ => by simp

theorem IsValued.bool (b : Bool) : IsValued (bool b) := .of_not_object rfl fun _ => by simp

theorem IsValued.text (w : Written) : IsValued (text w) := .of_not_object rfl fun _ => by simp

theorem IsValued.array (items : List Document) : IsValued (array items) :=
  .of_not_object rfl fun _ => by simp

theorem IsValued.number (negative : Bool) (whole : List Char) (part : Option (List Char))
    (power : List Char) : IsValued (number (.decimal negative whole part power)) := by
  refine .of_not_object ?_ fun _ => by simp
  rw [SortValue.ofDocument?, Option.isSome_map, Numeral.units?]
  dsimp only
  split <;> rfl

theorem IsValued.object {members : List (Written × Document)}
    (h : ∀ m ∈ members, m.2.IsValued) : IsValued (object members) := by
  refine ⟨rfl, fun name => ?_⟩
  have hmember : (Document.object members).member? name =
      (members.find? (·.1.isName name)).map (·.2) := rfl
  rw [SortValue.ofProperty?, hmember]
  cases hfind : members.find? (·.1.isName name) with
  | none => rfl
  | some m => exact (h m (List.mem_of_find?_eq_some hfind)).1

end Document

open Document

/-! ## The machines -/

/-- Open arrays and objects that have been read alike. -/
inductive FrameFollows : Json.Frame → Frame → Prop
  | item {before before'} : FrameFollows (.item before) (.item before')
  | member {before name before' w} (h : ∀ m ∈ before', m.2.IsValued) :
      FrameFollows (.member before name) (.member before' w)

/-- States in which the same may come next. -/
inductive Follows : Json.Progress → Progress → Prop
  | value {outer outer'} (h : List.Forall₂ FrameFollows outer outer') :
      Follows (.value outer) (.value outer')
  | nextItem {items items' outer outer'} (h : List.Forall₂ FrameFollows outer outer') :
      Follows (.value (.item items :: outer)) (.nextItem items' outer')
  | firstItem {outer outer'} (h : List.Forall₂ FrameFollows outer outer') :
      Follows (.firstItem outer) (.nextItem [] outer')
  | afterItem {items items' outer outer'} (h : List.Forall₂ FrameFollows outer outer') :
      Follows (.afterItem items outer) (.afterItem items' outer')
  | firstName {outer outer'} (h : List.Forall₂ FrameFollows outer outer') :
      Follows (.firstName outer) (.nextName [] outer')
  | nextName {members members' outer outer'} (hmembers : ∀ m ∈ members', m.2.IsValued)
      (h : List.Forall₂ FrameFollows outer outer') :
      Follows (.nextName members outer) (.nextName members' outer')
  | colon {members members' name w outer outer'} (hmembers : ∀ m ∈ members', m.2.IsValued)
      (h : List.Forall₂ FrameFollows outer outer') :
      Follows (.colon members name outer) (.colon members' w outer')
  | afterMember {members members' outer outer'} (hmembers : ∀ m ∈ members', m.2.IsValued)
      (h : List.Forall₂ FrameFollows outer outer') :
      Follows (.afterMember members outer) (.afterMember members' outer')
  | finished {v d} (h : d.IsValued) : Follows (.finished v) (.finished d)

theorem Follows.complete {outer : List Json.Frame} {outer' : List Frame}
    (h : List.Forall₂ FrameFollows outer outer') (v : Json) {d : Document} (hd : d.IsValued) :
    Follows (Json.Progress.complete v outer) (Progress.complete d outer') := by
  cases h with
  | nil => exact .finished hd
  | cons hframe h =>
    cases hframe with
    | item => exact .afterItem h
    | member hmembers => exact .afterMember (List.forall_mem_cons.2 ⟨hd, hmembers⟩) h

theorem Follows.start {outer : List Json.Frame} {outer' : List Frame} {t : Json.Token} {t' : Token}
    {p : Json.Progress} (h : List.Forall₂ FrameFollows outer outer') (ht : Echoes t t')
    (hstart : Json.Progress.start? outer t = some p) :
    ∃ p', Progress.start? outer' t' = some p' ∧ Follows p p' := by
  have hdepth : outer.length < Json.depthLimit → outer'.length < depthLimit := fun hlt =>
    h.length_eq ▸ Nat.lt_trans hlt (by decide)
  cases ht with
  | openArray =>
    obtain ⟨hlt, rfl⟩ : outer.length < Json.depthLimit ∧ Json.Progress.firstItem outer = p := by
      simpa [Json.Progress.start?] using hstart
    exact ⟨_, if_pos (hdepth hlt), .firstItem h⟩
  | openObject =>
    obtain ⟨hlt, rfl⟩ : outer.length < Json.depthLimit ∧ Json.Progress.firstName outer = p := by
      simpa [Json.Progress.start?] using hstart
    exact ⟨_, if_pos (hdepth hlt), .firstName h⟩
  | text =>
    obtain rfl := Option.some.inj hstart
    exact ⟨_, rfl, .complete h _ (.text _)⟩
  | null hw =>
    obtain rfl := Option.some.inj hstart
    refine ⟨_, ?_, .complete h _ .null⟩
    rw [Progress.start?, hw, Option.map_some]
  | @bool b _ hw =>
    obtain rfl := Option.some.inj hstart
    refine ⟨_, ?_, .complete h _ (.bool b)⟩
    rw [Progress.start?, hw, Option.map_some]
  | number =>
    obtain rfl := Option.some.inj hstart
    exact ⟨_, rfl, .complete h _ (.number ..)⟩
  | closeArray | closeObject | colon | comma => cases hstart

/-- Where an item may come next, what does not end the array begins the item. -/
theorem Progress.step?_nextItem {t : Token} (ht : t ≠ .closeArray) (items : List Document)
    (outer : List Frame) :
    (nextItem items outer).step? t = start? (.item items :: outer) t := by
  cases t with
  | closeArray => exact absurd rfl ht
  | _ => rfl

/-- **The machines take the same steps.** -/
theorem Follows.step {p q : Json.Progress} {p' : Progress} {t : Json.Token} {t' : Token}
    (h : Follows p p') (ht : Echoes t t') (hstep : p.step? t = some q) :
    ∃ q', p'.step? t' = some q' ∧ Follows q q' := by
  cases h with
  | value h => exact Follows.start h ht hstep
  | nextItem h =>
    have hclose : t' ≠ .closeArray := by
      rintro rfl
      cases ht
      cases hstep
    rw [Progress.step?_nextItem hclose]
    exact Follows.start (.cons .item h) ht hstep
  | @firstItem outer _ h =>
    by_cases hclose : t' = .closeArray
    · subst hclose
      cases ht
      obtain rfl := Option.some.inj hstep
      exact ⟨_, rfl, .complete h _ (.array _)⟩
    · have hstart : Json.Progress.start? (.item [] :: outer) t = some q := by
        cases ht with
        | closeArray => exact absurd rfl hclose
        | _ => exact hstep
      rw [Progress.step?_nextItem hclose]
      exact Follows.start (.cons .item h) ht hstart
  | afterItem h =>
    cases ht <;> cases hstep
    · exact ⟨_, rfl, .complete h _ (.array _)⟩
    · exact ⟨_, rfl, .nextItem h⟩
  | firstName h =>
    cases ht <;> cases hstep
    · exact ⟨_, rfl, .complete h _ (.object fun _ hm => nomatch hm)⟩
    · exact ⟨_, rfl, .colon (fun _ hm => nomatch hm) h⟩
  | nextName hmembers h =>
    cases ht <;> cases hstep
    exact ⟨_, rfl, .colon hmembers h⟩
  | colon hmembers h =>
    cases ht <;> cases hstep
    exact ⟨_, rfl, .value (.cons (.member hmembers) h)⟩
  | afterMember hmembers h =>
    cases ht <;> cases hstep
    · exact ⟨_, rfl, .complete h _ (.object fun m hm => hmembers m (List.mem_reverse.1 hm))⟩
    · exact ⟨_, rfl, .nextName hmembers h⟩
  | finished h => cases ht <;> cases hstep

/-! ## Ends of scalars -/

/-- Whether a token may follow a scalar. -/
def isEnd : Json.Token → Bool
  | .closeArray | .closeObject | .colon | .comma => true
  | _ => false

theorem isEnd_of_step? {p q q' : Json.Progress} {v : Json} {t : Json.Token}
    (h : p.step? (.scalar v) = some q) (h' : q.step? t = some q') : isEnd t := by
  have hcomplete : ∀ {outer}, (Json.Progress.complete v outer).step? t = some q' → isEnd t := by
    intro outer h
    match outer with
    | [] => cases h
    | .item _ :: _ => cases t <;> cases h <;> rfl
    | .member _ _ :: _ => cases t <;> cases h <;> rfl
  have hcolon : ∀ {members name outer},
      (Json.Progress.colon members name outer).step? t = some q' → isEnd t := by
    intro members name outer h
    cases t <;> cases h
    rfl
  cases p with
  | value | firstItem =>
    obtain rfl := Option.some.inj h
    exact hcomplete h'
  | firstName | nextName =>
    cases v <;> cases h
    exact hcolon h'
  | afterItem | colon | afterMember | finished => cases h

theorem isDelimiter_of_next? {c : Char} {cs rest : List Char} {t : Json.Token}
    (h : Json.Token.next? (c :: cs) = some (t, rest)) (ht : isEnd t) : isDelimiter c := by
  unfold Json.Token.next? at h
  split at h
  case h_7 | h_11 =>
    obtain ⟨_, -, h⟩ := Option.map_eq_some_iff.1 h
    obtain ⟨rfl, -⟩ := Prod.mk.inj h
    cases ht
  case h_1 | h_3 | h_8 | h_9 | h_10 =>
    obtain ⟨rfl, -⟩ := Prod.mk.inj (Option.some.inj h)
    cases ht
  all_goals
    rename_i hcs
    rw [(List.cons.inj hcs).1]
    rfl

theorem delimited_of_all? {fuel : Nat} {cs : List Char} {ts : List Json.Token}
    (h : Json.Token.all? fuel cs = some ts) (hts : ∀ t ∈ ts.head?, isEnd t) : Delimited cs := by
  intro c hc
  obtain ⟨cs, rfl⟩ : ∃ cs', cs = c :: cs' := List.head?_eq_some_iff.1 hc
  by_cases hspacing : Json.Token.isSpacing c
  · simp [isDelimiter, hspacing]
  · have hdrop : (c :: cs).dropWhile Json.Token.isSpacing = c :: cs :=
      List.dropWhile_cons_of_neg hspacing
    unfold Json.Token.all? at h
    cases fuel with
    | zero => simp [hdrop] at h
    | succ fuel =>
      simp only [hdrop] at h
      obtain ⟨⟨t, rest⟩, hnext, h⟩ := Option.bind_eq_some_iff.1 h
      obtain ⟨ts', -, h⟩ := Option.bind_eq_some_iff.1 h
      obtain rfl := Option.some.inj h
      exact isDelimiter_of_next? hnext (hts t rfl)

/-! ## Reading -/

theorem Token.all?_of_skip? {cs : List Char} (h : Token.skip? .outside cs = some [])
    (fuel : Nat) : Token.all? fuel cs = some [] := by
  cases fuel <;> simp [Token.all?, h]

theorem Token.all?_cons {fuel : Nat} {cs cs' rest : List Char} {t : Token} {ts : List Token}
    (hskip : Token.skip? .outside cs = some cs') (hne : cs' ≠ [])
    (hnext : Token.next? cs' = some (t, rest)) (hall : Token.all? fuel rest = some ts) :
    Token.all? (fuel + 1) cs = some (t :: ts) := by
  cases cs' with
  | nil => exact absurd rfl hne
  | cons c cs' => simp [Token.all?, hskip, hnext, hall]

/-- **The machines run alike** over the tokens of a text. -/
theorem Follows.run {fuel : Nat} {cs : List Char} {ts : List Json.Token} {p : Json.Progress}
    {p' : Progress} {v : Json} (h : Follows p p') (hall : Json.Token.all? fuel cs = some ts)
    (hrun : ts.foldlM Json.Progress.step? p = some (.finished v)) :
    ∃ ts' d, Token.all? fuel cs = some ts' ∧
      ts'.foldlM Progress.step? p' = some (.finished d) ∧ d.IsValued := by
  have hend : ∀ {fuel cs p p'}, Follows p p' → cs.dropWhile Json.Token.isSpacing = [] →
      [].foldlM Json.Progress.step? p = some (.finished v) →
      ∃ ts' d, Token.all? fuel cs = some ts' ∧
        ts'.foldlM Progress.step? p' = some (.finished d) ∧ d.IsValued := by
    intro fuel cs p p' h hempty hrun
    obtain rfl := Option.some.inj hrun
    cases h with
    | finished hd =>
      exact ⟨[], _, Token.all?_of_skip? ((skip?_eq (.inl hempty)).trans (by rw [hempty])) fuel,
        rfl, hd⟩
  induction fuel generalizing cs ts p p' with
  | zero =>
    unfold Json.Token.all? at hall
    split at hall
    · rename_i hempty
      obtain rfl := Option.some.inj hall
      exact hend h (List.isEmpty_iff.1 hempty) hrun
    · cases hall
  | succ fuel ih =>
    unfold Json.Token.all? at hall
    split at hall
    · rename_i hempty
      obtain rfl := Option.some.inj hall
      exact hend h hempty hrun
    · rename_i hne
      obtain ⟨⟨t, rest⟩, hnext, hall⟩ := Option.bind_eq_some_iff.1 hall
      obtain ⟨ts, hrest, hall⟩ := Option.bind_eq_some_iff.1 hall
      obtain rfl := Option.some.inj hall
      rw [List.foldlM_cons] at hrun
      obtain ⟨q, hstep, hlater⟩ := Option.bind_eq_some_iff.1 hrun
      have hdelimited : ∀ w, t = .scalar w → Delimited rest := by
        rintro w rfl
        refine delimited_of_all? hrest fun t₂ ht₂ => ?_
        obtain ⟨ts₂, rfl⟩ := List.head?_eq_some_iff.1 ht₂
        rw [List.foldlM_cons] at hlater
        obtain ⟨q₂, hstep₂, -⟩ := Option.bind_eq_some_iff.1 hlater
        exact isEnd_of_step? hstep hstep₂
      obtain ⟨t', hnext', ht⟩ := next?_of_next? hnext hdelimited
      obtain ⟨q', hstep', hq⟩ := h.step ht hstep
      obtain ⟨ts', d, hall', hlater', hd⟩ := ih hq hrest hlater
      refine ⟨t' :: ts', d, ?_, ?_, hd⟩
      · exact Token.all?_cons (skip?_eq (.inr ⟨t, rest, hnext⟩)) hne hnext' hall'
      · rw [List.foldlM_cons, hstep']
        exact hlater'

end Json5

open Json5

/-- **What reads as a document reads as a relaxed one**, and all its properties have values to sort
by. -/
theorem Json5.read?_of_read? {s : String} {v : Json} (h : Json.read? s = some v) :
    ∃ d, Json5.read? s = some d ∧ ∀ name, (SortValue.ofProperty? name d).isSome := by
  obtain ⟨ts, hall, h⟩ := Option.bind_eq_some_iff.1 h
  have hnul : s.toList.takeWhile (·.toNat != 0) = s.toList := by
    refine List.takeWhile_eq_self_iff.2 fun c hc => ?_
    rw [bne_iff_ne]
    rintro hzero
    obtain rfl : c = '\x00' := Char.toNat_inj.1 hzero
    exact nul_notMem_of_all? hall hc
  have hrun : ts.foldlM Json.Progress.step? (.value []) = some (.finished v) := by
    unfold Json.ofTokens? at h
    split at h
    · rename_i hrun
      rw [hrun, Option.some.inj h]
    · cases h
  obtain ⟨ts', d, hall', hrun', hd⟩ := (Follows.value .nil).run hall hrun
  refine ⟨d, ?_, hd.2⟩
  unfold Json5.read?
  rw [hnul, Token.ofText?, hall', Option.bind_some, ofTokens?, hrun']

end SchemaVault
