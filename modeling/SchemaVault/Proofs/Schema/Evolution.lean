import SchemaVault.Proofs.Json.Members
import SchemaVault.Proofs.Schema.Malformed
import SchemaVault.Proofs.Schema.Validation
import Mathlib.Data.List.Nodup
import Mathlib.Logic.Relation

/-!
# Compatible changes of definitions

Changes of a definition after which all payloads that were valid still are
(`evolution_keeps_valid`). Keywords other than `properties` can be dropped, anything can be allowed,
and something can be declared for a new name where members that are not declared are not allowed.
The last change takes a member out of the reach of `additionalProperties`, which is why it needs
that nothing was allowed there: then no payload that was valid has a member of the new name.

A definition between two changes need not compile, since a new declaration can be malformed and then
be replaced. So the changes are followed on what definitions ask (`Relaxes.satisfied`), which makes
sense for all of them, and only the first and the last are compiled.
-/

namespace SchemaVault

namespace Definition

/-! ## Changes -/

/-- The members of a definition after something has been declared for a name. -/
def declaring (members : Json.Members) (name : String) (d : Json) : Json.Members :=
  Json.insertMember "properties" (.object (Json.insertMember name d (declared members))) members

/-- **A compatible change** of a definition, or of a definition in it. -/
inductive Relaxes : (definition changed : Json) → Prop
  /-- Everything is allowed. -/
  | allowed (d : Json) : Relaxes d (.bool true)
  /-- A keyword is dropped. -/
  | dropped {members : Json.Members} {keyword : String} (hkeyword : keyword ≠ "properties") :
      Relaxes (.object members) (.object (members.filter (·.1 != keyword)))
  /-- Something is declared for a new name, where members that are not declared are not allowed. -/
  | declared {members : Json.Members} {name : String} {d : Json}
      (hclosed : members.lookup "additionalProperties" = some (.bool false))
      (hnew : (declared members).lookup name = none) :
      Relaxes (.object members) (.object (declaring members name d))
  /-- What is declared for a name is changed. -/
  | property {members : Json.Members} {name : String} {d d' : Json}
      (hd : (Definition.declared members).lookup name = some d) (h : Relaxes d d') :
      Relaxes (.object members) (.object (declaring members name d'))
  /-- What is asked of further members or of items is changed. -/
  | part {members : Json.Members} {keyword : String} {d d' : Json}
      (hkeyword : keyword ∈ partKeywords) (hd : members.lookup keyword = some d) (h : Relaxes d d') :
      Relaxes (.object members) (.object (Json.insertMember keyword d' members))

/-! ## What a changed definition asks -/

section Members

variable {members members' : Json.Members} {name keyword : String} {d v w : Json}

theorem declared_congr (h : members'.lookup "properties" = members.lookup "properties") :
    declared members' = declared members := by
  rw [declared, declared, h]

theorem undeclared_congr (h : members'.lookup "properties" = members.lookup "properties") :
    undeclared members' v = undeclared members v := by
  rw [undeclared, undeclared, declared_congr h]

theorem mem_undeclared {m : String × Json} :
    m ∈ undeclared members v ↔
      m ∈ membersOf v ∧ (declared members).lookup m.1 = none := by
  rw [undeclared, List.mem_filter, Json.any_name, Bool.not_eq_true', Option.isSome_eq_false_iff,
    Option.isNone_iff_eq_none]

theorem ne_properties_of_mem_partKeywords (h : keyword ∈ partKeywords) :
    keyword ≠ "properties" := by
  rintro rfl
  revert h
  decide

/-- Dropping another keyword leaves the declarations. -/
theorem lookup_properties_filter (h : keyword ≠ "properties") :
    (members.filter (·.1 != keyword)).lookup "properties" = members.lookup "properties" := by
  rw [Json.lookup_filter (· != keyword), if_pos (bne_iff_ne.2 h.symm)]

/-- Changing a part leaves the declarations. -/
theorem lookup_properties_insertMember (h : keyword ∈ partKeywords) :
    (Json.insertMember keyword d members).lookup "properties" = members.lookup "properties" := by
  rw [Json.lookup_insertMember, if_neg (ne_properties_of_mem_partKeywords h).symm]

theorem lookup_declaring (h : keyword ≠ "properties") :
    (declaring members name d).lookup keyword = members.lookup keyword := by
  rw [declaring, Json.lookup_insertMember, if_neg h]

theorem declared_declaring :
    declared (declaring members name d) =
      Json.insertMember name d (declared members) := by
  rw [declaring, declared, Json.lookup_insertMember, if_pos rfl]

theorem mem_declared_declaring {p : String × Json}
    (h : p ∈ declared (declaring members name d)) :
    p = (name, d) ∨ p ∈ declared members := by
  rw [declared_declaring] at h
  exact Json.mem_insertMember h

/-- With more declarations, fewer members are left undeclared. -/
theorem undeclared_declaring_subset :
    undeclared (declaring members name d) v ⊆ undeclared members v := by
  intro m hm
  rw [mem_undeclared, declared_declaring, Json.lookup_insertMember] at hm
  obtain ⟨hm, hnone⟩ := hm
  split at hnone
  · cases hnone
  · exact mem_undeclared.2 ⟨hm, hnone⟩

/-- Where members that are not declared are not allowed, a payload has none. -/
theorem lookup_eq_none_of_closed (hv : Satisfied (.object members) v)
    (hclosed : members.lookup "additionalProperties" = some (.bool false))
    (hnew : (declared members).lookup name = none) :
    (membersOf v).lookup name = none := by
  cases hv with
  | ruled _ _ _ _ hadditional _ =>
    rw [Option.eq_none_iff_forall_ne_some]
    intro w hw
    have hm : (name, w) ∈ undeclared members v :=
      mem_undeclared.2 ⟨Json.mem_of_lookup hw, hnew⟩
    cases hadditional _ hclosed _ hm

/-- The members of a definition ask no more than others, but for what they declare: each keyword is
dropped or kept as it is, or has a part that allows more, and fewer members are left undeclared. -/
structure AsksNoMore (members' members : Json.Members) : Prop where
  kept : ∀ keyword, keyword ≠ "properties" → keyword ∉ partKeywords →
    members'.lookup keyword = none ∨ members'.lookup keyword = members.lookup keyword
  part : ∀ keyword ∈ partKeywords, ∀ d', members'.lookup keyword = some d' →
    ∃ d, members.lookup keyword = some d ∧ ∀ w, Satisfied d w → Satisfied d' w
  undeclared : ∀ v, undeclared members' v ⊆ undeclared members v

namespace AsksNoMore

theorem allowsKind (h : AsksNoMore members' members) (hv : allowsKind members v) :
    allowsKind members' v := by
  unfold Definition.allowsKind at *
  rcases h.kept "type" (by decide) (by decide) with h | h
  · rw [h]
    rfl
  · rwa [h]

theorem misses (h : AsksNoMore members' members) {k : Keyword}
    (hv : misses members v k = false) : misses members' v k = false := by
  unfold Definition.misses at *
  rcases h.kept k.name (by cases k <;> decide) (by cases k <;> decide) with h | h
  · rw [h]
    rfl
  · rwa [h]

theorem missing (h : AsksNoMore members' members) (hv : missing members v = []) :
    missing members' v = [] := by
  cases v with
  | object ms =>
    rw [Definition.missing, requiredNames] at *
    rcases h.kept "required" (by decide) (by decide) with h | h
    · rw [h]
      rfl
    · rwa [h]
  | _ => rfl

/-- A payload stays valid if its members still satisfy what is declared for them. -/
theorem satisfied (h : AsksNoMore members' members) (hv : Satisfied (.object members) v)
    (hdeclared : ∀ p ∈ declared members', ∀ w, (membersOf v).lookup p.1 = some w →
      Satisfied p.2 w) :
    Satisfied (.object members') v := by
  cases hv with
  | ruled hkind hkeywords hrequired _ hadditional hitems =>
    refine .ruled (h.allowsKind hkind) (fun k => h.misses (hkeywords k)) (h.missing hrequired)
      hdeclared ?_ ?_
    · intro d' hd' m hm
      obtain ⟨d, hd, hmore⟩ := h.part _ (by decide) d' hd'
      exact hmore _ (hadditional d hd m (h.undeclared v hm))
    · intro d' hd' w hw
      obtain ⟨d, hd, hmore⟩ := h.part _ (by decide) d' hd'
      exact hmore _ (hitems d hd w hw)

/-- A payload stays valid if the declarations are the same. -/
theorem satisfied_of_lookup_eq (h : AsksNoMore members' members)
    (hsame : members'.lookup "properties" = members.lookup "properties")
    (hv : Satisfied (.object members) v) : Satisfied (.object members') v := by
  refine h.satisfied hv ?_
  rw [declared_congr hsame]
  cases hv with
  | ruled _ _ _ hproperties => exact hproperties

/-! ### Each kind of change -/

theorem dropped (hkeyword : keyword ≠ "properties") :
    AsksNoMore (members.filter (·.1 != keyword)) members where
  kept other _ _ := by
    rw [Json.lookup_filter (· != keyword)]
    split
    · exact .inr rfl
    · exact .inl rfl
  part other _ d hd := by
    rw [Json.lookup_filter (· != keyword)] at hd
    split at hd
    · exact ⟨d, hd, fun _ => id⟩
    · cases hd
  undeclared v := by
    rw [undeclared_congr (lookup_properties_filter hkeyword)]
    exact List.Subset.refl _

theorem declaring : AsksNoMore (Definition.declaring members name d) members where
  kept _ hother _ := .inr (lookup_declaring hother)
  part other hother d hd := by
    rw [lookup_declaring (ne_properties_of_mem_partKeywords hother)] at hd
    exact ⟨d, hd, fun _ => id⟩
  undeclared _ := undeclared_declaring_subset

theorem insertPart {d' : Json} (hkeyword : keyword ∈ partKeywords)
    (hd : members.lookup keyword = some d) (hmore : ∀ w, Satisfied d w → Satisfied d' w) :
    AsksNoMore (Json.insertMember keyword d' members) members where
  kept other _ hother := by
    rw [Json.lookup_insertMember, if_neg (by rintro rfl; exact hother hkeyword)]
    exact .inr rfl
  part other _ d'' hd'' := by
    rw [Json.lookup_insertMember] at hd''
    split at hd''
    · rename_i hsame
      subst hsame
      obtain rfl := Option.some.inj hd''
      exact ⟨d, hd, hmore⟩
    · exact ⟨d'', hd'', fun _ => id⟩
  undeclared v := by
    rw [undeclared_congr (lookup_properties_insertMember hkeyword)]
    exact List.Subset.refl _

end AsksNoMore

theorem Keyword.name_inj {k k' : Keyword} (h : k.name = k'.name) : k = k' := by
  have hnames : (Keyword.all.map Keyword.name).Nodup := by decide
  exact List.inj_on_of_nodup_map hnames k.mem_all k'.mem_all h

/-- **What a keyword adds to a definition.** A payload satisfies the definition exactly if it
satisfies the definition without the keyword and meets the keyword. -/
theorem satisfied_iff_dropped (k : Keyword) : Satisfied (.object members) v ↔
    Satisfied (.object (members.filter (·.1 != k.name))) v ∧ misses members v k = false := by
  have hother {name : String} (h : name ≠ k.name) :
      (members.filter (·.1 != k.name)).lookup name = members.lookup name := by
    rw [Json.lookup_filter (· != k.name), if_pos (bne_iff_ne.2 h)]
  have htype := hother (show "type" ≠ k.name by cases k <;> decide)
  have hneeded := hother (show "required" ≠ k.name by cases k <;> decide)
  have hproperties := hother (show "properties" ≠ k.name by cases k <;> decide)
  have hrest := hother (show "additionalProperties" ≠ k.name by cases k <;> decide)
  have hvs := hother (show "items" ≠ k.name by cases k <;> decide)
  constructor
  · intro hv
    refine ⟨(AsksNoMore.dropped (by cases k <;> decide)).satisfied_of_lookup_eq hproperties hv, ?_⟩
    cases hv with
    | ruled _ hkeywords => exact hkeywords k
  · rintro ⟨hv, hmet⟩
    cases hv with
    | ruled hkind hkeywords hrequired hdeclared hadditional hitems =>
      rw [allowsKind, htype] at hkind
      rw [declared_congr hproperties] at hdeclared
      rw [undeclared_congr hproperties, hrest] at hadditional
      rw [hvs] at hitems
      refine .ruled hkind (fun k' => ?_) ?_ hdeclared hadditional hitems
      · by_cases hname : k'.name = k.name
        · rwa [Keyword.name_inj hname]
        · have hmissed := hkeywords k'
          rwa [misses, hother hname] at hmissed
      · cases v with
        | object ms => rwa [missing, requiredNames, hneeded] at hrequired
        | _ => rfl

/-- After something has been declared for a name, a payload stays valid if its member of that name
satisfies it. -/
theorem satisfied_declaring (hv : Satisfied (.object members) v)
    (hd : ∀ w, (membersOf v).lookup name = some w → Satisfied d w) :
    Satisfied (.object (declaring members name d)) v := by
  refine AsksNoMore.declaring.satisfied hv fun p hp w hw => ?_
  rcases mem_declared_declaring hp with rfl | hp
  · exact hd w hw
  · cases hv with
    | ruled _ _ _ hproperties => exact hproperties p hp w hw

end Members

/-- **After a compatible change, a payload is still valid.** By induction on the change: it is at
the definition itself, or what is declared for a name or asked under a keyword allows more. -/
theorem Relaxes.satisfied {d d' v : Json} (h : Relaxes d d') (hv : Satisfied d v) :
    Satisfied d' v := by
  induction h generalizing v with
  | allowed => exact .anything
  | dropped hkeyword =>
    exact (AsksNoMore.dropped hkeyword).satisfied_of_lookup_eq
      (lookup_properties_filter hkeyword) hv
  | declared hclosed hnew =>
    have habsent := lookup_eq_none_of_closed hv hclosed hnew
    refine satisfied_declaring hv fun w hw => ?_
    cases habsent.symm.trans hw
  | property hd _ ih =>
    refine satisfied_declaring hv fun w hw => ih ?_
    cases hv with
    | ruled _ _ _ hproperties => exact hproperties _ (Json.mem_of_lookup hd) w hw
  | part hkeyword hd _ ih =>
    exact (AsksNoMore.insertPart hkeyword hd fun _ => ih).satisfied_of_lookup_eq
      (lookup_properties_insertMember hkeyword) hv

/-- After any number of compatible changes, a payload is still valid. -/
theorem satisfied_of_relaxes {d d' v : Json} (h : Relation.ReflTransGen Relaxes d d')
    (hv : Satisfied d v) : Satisfied d' v := by
  induction h with
  | refl => exact hv
  | tail _ hlast ih => exact hlast.satisfied ih

end Definition

/-! ## Payloads after a change -/

/-- **After compatible changes, all payloads that were valid still are.** -/
theorem evolution_keeps_valid {d d' : Json} {s s' : Schema}
    (h : Relation.ReflTransGen Definition.Relaxes d d')
    (hs : Schema.compile d = .ok s) (hs' : Schema.compile d' = .ok s')
    {v : Json} (hv : s.issues v = []) : s'.issues v = [] := by
  rw [Schema.issues_eq_nil_iff hs']
  exact Definition.satisfied_of_relaxes h ((Schema.issues_eq_nil_iff hs v).1 hv)

namespace Sample

/-- The members of a definition that allows no members but those that it declares. -/
def closed (ps : Json.Members) : Json.Members :=
  [("additionalProperties", .bool false), ("properties", .object ps)]

/-- What such a definition compiles to. -/
def closedSchema (properties : List (String × Schema)) : Schema :=
  .ruled (Schema.OwnFindings.read [] "#").rules properties (some (.always false)) none

/-- The schema of anything, and that of a text. -/
def untyped : Schema := .ruled (Schema.OwnFindings.read [] "#").rules [] none none

@[inherit_doc untyped]
def typed : Schema :=
  .ruled (Schema.OwnFindings.read [("type", .string "string")] "#").rules [] none none

theorem compileAt_untyped (pointer : String) :
    Schema.compileAt (.object []) pointer = ⟨untyped, []⟩ := by
  rw [Schema.compileAt_of_no_parts rfl rfl rfl]
  rfl

theorem compileAt_tag (pointer : String) : Schema.compileAt tag pointer = ⟨typed, []⟩ := by
  rw [tag, Schema.compileAt_of_no_parts rfl rfl rfl]
  rfl

theorem compile_closed {ps : Json.Members} {properties : List (String × Schema)}
    (h : Schema.compileMembers ps "#/properties" = ⟨properties, []⟩) :
    Schema.compile (.object (closed ps)) = .ok (closedSchema properties) := by
  have hproperties : Schema.compileProperties (closed ps) "#" = ⟨properties, []⟩ := h
  rw [Schema.compile_eq_ok_iff, Schema.compileAt_object,
    Schema.compilePart_of_some (d := .bool false) rfl, Schema.compilePart_of_none rfl,
    Schema.compileAt, hproperties]
  have hvalues : (Schema.OwnFindings.read (closed ps) "#").valueIssues = [] := rfl
  have hrequired : (Schema.OwnFindings.read (closed ps) "#").required.issues = [] := rfl
  have hitems : (Schema.OwnFindings.read (closed ps) "#").itemIssues = [] := rfl
  refine ⟨?_, rfl⟩
  simp only [Schema.Finding.clean, hvalues, hrequired, hitems, List.append_nil]

/-- The kind asked of a title is dropped, and then something is declared for notes. -/
theorem relaxes_closed : Relation.ReflTransGen Definition.Relaxes
    (.object (closed [("title", tag)]))
    (.object (closed [("note", tag), ("title", .object [])])) := by
  have hkind : Definition.Relaxes tag (.object []) :=
    @Definition.Relaxes.dropped [("type", .string "string")] "type" (by decide)
  have hdropped : Definition.Relaxes (.object (closed [("title", tag)]))
      (.object (closed [("title", .object [])])) :=
    @Definition.Relaxes.property (closed [("title", tag)]) "title" tag (.object []) rfl hkind
  have hdeclared : Definition.Relaxes (.object (closed [("title", .object [])]))
      (.object (closed [("note", tag), ("title", .object [])])) :=
    @Definition.Relaxes.declared (closed [("title", .object [])]) "note" tag rfl rfl
  exact .tail (.single hdropped) hdeclared

/-- A payload with a title is valid before and after. -/
theorem evolution_keeps_titled :
    ∃ s s', Schema.compile (.object (closed [("title", tag)])) = .ok s ∧
      Schema.compile (.object (closed [("note", tag), ("title", .object [])])) = .ok s' ∧
      s.issues (.object [("title", .string "a")]) = [] ∧
      s'.issues (.object [("title", .string "a")]) = [] := by
  have hs : Schema.compile (.object (closed [("title", tag)])) =
      .ok (closedSchema [("title", typed)]) := by
    apply compile_closed
    simp only [Schema.compileMembers, compileAt_tag]
    rfl
  have hs' : Schema.compile (.object (closed [("note", tag), ("title", .object [])])) =
      .ok (closedSchema [("note", typed), ("title", untyped)]) := by
    apply compile_closed
    simp only [Schema.compileMembers, compileAt_tag, compileAt_untyped]
    rfl
  have hv : (closedSchema [("title", typed)]).issues (.object [("title", .string "a")]) = [] := rfl
  exact ⟨_, _, hs, hs', hv, evolution_keeps_valid relaxes_closed hs hs' hv⟩

end Sample

end SchemaVault
