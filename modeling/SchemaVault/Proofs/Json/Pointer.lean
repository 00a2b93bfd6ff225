import SchemaVault.Json.Pointer
import SchemaVault.Proofs.Text

/-!
# Pointers lead where they are written to

A path into a document is a list of reference tokens, each the name of a member or the place of an
item in decimal. Written as a pointer, with a slash before each token and slashes and tildes
escaped, it leads to the value at the end of the path (`pointer?_pathText`).
-/

namespace SchemaVault.Json

/-! ## Tokens -/

/-- The characters that stand for a character in a token. -/
def escapeChar (c : Char) : List Char :=
  if c = '~' then ['~', '0'] else if c = '/' then ['~', '1'] else [c]

theorem toList_escapeToken (name : String) :
    (escapeToken name).toList = name.toList.flatMap escapeChar := by
  rw [escapeToken, String.toList_ofList]
  rfl

theorem slash_notMem_escapeToken (name : String) : '/' ∉ (escapeToken name).toList := by
  rw [toList_escapeToken, List.mem_flatMap]
  rintro ⟨c, -, hc⟩
  unfold escapeChar at hc
  split at hc
  · simp at hc
  · split at hc
    · simp at hc
    · rename_i hslash
      exact hslash (List.mem_singleton.1 hc).symm

theorem unescapeToken_escapeChar (c : Char) (cs : List Char) :
    unescapeToken (escapeChar c ++ cs) = c :: unescapeToken cs := by
  unfold escapeChar
  split
  · rename_i htilde
    subst htilde
    rfl
  · rename_i htilde
    split
    · rename_i hslash
      subst hslash
      rfl
    · rw [List.singleton_append, unescapeToken]
      all_goals exact fun _ h => absurd h htilde

/-- A name that is escaped stands for itself. -/
theorem unescapeToken_escapeToken (name : String) :
    unescapeToken (escapeToken name).toList = name.toList := by
  rw [toList_escapeToken]
  induction name.toList with
  | nil => rfl
  | cons c cs ih => rw [List.flatMap_cons, unescapeToken_escapeChar, ih]

/-- A name without slashes and tildes needs no escape. -/
theorem escapeToken_of_plain {name : String} (h : ∀ c ∈ name.toList, c ≠ '~' ∧ c ≠ '/') :
    escapeToken name = name := by
  rw [← String.toList_inj, toList_escapeToken]
  generalize name.toList = cs at h
  induction cs with
  | nil => rfl
  | cons c cs ih =>
    obtain ⟨htilde, hslash⟩ := h c List.mem_cons_self
    rw [List.flatMap_cons, ih fun d hd => h d (List.mem_cons_of_mem c hd), escapeChar,
      if_neg htilde, if_neg hslash, List.singleton_append]

theorem escapeToken_toString (i : Nat) : escapeToken (toString i) = toString i := by
  refine escapeToken_of_plain fun c hc => ?_
  have hdigit := isDigit_of_mem_toString i hc
  constructor <;> rintro rfl <;> cases hdigit

/-- The place of an item in decimal is read as that place. -/
theorem index?_toString (i : Nat) : index? (toString i).toList = some i := by
  have hdigits : (toString i).toList.all Char.isDigit :=
    List.all_eq_true.2 fun c => isDigit_of_mem_toString i
  unfold index?
  split
  · rename_i hnil
    exact absurd hnil (toString_ne_nil i)
  · rename_i hzero
    rcases Nat.eq_zero_or_pos i with rfl | hpos
    · cases hzero
    · exact absurd (by rw [hzero]; rfl) (head_toString i hpos)
  · rw [if_pos hdigits, Literal.digitsValue_toString]

/-! ## Paths -/

/-- A path as a pointer. -/
def pathText : List String → String
  | [] => ""
  | token :: path => "/" ++ escapeToken token ++ pathText path

/-- The value at the end of a path. -/
def atPath? (v : Json) (path : List String) : Option Json :=
  path.foldlM (fun v token => v.child? token.toList) v

@[simp] theorem atPath?_nil (v : Json) : v.atPath? [] = some v := rfl

theorem atPath?_member {members : Members} {name : String} {v : Json}
    (h : members.lookup name = some v) (path : List String) :
    (object members).atPath? (name :: path) = v.atPath? path := by
  simp [atPath?, child?, h]

theorem atPath?_item {items : List Json} {i : Nat} {v : Json} (h : items[i]? = some v)
    (path : List String) : (array items).atPath? (toString i :: path) = v.atPath? path := by
  simp only [atPath?, List.foldlM_cons, child?, index?_toString, Option.bind_some, h]
  rfl

theorem toList_pathText (token : String) (path : List String) :
    (pathText (token :: path)).toList =
      '/' :: ((escapeToken token).toList ++ (pathText path).toList) := by
  simp [pathText, String.toList_append]

/-- The pieces of a pointer between its slashes are the escaped tokens. -/
theorem pieces_pathText (token : String) (path : List String) :
    Text.pieces '/' ((escapeToken token).toList ++ (pathText path).toList) =
      (token :: path).map fun token => (escapeToken token).toList := by
  induction path generalizing token with
  | nil => simp [pathText, Text.pieces_of_notMem (slash_notMem_escapeToken token)]
  | cons next path ih =>
    rw [toList_pathText, Text.pieces_append (slash_notMem_escapeToken token), ih]
    rfl

/-- **A pointer leads to the end of the path that it is written for.** -/
theorem pointer?_pathText (v : Json) (path : List String) :
    v.pointer? (pathText path) = v.atPath? path := by
  cases path with
  | nil => rfl
  | cons token path =>
    unfold pointer?
    simp only [toList_pathText, pieces_pathText, List.map_map]
    have htokens : (unescapeToken ∘ fun token => (escapeToken token).toList) = String.toList :=
      funext unescapeToken_escapeToken
    rw [htokens, List.foldlM_map]
    rfl

end SchemaVault.Json
