import SchemaVault.Number.Basic

/-!
# JSON documents

A document is a tree of the six JSON kinds. The members of an object stand in ascending order of
their names, each name once; `Json.ofMembers` builds such objects from members in any order, the
last of several members of one name winning. `Json.same` is equality up to the way a number is
kept, under which `1` and `1.0` are the same value.
-/

namespace SchemaVault

/-- A JSON document. -/
inductive Json
  | null
  | bool (value : Bool)
  | number (value : Number)
  | string (value : String)
  | array (items : List Json)
  | object (members : List (String × Json))

instance : Inhabited Json := ⟨.null⟩

namespace Json

/-- The members of an object, in order of their names. -/
abbrev Members := List (String × Json)

/-! ## Decidable equality -/

mutual

/-- Decides equality of documents. -/
def decEq : (a b : Json) → Decidable (a = b)
  | .null, .null => isTrue rfl
  | .bool a, .bool b =>
    if h : a = b then isTrue (by rw [h]) else isFalse (by simpa using h)
  | .number a, .number b =>
    if h : a = b then isTrue (by rw [h]) else isFalse (by simpa using h)
  | .string a, .string b =>
    if h : a = b then isTrue (by rw [h]) else isFalse (by simpa using h)
  | .array a, .array b =>
    match decEqItems a b with
    | isTrue h => isTrue (by rw [h])
    | isFalse h => isFalse (by simpa using h)
  | .object a, .object b =>
    match decEqMembers a b with
    | isTrue h => isTrue (by rw [h])
    | isFalse h => isFalse (by simpa using h)
  | .null, .bool _ | .null, .number _ | .null, .string _ | .null, .array _ | .null, .object _ =>
    isFalse (by simp)
  | .bool _, .null | .bool _, .number _ | .bool _, .string _ | .bool _, .array _
  | .bool _, .object _ => isFalse (by simp)
  | .number _, .null | .number _, .bool _ | .number _, .string _ | .number _, .array _
  | .number _, .object _ => isFalse (by simp)
  | .string _, .null | .string _, .bool _ | .string _, .number _ | .string _, .array _
  | .string _, .object _ => isFalse (by simp)
  | .array _, .null | .array _, .bool _ | .array _, .number _ | .array _, .string _
  | .array _, .object _ => isFalse (by simp)
  | .object _, .null | .object _, .bool _ | .object _, .number _ | .object _, .string _
  | .object _, .array _ => isFalse (by simp)

/-- Decides equality of lists of items. -/
def decEqItems : (a b : List Json) → Decidable (a = b)
  | [], [] => isTrue rfl
  | [], _ :: _ | _ :: _, [] => isFalse (by simp)
  | a :: as, b :: bs =>
    match decEq a b, decEqItems as bs with
    | isTrue h, isTrue h' => isTrue (by rw [h, h'])
    | isFalse h, _ => isFalse (by simp [h])
    | _, isFalse h => isFalse (by simp [h])

/-- Decides equality of lists of members. -/
def decEqMembers : (a b : List (String × Json)) → Decidable (a = b)
  | [], [] => isTrue rfl
  | [], _ :: _ | _ :: _, [] => isFalse (by simp)
  | (k, a) :: as, (l, b) :: bs =>
    match instDecidableEqString k l, decEq a b, decEqMembers as bs with
    | isTrue h, isTrue h', isTrue h'' => isTrue (by rw [h, h', h''])
    | isFalse h, _, _ => isFalse (by simp [h])
    | _, isFalse h, _ => isFalse (by simp [h])
    | _, _, isFalse h => isFalse (by simp [h])

end

instance : DecidableEq Json := decEq

/-! ## Objects -/

/-- Puts a member into its place, over an earlier member of the same name. -/
def insertMember (name : String) (value : Json) : Members → Members
  | [] => [(name, value)]
  | (n, v) :: ms =>
    if name < n then (name, value) :: (n, v) :: ms
    else if name = n then (name, value) :: ms
    else (n, v) :: insertMember name value ms

/-- The object with the given members; of several with one name the last counts. -/
def ofMembers (members : List (String × Json)) : Json :=
  .object (members.foldl (fun ms m => insertMember m.1 m.2 ms) [])

/-- The member of an object with the given name; nothing for any other kind. -/
def member? (v : Json) (name : String) : Option Json :=
  match v with
  | .object ms => ms.lookup name
  | _ => none

/-! ## Kinds -/

/-- The text, if the document is a text. -/
def text? : Json → Option String
  | .string s => some s
  | _ => none

/-- The truth value, if the document is one. -/
def bool? : Json → Option Bool
  | .bool b => some b
  | _ => none

/-- The number, if the document is one. -/
def number? : Json → Option Number
  | .number n => some n
  | _ => none

/-- The exact integer, if the document is a number kept as one. -/
def int? : Json → Option Int
  | .number n => n.toInt?
  | _ => none

/-- The items, if the document is an array. -/
def items? : Json → Option (List Json)
  | .array xs => some xs
  | _ => none

/-- The document as a non-negative integer of 64 bits; doubles are refused. -/
def uint64? (v : Json) : Option UInt64 :=
  match v.int? with
  | some i => if 0 ≤ i then some (UInt64.ofNat i.toNat) else none
  | none => none

/-- Whether the document is a number with an integer value. -/
def isIntegral : Json → Bool
  | .number n => n.isIntegral
  | _ => false

/-! ## Equality of values -/

mutual

/-- Equality of documents up to the way numbers are kept: numbers by value, arrays item by item,
objects member by member. -/
def same : Json → Json → Bool
  | .number a, .number b => a.same b
  | .array a, .array b => sameItems a b
  | .object a, .object b => a.length == b.length && sameMembers a b
  | .null, .null => true
  | .bool a, .bool b => a == b
  | .string a, .string b => a == b
  | _, _ => false

/-- Equally many items, each the same as its counterpart. -/
def sameItems : List Json → List Json → Bool
  | [], [] => true
  | a :: as, b :: bs => same a b && sameItems as bs
  | _, _ => false

/-- Each member of the first object has a member of its name in the second, with the same
value. -/
def sameMembers : List (String × Json) → List (String × Json) → Bool
  | [], _ => true
  | (name, a) :: as, bs =>
    (match bs.lookup name with
      | some b => same a b
      | none => false) && sameMembers as bs

end

end Json

end SchemaVault
