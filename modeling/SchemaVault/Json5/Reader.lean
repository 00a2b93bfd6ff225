import SchemaVault.Json5.Token

/-!
# Reading relaxed documents

The second pass drives a small machine with the tokens, which keeps the arrays and objects still
open, innermost first. A comma may stand before the end of an array or object that is not empty. A
word names a value if it is one of the literal names, and cannot be the name of a member if one of
them is at its front. A document may nest up to `Json5.depthLimit` arrays and objects, and the
character 0 ends its text.
-/

namespace SchemaVault.Json5

/-- How many arrays and objects may be open at once. -/
def depthLimit : Nat := 1000

/-! ## Literal names -/

/-- The value of a literal name. The names for infinity and for what is not a number may be written
in any case; the latter stand for null. -/
def literal? (name : String) : Option Document :=
  match name with
  | "null" => some .null
  | "true" => some (.bool true)
  | "false" => some (.bool false)
  | name =>
    match String.ofList (name.toList.map Char.toLower) with
    | "nan" | "qnan" | "snan" => some .null
    | "inf" | "infinity" => some (.number (.infinity false))
    | _ => none

/-- The letters and digits of ASCII at the front of a word. -/
def leadingName : Written → List Char
  | .plain c :: rest => if c.isAlphanum then c :: leadingName rest else []
  | _ => []

/-- The value that a word names. -/
def value? (w : Written) : Option Document :=
  let name := leadingName w
  if name.length = w.length then literal? (String.ofList name) else none

/-- Whether a word can be the name of a member. -/
def isMemberName (w : Written) : Bool := (literal? (String.ofList (leadingName w))).isNone

/-! ## The machine -/

/-- An array or object that is still open, with what it holds so far, the latest first, and the
place where the next finished value goes. -/
inductive Frame
  | item (before : List Document)
  | member (before : List (Written × Document)) (name : Written)

/-- What has been read, and what may come next. -/
inductive Progress
  /-- A value is due. -/
  | value (outer : List Frame)
  /-- An item of an array, or its end. -/
  | nextItem (items : List Document) (outer : List Frame)
  /-- A comma or the end of the array. -/
  | afterItem (items : List Document) (outer : List Frame)
  /-- A name in an object, or its end. -/
  | nextName (members : List (Written × Document)) (outer : List Frame)
  /-- A colon is due. -/
  | colon (members : List (Written × Document)) (name : Written) (outer : List Frame)
  /-- A comma or the end of the object. -/
  | afterMember (members : List (Written × Document)) (outer : List Frame)
  /-- The document is complete. -/
  | finished (document : Document)

namespace Progress

/-- A value is complete and goes into the innermost open array or object. -/
def complete (v : Document) : List Frame → Progress
  | [] => finished v
  | .item before :: outer => afterItem (v :: before) outer
  | .member before name :: outer => afterMember ((name, v) :: before) outer

/-- A token at a place where a value is due. -/
def start? (outer : List Frame) : Token → Option Progress
  | .numeral n => some (complete (.number n) outer)
  | .text w => some (complete (.text w) outer)
  | .word w => (value? w).map fun v => complete v outer
  | .openArray => if outer.length < depthLimit then some (nextItem [] outer) else none
  | .openObject => if outer.length < depthLimit then some (nextName [] outer) else none
  | _ => none

/-- One token further. -/
def step? : Progress → Token → Option Progress
  | value outer, t => start? outer t
  | nextItem items outer, .closeArray => some (complete (.array items.reverse) outer)
  | nextItem items outer, t => start? (.item items :: outer) t
  | afterItem items outer, .comma => some (nextItem items outer)
  | afterItem items outer, .closeArray => some (complete (.array items.reverse) outer)
  | nextName members outer, .closeObject => some (complete (.object members.reverse) outer)
  | nextName members outer, .text w => some (colon members w outer)
  | nextName members outer, .word w => if isMemberName w then some (colon members w outer) else none
  | colon members w outer, .colon => some (value (.member members w :: outer))
  | afterMember members outer, .comma => some (nextName members outer)
  | afterMember members outer, .closeObject => some (complete (.object members.reverse) outer)
  | _, _ => none

end Progress

/-- The document that the tokens write. -/
def ofTokens? (tokens : List Token) : Option Document :=
  match tokens.foldlM Progress.step? (.value []) with
  | some (.finished v) => some v
  | _ => none

/-- The document that a text writes. -/
def read? (s : String) : Option Document :=
  (Token.ofText? (s.toList.takeWhile (·.toNat != 0))).bind ofTokens?

end SchemaVault.Json5
