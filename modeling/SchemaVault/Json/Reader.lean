import SchemaVault.Json.Token

/-!
# Reading documents

The second pass of reading: the tokens drive a small machine that keeps the arrays and objects
still open, innermost first. A document may nest up to `Json.depthLimit` arrays and objects
within each other. `Json.read?` answers nothing for a text that is no document.
-/

namespace SchemaVault.Json

/-- How many arrays and objects may be open at once. -/
def depthLimit : Nat := 127

/-- An array or object that is still open, with what it holds so far and the place where the
next finished value goes. -/
inductive Frame
  /-- The next value is an item after the given ones, the latest of them first. -/
  | item (before : List Json)
  /-- The next value belongs to the given name. -/
  | member (before : Members) (name : String)

/-- What has been read, and what may come next. -/
inductive Progress
  /-- A value is due. -/
  | value (outer : List Frame)
  /-- The first item of an array, or its end. -/
  | firstItem (outer : List Frame)
  /-- A comma or the end of the array. -/
  | afterItem (items : List Json) (outer : List Frame)
  /-- The first name of an object, or its end. -/
  | firstName (outer : List Frame)
  /-- A name is due. -/
  | nextName (members : Members) (outer : List Frame)
  /-- A colon is due. -/
  | colon (members : Members) (name : String) (outer : List Frame)
  /-- A comma or the end of the object. -/
  | afterMember (members : Members) (outer : List Frame)
  /-- The document is complete. -/
  | finished (document : Json)

namespace Progress

/-- A value is complete and goes into the innermost open array or object. -/
def complete (v : Json) : List Frame → Progress
  | [] => finished v
  | .item before :: outer => afterItem (v :: before) outer
  | .member before name :: outer => afterMember (insertMember name v before) outer

/-- A token at a place where a value is due. -/
def start? (outer : List Frame) : Token → Option Progress
  | .scalar v => some (complete v outer)
  | .openArray => if outer.length < depthLimit then some (firstItem outer) else none
  | .openObject => if outer.length < depthLimit then some (firstName outer) else none
  | _ => none

/-- One token further. -/
def step? : Progress → Token → Option Progress
  | value outer, t => start? outer t
  | firstItem outer, .closeArray => some (complete (.array []) outer)
  | firstItem outer, t => start? (.item [] :: outer) t
  | afterItem items outer, .comma => some (value (.item items :: outer))
  | afterItem items outer, .closeArray => some (complete (.array items.reverse) outer)
  | firstName outer, .closeObject => some (complete (.object []) outer)
  | firstName outer, .scalar (.string s) => some (colon [] s outer)
  | nextName members outer, .scalar (.string s) => some (colon members s outer)
  | colon members s outer, .colon => some (value (.member members s :: outer))
  | afterMember members outer, .comma => some (nextName members outer)
  | afterMember members outer, .closeObject => some (complete (.object members) outer)
  | _, _ => none

end Progress

/-- The document that the tokens write. -/
def ofTokens? (tokens : List Token) : Option Json :=
  match tokens.foldlM Progress.step? (.value []) with
  | some (.finished v) => some v
  | _ => none

/-- The document that a text writes. -/
def read? (s : String) : Option Json := (Token.ofText? s.toList).bind ofTokens?

end SchemaVault.Json
