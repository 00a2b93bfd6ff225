import SchemaVault.Json5.Text

/-!
# Relaxed documents

JSON documents as people write them by hand: names may go without quotes, texts may be in single
quotes, numbers may be written in more ways, and commas may trail. A relaxed document keeps its
scalars as they are written and its members in their order, repeated names included.
`Document.chars` is its compact text as ordinary JSON.
-/

namespace SchemaVault.Json5

/-- A relaxed document. -/
inductive Document
  | null
  | bool (b : Bool)
  | number (n : Numeral)
  | text (w : Written)
  | array (items : List Document)
  | object (members : List (Written × Document))

namespace Document

instance : Inhabited Document := ⟨null⟩

/-- The first member of the given name; nothing in a document that is not an object. -/
def member? (name : String) : Document → Option Document
  | object members => (members.find? (·.1.isName name)).map (·.2)
  | _ => none

mutual

/-- The characters of the compact text. -/
def chars : Document → List Char
  | null => "null".toList
  | bool b => (if b then "true" else "false").toList
  | number n => n.chars
  | text w => w.chars
  | array items => '[' :: (itemsChars items ++ [']'])
  | object members => '\x7b' :: (membersChars members ++ ['\x7d'])

/-- The items of an array with commas between them. -/
def itemsChars : List Document → List Char
  | [] => []
  | [v] => chars v
  | v :: vs => chars v ++ ',' :: itemsChars vs

/-- The members of an object with commas between them. -/
def membersChars : List (Written × Document) → List Char
  | [] => []
  | [(name, v)] => name.chars ++ ':' :: chars v
  | (name, v) :: ms => name.chars ++ ':' :: (chars v ++ ',' :: membersChars ms)

end

end Document

end SchemaVault.Json5
