import SchemaVault.Json.Basic
import SchemaVault.Number.Literal
import SchemaVault.Text.Split

/-!
# JSON pointers

The pointers of RFC 6901. A pointer is empty and means the whole document, or is a run of
reference tokens with a slash before each. Inside a token `~1` stands for the slash and `~0` for
the tilde. A token names the member of an object or, in decimal without sign or leading zero, the
place of an item in an array.
-/

namespace SchemaVault.Json

/-- A name as it stands in a pointer. -/
def escapeToken (name : String) : String :=
  String.ofList (name.toList.flatMap fun c =>
    if c = '~' then ['~', '0'] else if c = '/' then ['~', '1'] else [c])

/-- The name that a reference token stands for. -/
def unescapeToken : List Char → List Char
  | [] => []
  | '~' :: '1' :: cs => '/' :: unescapeToken cs
  | '~' :: '0' :: cs => '~' :: unescapeToken cs
  | c :: cs => c :: unescapeToken cs

/-- The place in an array that a token writes. -/
def index? (token : List Char) : Option Nat :=
  match token with
  | [] => none
  | '0' :: _ :: _ => none
  | cs => if cs.all Char.isDigit then some (Literal.digitsValue cs) else none

/-- The member or item that one reference token leads to. -/
def child? (v : Json) (token : List Char) : Option Json :=
  match v with
  | .object members => members.lookup (String.ofList token)
  | .array items => (index? token).bind (items[·]?)
  | _ => none

/-- The value that a pointer leads to. -/
def pointer? (v : Json) (pointer : String) : Option Json :=
  match pointer.toList with
  | [] => some v
  | '/' :: cs => ((Text.pieces '/' cs).map unescapeToken).foldlM child? v
  | _ => none

end SchemaVault.Json
