import SchemaVault.Failure
import SchemaVault.Text.Blank
import SchemaVault.Text.Quoted

/-!
# Listing requests

How a listing asks for a page and an order. Every field is optional. Page numbers and sizes are
clamped rather than refused; a bad sort column and a bad sort order are reported together. The
number of entities before the page has to fit into 64 bits, else the listing crashes.
-/

namespace SchemaVault

/-- The bounds on the size of a page. -/
structure PageLimits where
  /-- The size of a page if none is asked for, or one that is not positive. -/
  default : UInt32
  /-- The greatest size of a page. -/
  max : UInt32
  deriving DecidableEq

/-- Twenty to a page, and at most a hundred. -/
def PageLimits.standard : PageLimits := ⟨20, 100⟩

/-- The direction of an order. -/
inductive SortOrder
  | ascending
  | descending
  deriving DecidableEq

/-- A request for a page of a listing. -/
structure ListOptions where
  page : Option Int64
  pageSize : Option Int64
  /-- `createdAt`, `updatedAt`, `entityId`, or a property that the live schema declares. -/
  sortColumn : Option String
  sortOrder : Option String
  includeDeleted : Bool
  deriving DecidableEq

instance : Inhabited ListOptions := ⟨none, none, none, none, false⟩

/-! ## Pages -/

namespace PageLimits

/-- The greatest number of 32 bits. -/
def greatest : Nat := UInt32.size - 1

/-- A positive number, lowered to the greatest one of 32 bits. -/
def narrow (i : Int64) : UInt32 := UInt32.ofNat (min i.toInt.toNat greatest)

/-- The number of the page: at least 1. -/
def clampPage : (page : Option Int64) → UInt32
  | some p => if 1 ≤ p then narrow p else 1
  | none => 1

/-- The greatest size of a page, which is never less than 1. -/
def effectiveMax (l : PageLimits) : UInt32 := if l.max < 1 then 1 else l.max

/-- The size of a page if none is asked for, within the bounds. -/
def effectiveDefault (l : PageLimits) : UInt32 :=
  if l.default < 1 then 1 else if l.effectiveMax < l.default then l.effectiveMax else l.default

/-- The size of a page: at least 1 and at most the greatest size. -/
def clampSize (l : PageLimits) : (size : Option Int64) → UInt32
  | some n =>
    if 1 ≤ n then (if l.effectiveMax < narrow n then l.effectiveMax else narrow n)
    else l.effectiveDefault
  | none => l.effectiveDefault

end PageLimits

/-! ## Orders -/

namespace SortOrder

/-- The text of an order. -/
def text : SortOrder → String
  | ascending => "asc"
  | descending => "desc"

/-- The order that a text names in any case, or what is wrong with it. -/
def read (s : String) : Except String SortOrder :=
  let lowered := s.toList.map Char.toLower
  if lowered = "asc".toList then .ok ascending
  else if lowered = "desc".toList then .ok descending
  else .error ("must be \"asc\" or \"desc\", got " ++ Text.quoted s)

end SortOrder

/-- What a listing is ordered by. -/
inductive SortKey
  | createdAt
  | updatedAt
  | entityId
  /-- A property that the live schema declares. -/
  | property (name : String)
  deriving DecidableEq

namespace SortKey

/-- Whether a property can be sorted by: its name has neither quotes, backslashes nor control
characters. -/
def isSortableName (name : String) : Bool :=
  name.toList.all fun c => !(c == '"' || c == '\\' || Text.isControl c)

/-- The key that a column names: a system column in one of its spellings, or else a declared
property. -/
def ofColumn? (column : String) (declared : List String) : Option SortKey :=
  match column with
  | "createdAt" | "created_at" => some createdAt
  | "updatedAt" | "updated_at" => some updatedAt
  | "entityId" | "entity_id" => some entityId
  | name => if isSortableName name && declared.contains name then some (property name) else none

end SortKey

/-! ## Resolved requests -/

/-- A request with its page clamped and its order settled. -/
structure Listing where
  page : UInt32
  pageSize : UInt32
  key : SortKey
  order : SortOrder
  includeDeleted : Bool
  deriving DecidableEq

namespace ListOptions

/-- What a field of a request says, without the white space around it; nothing if it is blank. -/
def given (field : Option String) : Option String :=
  (field.map Text.trim).filter fun s => !s.isEmpty

/-- The key of a request, with what is wrong with it. -/
def sortKey (o : ListOptions) (declared : List String) : SortKey × List (String × String) :=
  match given o.sortColumn with
  | none => (.createdAt, [])
  | some column =>
    match SortKey.ofColumn? column declared with
    | some key => (key, [])
    | none => (.createdAt, [("sortColumn", "cannot sort by " ++ Text.quoted column ++
        ": not a system column or declared property")])

/-- The direction of a request, with what is wrong with it. -/
def direction (o : ListOptions) : SortOrder × List (String × String) :=
  match given o.sortOrder with
  | none => (.descending, [])
  | some text =>
    match SortOrder.read text with
    | .ok order => (order, [])
    | .error message => (.descending, [("sortOrder", message)])

/-- Clamps the page and settles the order, given the declared properties. -/
def resolve (o : ListOptions) (limits : PageLimits) (declared : List String) :
    Except Failure Listing := do
  let (key, keyErrors) := o.sortKey declared
  let (order, orderErrors) := o.direction
  (FieldErrors.ofPairs (keyErrors ++ orderErrors)).check
  return ⟨PageLimits.clampPage o.page, limits.clampSize o.pageSize, key, order, o.includeDeleted⟩

end ListOptions

namespace Listing

/-- What breaks off the multiplication of two numbers whose product is too large. -/
def overflow : Failure := .crashed "attempt to multiply with overflow"

/-- The product of two signed numbers of 64 bits, which has to be one itself. -/
def product (a b : Int64) : Except Failure Int64 :=
  if Int64.minValue.toInt ≤ a.toInt * b.toInt ∧ a.toInt * b.toInt ≤ Int64.maxValue.toInt then
    .ok (a * b)
  else .error overflow

/-- The number of entities before the page. -/
def offset (l : Listing) : Except Failure Int64 :=
  product (Int64.ofNat l.page.toNat - 1) (Int64.ofNat l.pageSize.toNat)

end Listing

end SchemaVault
