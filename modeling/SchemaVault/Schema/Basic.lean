import SchemaVault.Json.Basic
import SchemaVault.Pattern.Search
import SchemaVault.Schema.Format

/-!
# Compiled schemas

A schema says which documents it allows. It allows everything, or nothing, or what a set of rules
leaves. The rules that concern a document itself are in `Rules`; the schemas for the parts of a
document stand beside them.
-/

namespace SchemaVault

/-- A kind of document that a schema can ask for. -/
inductive Kind
  | object
  | array
  | string
  | number
  | integer
  | boolean
  | null
  deriving DecidableEq

namespace Kind

/-- The kind of a given name. -/
def ofName? (name : String) : Option Kind :=
  match name with
  | "object" => some object
  | "array" => some array
  | "string" => some string
  | "number" => some number
  | "integer" => some integer
  | "boolean" => some boolean
  | "null" => some null
  | _ => none

/-- The name of a kind. -/
def name : Kind → String
  | object => "object"
  | array => "array"
  | string => "string"
  | number => "number"
  | integer => "integer"
  | boolean => "boolean"
  | null => "null"

/-- Whether a document is of the kind. Integers are numbers too. -/
def accepts : Kind → Json → Bool
  | object, .object _ => true
  | array, .array _ => true
  | string, .string _ => true
  | number, .number _ => true
  | integer, v => v.isIntegral
  | boolean, .bool _ => true
  | null, .null => true
  | _, _ => false

/-- The narrowest kind of a document. -/
def of : Json → Kind
  | .null => null
  | .bool _ => boolean
  | .number n => if n.isIntegral then integer else number
  | .string _ => string
  | .array _ => array
  | .object _ => object

end Kind

/-- The rules of a schema that concern a document itself. -/
structure Rules where
  kinds : Option (List Kind)
  allowed : Option (List Json)
  constant : Option Json
  /-- The bounds on the number of characters of a text. -/
  minLength : Option UInt64
  maxLength : Option UInt64
  pattern : Option Pattern
  /-- The format of a text, with the name by which the schema calls it. -/
  format : Option (String × Format)
  minimum : Option Number
  maximum : Option Number
  exclusiveMinimum : Option Number
  exclusiveMaximum : Option Number
  multipleOf : Option Number
  /-- The names that an object must have. -/
  required : List String
  /-- The bounds on the number of items of an array. -/
  minItems : Option UInt64
  maxItems : Option UInt64
  uniqueItems : Bool

/-- A compiled schema. -/
inductive Schema
  /-- Allows everything, or nothing. -/
  | always (allowed : Bool)
  /-- Asks of a document to follow the rules, of the members of an object to satisfy the schema
  declared for their name, or `additional` if there is none, and of the items of an array to
  satisfy `items`. -/
  | ruled (rules : Rules) (properties : List (String × Schema)) (additional : Option Schema)
      (items : Option Schema)

namespace Schema

instance : Inhabited Schema := ⟨always true⟩

/-- The names that the schema declares for the members of the document itself. -/
def propertyNames : Schema → List String
  | always _ => []
  | ruled _ properties _ _ => properties.map (·.1)

end Schema

end SchemaVault
