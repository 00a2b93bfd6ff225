/-!
# Failures

What a caller is told when an operation does not succeed. A validation failure lists messages by
field, and reports every field at once: `FieldErrors` keeps the fields in ascending order and the
messages of one field in the order in which they were added.
-/

namespace SchemaVault

/-- Messages by field, in order of the fields. -/
structure FieldErrors where
  entries : List (String × List String)
  deriving DecidableEq

namespace FieldErrors

/-- No messages. -/
def empty : FieldErrors := ⟨[]⟩

instance : Inhabited FieldErrors := ⟨empty⟩

/-- Adds a message at the end of the messages of its field. -/
def insert (field message : String) : List (String × List String) → List (String × List String)
  | [] => [(field, [message])]
  | (f, ms) :: rest =>
    if field < f then (field, [message]) :: (f, ms) :: rest
    else if field = f then (f, ms ++ [message]) :: rest
    else (f, ms) :: insert field message rest

/-- Adds a message against a field. -/
def push (e : FieldErrors) (field message : String) : FieldErrors :=
  ⟨insert field message e.entries⟩

/-- The messages of all the pairs of field and message. -/
def ofPairs (pairs : List (String × String)) : FieldErrors :=
  pairs.foldl (fun e p => e.push p.1 p.2) empty

/-- A single message. -/
def single (field message : String) : FieldErrors := empty.push field message

/-- Whether no field has failed. -/
def isEmpty (e : FieldErrors) : Bool := e.entries.isEmpty

/-- The failing fields in order. -/
def fields (e : FieldErrors) : List String := e.entries.map (·.1)

/-- The number of failing fields. -/
def size (e : FieldErrors) : Nat := e.entries.length

/-- Whether the field has failed. -/
def contains (e : FieldErrors) (field : String) : Bool := (e.entries.lookup field).isSome

/-- The messages of a field. -/
def messages (e : FieldErrors) (field : String) : List String :=
  (e.entries.lookup field).getD []

/-- Every message with its field, by field and then in order of addition. -/
def toPairs (e : FieldErrors) : List (String × String) :=
  e.entries.flatMap fun (field, ms) => ms.map fun m => (field, m)

/-- All messages in one line. -/
def text (e : FieldErrors) : String :=
  "; ".intercalate (e.toPairs.map fun (field, m) => field ++ ": " ++ m)

end FieldErrors

/-- Why an operation did not succeed. -/
inductive Failure
  /-- Some fields violate a rule. -/
  | validation (errors : FieldErrors)
  /-- There is no such schema, version, table or entity. -/
  | notFound (what : String)
  /-- Something is taken already, or another writer was faster; worth a second try. -/
  | conflict (what : String)
  /-- The storage failed. -/
  | internal (what : String)
  /-- The deadline passed or the operation was called off; nothing was applied. -/
  | cancelled
  /-- The computation broke off, as at a number too large for its type. Nothing was applied, and
  the handle that was asked is lost: what is asked of it later is asked of a new one. -/
  | crashed (what : String)
  deriving DecidableEq

namespace Failure

/-- A validation failure of a single field. -/
def invalid (field message : String) : Failure := validation (.single field message)

/-- The wording of a failure. -/
def message : Failure → String
  | validation errors => "validation failed: " ++ errors.text
  | notFound what => "not found: " ++ what
  | conflict what => "conflict: " ++ what
  | internal what => "internal error: " ++ what
  | cancelled => "operation cancelled"
  | crashed what => what

end Failure

/-- Succeeds if no field has failed. -/
def FieldErrors.check (e : FieldErrors) : Except Failure Unit :=
  if e.isEmpty then .ok () else .error (.validation e)

end SchemaVault
