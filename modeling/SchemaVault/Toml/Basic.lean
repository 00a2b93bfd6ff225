/-!
# TOML documents

The values of a TOML document and the rules by which its lines build tables. A table may be
opened by a header, by the longer header of a table inside it, by a dotted key, or be written in
line, and how it came about decides what may be added to it later: a header may complete a table
that is only implied by others, a dotted key may add to tables that headers or dotted keys imply,
and a table written in line is closed. No key is defined twice.
-/

namespace SchemaVault.Toml

/-- How a table came about. -/
inductive Origin
  /-- By its own header. -/
  | header
  /-- By the header of a table inside it. -/
  | implied
  /-- By a dotted key. -/
  | dotted
  /-- Between braces. -/
  | inline
  deriving DecidableEq

/-- A value. Of floats and of dates and times only the kind is kept. -/
inductive Value
  | text (value : String)
  | integer (value : Int)
  | bool (value : Bool)
  | float
  | dateTime
  | array (items : List Value)
  | table (origin : Origin) (entries : List (String × Value))
  /-- An array of tables that is built by headers; new entries go into the last one. -/
  | tables (earlier : List (List (String × Value))) (last : List (String × Value))

/-- The entries of a table in order of definition. -/
abbrev Table := List (String × Value)

namespace Table

/-- Puts a value in place of that of an existing key, or at the end. -/
def put (t : Table) (key : String) (v : Value) : Table :=
  match t with
  | [] => [(key, v)]
  | (k, w) :: rest => if k = key then (key, v) :: rest else (k, w) :: put rest key v

/-- Changes the table at a path, given how it came about. Missing tables on the way come about as
`missing` says. A header passes through tables that have headers of their own, a dotted key does
not; neither passes through a table written in line, and both enter the last table of an array. -/
def within (missing : Origin) (change : Origin → Table → Option Table) :
    (path : List String) → (origin : Origin) → Table → Option Table
  | [], origin, t => change origin t
  | key :: path, _, t =>
    match t.lookup key with
    | none => do
      let inner ← within missing change path missing []
      return put t key (.table missing inner)
    | some (.table origin inner) =>
      if origin = .inline ∨ (missing = .dotted ∧ origin = .header) then none
      else do
        let inner ← within missing change path origin inner
        return put t key (.table origin inner)
    | some (.tables earlier last) => do
      let last ← within missing change path .header last
      return put t key (.tables earlier last)
    | some _ => none

/-- Defines a key of a table, which must not be defined yet. -/
def define (key : String) (v : Value) (t : Table) : Option Table :=
  if (t.lookup key).isSome then none else some (put t key v)

/-- Defines a dotted key: `path` leads to a table that a dotted key has made, unless it is
empty. -/
def defineAt (path : List String) (key : String) (v : Value) (origin : Origin) (t : Table) :
    Option Table :=
  within .dotted
    (fun reached t => if path ≠ [] ∧ reached ≠ .dotted then none else define key v t)
    path origin t

/-- Opens the table of a header. -/
def openTable (path : List String) (key : String) (t : Table) : Option Table :=
  within .implied
    (fun _ t =>
      match t.lookup key with
      | none => some (put t key (.table .header []))
      | some (.table .implied inner) => some (put t key (.table .header inner))
      | some _ => none)
    path .header t

/-- Opens a further table of an array of tables. -/
def openItem (path : List String) (key : String) (t : Table) : Option Table :=
  within .implied
    (fun _ t =>
      match t.lookup key with
      | none => some (put t key (.tables [] []))
      | some (.tables earlier last) => some (put t key (.tables (earlier ++ [last]) []))
      | some _ => none)
    path .header t

end Table

end SchemaVault.Toml
