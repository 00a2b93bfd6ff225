import SchemaVault.Toml.Basic
import SchemaVault.Toml.Scalar
import SchemaVault.Toml.Text

/-!
# Reading TOML documents

A document is read line by line: blank lines, comments, headers and definitions. `Toml.read?`
gives the table that the lines build, or nothing if a line is malformed or breaks a rule of
`Toml.Table`. Arrays and tables in line nest at most `depthLimit` deep, and a dotted key has at
most so many parts.
-/

namespace SchemaVault.Toml

/-- How deeply values nest, and how many parts a dotted key has. -/
def depthLimit : Nat := 79

/-! ## White space, line ends and comments -/

/-- Drops the blanks of a line. -/
def skipBlanks (cs : List Char) : List Char := cs.dropWhile isLineBlank

/-- Drops a comment, if one stands here. -/
def skipComment : List Char → List Char
  | '#' :: cs => cs.dropWhile isPlain
  | cs => cs

/-- The line after a line break; the end of the document also ends a line. -/
def lineBreak? : List Char → Option (List Char)
  | [] => some []
  | '\n' :: cs => some cs
  | '\r' :: '\n' :: cs => some cs
  | _ => none

/-- The next line, if only blanks and a comment stand in the rest of this one. -/
def lineEnd? (cs : List Char) : Option (List Char) := lineBreak? (skipComment (skipBlanks cs))

/-- Drops blanks, line breaks and comments between the items of an array. -/
def skipFiller : (fuel : Nat) → List Char → List Char
  | 0, cs => cs
  | fuel + 1, cs =>
    match cs with
    | ' ' :: rest | '\t' :: rest | '\n' :: rest | '\r' :: '\n' :: rest => skipFiller fuel rest
    | '#' :: rest => skipFiller fuel (rest.dropWhile isPlain)
    | cs => cs

/-- Drops all filler. -/
def skipAllFiller (cs : List Char) : List Char := skipFiller cs.length cs

/-! ## Keys -/

/-- Whether a character may stand in a bare key. -/
def isBareChar (c : Char) : Bool := c.isAlphanum || c == '-' || c == '_'

/-- One part of a key: bare, or a text on one line. -/
def keyPart? (cs : List Char) : Option (String × List Char) :=
  match cs with
  | '"' :: rest => (basicText? rest).map fun (text, after) => (String.ofList text, after)
  | '\'' :: rest => (literalText? rest).map fun (text, after) => (String.ofList text, after)
  | cs =>
    match cs.span isBareChar with
    | ([], _) => none
    | (bare, after) => some (String.ofList bare, after)

/-- The further parts of a key, each after a point. -/
def keyTail? : (fuel : Nat) → List Char → Option (List String × List Char)
  | 0, cs => some ([], cs)
  | fuel + 1, cs =>
    match cs with
    | '.' :: rest => do
      let (part, rest) ← keyPart? (skipBlanks rest)
      let (parts, rest) ← keyTail? fuel (skipBlanks rest)
      return (part :: parts, rest)
    | cs => some ([], cs)

/-- A key of one or more parts: those before the last, and the last. -/
def key? (cs : List Char) : Option ((List String × String) × List Char) := do
  let (first, rest) ← keyPart? (skipBlanks cs)
  let (others, rest) ← keyTail? rest.length (skipBlanks rest)
  let parts := first :: others
  if parts.length ≤ depthLimit then some ((parts.dropLast, parts.getLast?.getD first), rest)
  else none

/-! ## Values -/

/-- The items of an array after its opening bracket. -/
def items? (value : List Char → Option (Value × List Char)) :
    (fuel : Nat) → List Char → Option (List Value × List Char)
  | 0, _ => none
  | fuel + 1, cs =>
    match skipAllFiller cs with
    | ']' :: rest => some ([], rest)
    | cs => do
      let (v, rest) ← value cs
      match skipAllFiller rest with
      | ']' :: rest => return ([v], rest)
      | ',' :: rest =>
        let (vs, rest) ← items? value fuel rest
        return (v :: vs, rest)
      | _ => none

/-- A key, an equals sign and a value. -/
def definition? (value : List Char → Option (Value × List Char)) (cs : List Char) :
    Option (((List String × String) × Value) × List Char) := do
  let (key, rest) ← key? cs
  match rest with
  | '=' :: rest =>
    let (v, rest) ← value (skipBlanks rest)
    return ((key, v), skipBlanks rest)
  | _ => none

/-- The definitions of a table in line, from the first on, up to its closing brace. -/
def entries? (value : List Char → Option (Value × List Char)) :
    (fuel : Nat) → (t : Table) → List Char → Option (Table × List Char)
  | 0, _, _ => none
  | fuel + 1, t, cs => do
    let (((path, key), v), rest) ← definition? value cs
    let t ← t.defineAt path key v .inline
    match rest with
    | '\x7d' :: rest => return (t, rest)
    | ',' :: rest => entries? value fuel t rest
    | _ => none

/-- A value in which at most `depth` arrays and tables nest. -/
def value? : (depth : Nat) → List Char → Option (Value × List Char)
  | depth, cs =>
    match cs with
    | '[' :: rest =>
      match depth with
      | 0 => none
      | depth + 1 =>
        (items? (value? depth) (rest.length + 1) rest).map fun (vs, rest) => (.array vs, rest)
    | '\x7b' :: rest =>
      match depth with
      | 0 => none
      | depth + 1 =>
        match skipBlanks rest with
        | '\x7d' :: rest => some (.table .inline [], rest)
        | rest =>
          (entries? (value? depth) (rest.length + 1) [] rest).map fun (t, rest) =>
            (.table .inline t, rest)
    | '"' :: _ | '\'' :: _ => (text? cs).map fun (s, rest) => (.text s, rest)
    | _ => scalar? cs

/-! ## Lines -/

/-- A table under construction: the whole document, and the path of the table to which
definitions go. -/
structure Draft where
  root : Table
  current : List String

/-- The current table with a further definition. -/
def Draft.define (d : Draft) (path : List String) (key : String) (v : Value) : Option Draft := do
  let root ← Table.within .implied (fun _ t => t.defineAt path key v .header) d.current .header
    d.root
  return { d with root }

/-- What the end of a header closes, if it stands here. -/
def afterHeader? (closing : List Char) (cs : List Char) : Option (List Char) :=
  (Text.afterLead? closing cs).bind lineEnd?

/-- Reads the line that begins here, and returns the draft after it and the next line. -/
def line? (d : Draft) (cs : List Char) : Option (Draft × List Char) :=
  match skipBlanks cs with
  | '[' :: '[' :: rest => do
    let ((path, key), rest) ← key? rest
    let rest ← afterHeader? [']', ']'] rest
    let root ← d.root.openItem path key
    return (⟨root, path ++ [key]⟩, rest)
  | '[' :: rest => do
    let ((path, key), rest) ← key? rest
    let rest ← afterHeader? [']'] rest
    let root ← d.root.openTable path key
    return (⟨root, path ++ [key]⟩, rest)
  | cs =>
    match lineEnd? cs with
    | some rest => some (d, rest)
    | none => do
      let (((path, key), v), rest) ← definition? (value? depthLimit) cs
      let rest ← lineEnd? rest
      let d ← d.define path key v
      return (d, rest)

/-- Reads line after line. -/
def lines? : (fuel : Nat) → Draft → List Char → Option Table
  | 0, d, cs => if cs.isEmpty then some d.root else none
  | fuel + 1, d, cs =>
    if cs.isEmpty then some d.root
    else do
      let (d, rest) ← line? d cs
      lines? fuel d rest

/-- The table that a document describes. A byte order mark before it is skipped. -/
def read? (s : String) : Option Table :=
  let cs := match s.toList with
    | '\uFEFF' :: cs => cs
    | cs => cs
  lines? (cs.length + 1) ⟨[], []⟩ cs

end SchemaVault.Toml
