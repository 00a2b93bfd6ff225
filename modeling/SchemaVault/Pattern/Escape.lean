import SchemaVault.Number.Literal
import SchemaVault.Pattern.Expr
import SchemaVault.Pattern.Fault
import SchemaVault.Text.Blank
import SchemaVault.Text.Hexadecimal

/-!
# Single characters and escapes of a pattern

The flags under which a pattern is read, the expressions that one character or one escape
sequence writes, and the spacing between them. With the flag `spaced`, blanks mean nothing and a
number sign begins a comment to the end of its line.

Each reader takes the rest of the pattern and returns what it read with the rest after it.
-/

namespace SchemaVault.Pattern

/-- The flags that a pattern can switch. -/
structure Flags where
  /-- ASCII letters match in either case. -/
  ignoreCase : Bool
  /-- The anchors match at lines. -/
  multiLine : Bool
  /-- The dot matches line ends too. -/
  dotAll : Bool
  /-- Repetitions prefer few turns; which matches exist does not depend on it. -/
  swapGreed : Bool
  /-- A carriage return ends a line too. -/
  carriageReturn : Bool
  /-- Blanks and comments are skipped. -/
  spaced : Bool
  deriving DecidableEq

/-- The flags at the start of a pattern. -/
def Flags.initial : Flags := ⟨false, false, false, false, false, false⟩

/-! ## Spacing -/

/-- Drops blanks and comments, beginning inside a comment or not. -/
def dropSpacing (inComment : Bool) : List Char → List Char
  | [] => []
  | c :: cs =>
    if inComment then dropSpacing (c != '\n') cs
    else if Text.isBlank c then dropSpacing false cs
    else if c = '#' then dropSpacing true cs
    else c :: cs

/-- Drops blanks and comments if the flags say that they mean nothing. -/
def Flags.skip (f : Flags) (cs : List Char) : List Char :=
  if f.spaced then dropSpacing false cs else cs

/-- The character that decides whether a dash begins a range: the next one, or with `spaced` the
next that is neither blank nor the sign of a comment. -/
def Flags.peek? (f : Flags) (cs : List Char) : Option Char :=
  if f.spaced then
    match cs.dropWhile Text.isBlank with
    | '#' :: rest => ((rest.dropWhile Text.isBlank).head?).or cs.head?
    | c :: _ => some c
    | [] => cs.head?
  else cs.head?

/-! ## Literal characters, dots and anchors -/

/-- A literal character under the flags. -/
def Flags.literal (f : Flags) (c : Char) : Expr :=
  if f.ignoreCase then
    match (CharRange.single c).otherCase? with
    | some other => .oneOf (.ofRanges [.single c, other])
    | none => .char c
  else .char c

/-- The dot under the flags. -/
def Flags.dot (f : Flags) : Expr :=
  .oneOf <|
    if f.dotAll then [⟨0, 0x10FFFF⟩]
    else if f.carriageReturn then [⟨0, 0x9⟩, ⟨0xB, 0xC⟩, ⟨0xE, 0x10FFFF⟩]
    else [⟨0, 0x9⟩, ⟨0xB, 0x10FFFF⟩]

/-- The anchor at the front under the flags. -/
def Flags.caret (f : Flags) : Expr :=
  .assertion <|
    if f.multiLine then if f.carriageReturn then .returnLineStart else .lineStart else .start

/-- The anchor at the end under the flags. -/
def Flags.dollar (f : Flags) : Expr :=
  .assertion <|
    if f.multiLine then if f.carriageReturn then .returnLineEnd else .lineEnd else .finish

/-! ## Hexadecimal escapes -/

/-- The character with the given number, unless it is a surrogate or beyond the last one. -/
def scalar? (n : Nat) : Option Char := if n.isValidChar then some (Char.ofNat n) else none

/-- The digits before a closing brace. -/
def bracedDigits (f : Flags) : (fuel : Nat) → List Char → Except Fault (List Char × List Char)
  | 0, _ => .error .bracedHexUnclosed
  | fuel + 1, cs =>
    match cs with
    | [] => .error .bracedHexUnclosed
    | '\x7d' :: rest => .ok ([], f.skip rest)
    | c :: rest =>
      if Text.isHexDigit c then do
        let (ds, rest) ← bracedDigits f fuel (f.skip rest)
        return (c :: ds, rest)
      else .error .bracedHexBadDigit

/-- As many digits as asked for. -/
def fixedDigits (f : Flags) : (count : Nat) → List Char → Except Fault (List Char × List Char)
  | 0, cs => .ok ([], cs)
  | _ + 1, [] => .error .fixedHexTooShort
  | count + 1, c :: rest =>
    if Text.isHexDigit c then do
      let (ds, rest) ← fixedDigits f count (f.skip rest)
      return (c :: ds, rest)
    else .error .fixedHexBadDigit

/-- A character by its number, in braces or in `count` digits. -/
def hexEscape (f : Flags) (count : Nat) (cs : List Char) : Except Fault (Expr × List Char) :=
  match f.skip cs with
  | [] => .error .hexMissing
  | '\x7b' :: rest => do
    let (ds, rest) ← bracedDigits f (rest.length + 1) (f.skip rest)
    if ds.isEmpty then throw .bracedHexEmpty
    match scalar? (Text.hexNumber ds) with
    | some c => return (f.literal c, rest)
    | none => throw .bracedHexInvalid
  | rest => do
    let (ds, rest) ← fixedDigits f count rest
    match scalar? (Text.hexNumber ds) with
    | some c => return (f.literal c, rest)
    | none => throw .fixedHexInvalid

/-! ## Word boundaries with a name -/

/-- Whether the character may stand in the name of a boundary. -/
def isBoundaryChar (c : Char) : Bool :=
  ('A' ≤ c && c ≤ 'Z') || ('a' ≤ c && c ≤ 'z') || c == '-'

/-- The letters of a boundary's name. -/
def boundaryName (f : Flags) : (fuel : Nat) → List Char → List Char × List Char
  | 0, cs => ([], cs)
  | fuel + 1, cs =>
    match cs with
    | [] => ([], [])
    | c :: rest =>
      if isBoundaryChar c then
        let (name, rest) := boundaryName f fuel (f.skip rest)
        (c :: name, rest)
      else ([], c :: rest)

/-- What follows `\b`: a name in braces turns it into another assertion. Braces that hold
anything else are left for a counted repetition. -/
def boundary (f : Flags) (cs : List Char) : Except Fault (Expr × List Char) :=
  match cs with
  | '\x7b' :: rest =>
    match f.skip rest with
    | [] => .error .boundaryOrCountUnfinished
    | c :: inner =>
      if isBoundaryChar c then
        match boundaryName f (inner.length + 1) (c :: inner) with
        | (name, '\x7d' :: rest) =>
          match String.ofList name with
          | "start" => .ok (.assertion .wordStart, rest)
          | "end" => .ok (.assertion .wordEnd, rest)
          | "start-half" => .ok (.assertion .wordStartHalf, rest)
          | "end-half" => .ok (.assertion .wordEndHalf, rest)
          | _ => .error .boundaryUnknown
        | _ => .error .boundaryUnclosed
      else .ok (.assertion .wordBoundary, cs)
  | _ => .ok (.assertion .wordBoundary, cs)

/-! ## Escapes -/

/-- Whether a backslash before the character only takes its meaning away. -/
def isEscapable (c : Char) : Bool :=
  c.toNat < 0x80 && !c.isAlphanum && c != '<' && c != '>'

/-- A class with a letter of its own. -/
def letterClass (cls : CharClass) (complemented : Bool) : Expr :=
  .oneOf (if complemented then cls.complement else cls)

/-- The escape sequence whose backslash has just been read. -/
def escape (f : Flags) : List Char → Except Fault (Expr × List Char)
  | [] => .error .escapeUnfinished
  | c :: rest =>
    if c.isDigit then .error .backreference
    else if isEscapable c then .ok (f.literal c, rest)
    else match c with
      | 'p' | 'P' => .error .unicodeClass
      | 'x' => hexEscape f 2 rest
      | 'u' => hexEscape f 4 rest
      | 'U' => hexEscape f 8 rest
      | 'd' => .ok (letterClass CharClass.digits false, rest)
      | 'D' => .ok (letterClass CharClass.digits true, rest)
      | 's' => .ok (letterClass CharClass.space false, rest)
      | 'S' => .ok (letterClass CharClass.space true, rest)
      | 'w' => .ok (letterClass CharClass.word false, rest)
      | 'W' => .ok (letterClass CharClass.word true, rest)
      | 'a' => .ok (f.literal '\x07', rest)
      | 'f' => .ok (f.literal '\x0c', rest)
      | 't' => .ok (f.literal '\t', rest)
      | 'n' => .ok (f.literal '\n', rest)
      | 'r' => .ok (f.literal '\r', rest)
      | 'v' => .ok (f.literal '\x0b', rest)
      | 'A' => .ok (.assertion .start, rest)
      | 'z' => .ok (.assertion .finish, rest)
      | 'b' => boundary f rest
      | 'B' => .ok (.assertion .noWordBoundary, rest)
      | '<' => .ok (.assertion .wordStart, rest)
      | '>' => .ok (.assertion .wordEnd, rest)
      | _ => .error .escapeUnknown

end SchemaVault.Pattern
