import SchemaVault.Pattern.Escape

/-!
# Classes in brackets

The reader of `[...]`. A class lists characters, ranges, escapes and named classes; a caret at
its front takes the complement. Dashes at the front, a bracket right after the front, and a dash
before the closing bracket stand for themselves. With the flag `ignoreCase` the class is
completed by the letters of the other case before the complement is taken.
-/

namespace SchemaVault.Pattern

/-- A named class `[:name:]` or `[:^name:]`, whose first bracket has just been read. -/
def namedClass? : List Char → Option (CharClass × List Char)
  | ':' :: cs =>
    let (complemented, cs) := match cs with
      | '^' :: cs => (true, cs)
      | cs => (false, cs)
    match cs.span (· != ':') with
    | (name, ':' :: ']' :: rest) =>
      (CharClass.named? (String.ofList name)).map fun cls =>
        (if complemented then cls.complement else cls, rest)
    | _ => none
  | _ => none

/-- One character or escape of a class. -/
def classItem (f : Flags) : List Char → Except Fault (Expr × List Char)
  | [] => .error .classUnclosed
  | '\\' :: rest => escape f rest
  | c :: rest => .ok (.char c, rest)

/-- The characters that an item stands for. -/
def itemRanges : Expr → Except Fault (List CharRange)
  | .char c => .ok [.single c]
  | .oneOf cls => .ok cls
  | _ => .error .classItemInvalid

/-- The one character of an end of a range. -/
def rangeEnd : Expr → Except Fault Char
  | .char c => .ok c
  | _ => .error .rangeEndNoCharacter

/-- An item, or a range of which the item is the lower end. -/
def itemOrRange (f : Flags) (cs : List Char) : Except Fault (List CharRange × List Char) := do
  let (item, rest) ← classItem f cs
  match f.skip rest with
  | [] => throw .classEndsAfterItem
  | c :: rest =>
    let next := f.peek? rest
    if c != '-' || next == some ']' || next == some '-' then
      return (← itemRanges item, c :: rest)
    else
      match f.skip rest with
      | [] => throw .classEndsAfterDash
      | rest =>
        let (upper, rest) ← classItem f rest
        let a ← rangeEnd item
        let b ← rangeEnd upper
        if b < a then throw .rangeReversed
        return ([.between a b], rest)

/-- The items up to the closing bracket. -/
def classItems (f : Flags) : (fuel : Nat) → (ranges : List CharRange) → List Char →
    Except Fault (List CharRange × List Char)
  | 0, _, _ => .error .classUnclosed
  | fuel + 1, ranges, cs =>
    match f.skip cs with
    | [] => .error .classUnclosed
    | ']' :: rest => .ok (ranges, rest)
    | '[' :: rest =>
      match namedClass? rest with
      | some (cls, rest) => classItems f fuel (ranges ++ cls) rest
      | none => .error .classNested
    | '&' :: '&' :: _ => .error .classIntersection
    | '-' :: '-' :: _ => .error .classDifference
    | '~' :: '~' :: _ => .error .classSymmetricDifference
    | cs => do
      let (more, rest) ← itemOrRange f cs
      classItems f fuel (ranges ++ more) rest

/-- The dashes at the front of a class. -/
def leadingDashes (f : Flags) : (fuel : Nat) → List Char →
    Except Fault (List CharRange × List Char)
  | 0, cs => .ok ([], cs)
  | fuel + 1, cs =>
    match cs with
    | '-' :: rest =>
      match f.skip rest with
      | [] => .error .classEndsAfterDash
      | rest => do
        let (more, rest) ← leadingDashes f fuel rest
        return (.single '-' :: more, rest)
    | cs => .ok ([], cs)

/-- A closing bracket at the very front of a class, which stands for itself. -/
def leadingBracket (f : Flags) (dashes : List CharRange) (cs : List Char) :
    Except Fault (List CharRange × List Char) :=
  match dashes, cs with
  | [], ']' :: rest =>
    match f.skip rest with
    | [] => .error .classEndsAfterBracket
    | rest => .ok ([.single ']'], rest)
  | dashes, cs => .ok (dashes, cs)

/-- A class whose opening bracket has just been read. -/
def brackets (f : Flags) (cs : List Char) : Except Fault (Expr × List Char) := do
  let (complemented, cs) ← match f.skip cs with
    | [] => throw .classUnclosed
    | '^' :: rest =>
      match f.skip rest with
      | [] => throw .classEndsAfterNegation
      | rest => pure (true, rest)
    | rest => pure (false, rest)
  let (dashes, cs) ← leadingDashes f cs.length cs
  let (front, cs) ← leadingBracket f dashes cs
  let (ranges, rest) ← classItems f (cs.length + 1) front cs
  let cls := CharClass.ofRanges ranges
  let cls := if f.ignoreCase then cls.foldCase else cls
  return (.oneOf (if complemented then cls.complement else cls), rest)

end SchemaVault.Pattern
