import SchemaVault.Pattern.Brackets
import SchemaVault.Text.Letters
import SchemaVault.Text.Split

/-!
# Reading patterns

A pattern is read from left to right with a stack of the groups that are still open. Each step
reads one item: an opening or closing bracket of a group, a bar, a repetition, or a primitive
expression. `Expr.read` refuses a text that is no pattern and says why; of several faults the
leftmost counts.
-/

namespace SchemaVault.Pattern

/-- How deeply groups, and the expression as a whole, may be nested. -/
def depthLimit : Nat := 50

/-- What has been read on one level: the finished alternatives and the items of the one in
progress, the latest first. -/
structure Level where
  choices : List Expr
  items : List Expr

namespace Level

/-- A level on which nothing has been read. -/
def initial : Level := ⟨[], []⟩

/-- One more item. -/
def push (l : Level) (e : Expr) : Level := { l with items := e :: l.items }

/-- The items in progress as one expression. -/
def current (l : Level) : Expr := Expr.ofSeq l.items.reverse

/-- Begins the next alternative. -/
def bar (l : Level) : Level := ⟨l.current :: l.choices, []⟩

/-- The expression of the whole level. -/
def close (l : Level) : Expr := Expr.ofChoice (l.current :: l.choices).reverse

end Level

/-- An open group: the level and the flags that it interrupts, and what to make of it. -/
structure OpenGroup where
  level : Level
  flags : Flags
  /-- The number and name of a capturing group, or nothing if it does not capture. -/
  capture : Option (Nat × Option String)

/-- What has been read of a pattern. -/
structure State where
  flags : Flags
  level : Level
  outer : List OpenGroup
  names : List String
  groups : Nat

namespace State

/-- Nothing read yet. -/
def initial : State := ⟨.initial, .initial, [], [], 0⟩

/-- One more item on the level in progress. -/
def push (s : State) (e : Expr) : State := { s with level := s.level.push e }

/-! ## Groups -/

/-- Enters a group. -/
def enter (s : State) (inner : Flags) (capture : Option (Nat × Option String)) :
    Except Fault State :=
  if depthLimit < s.outer.length + 1 then .error .tooDeep
  else .ok { s with
    flags := inner
    level := .initial
    outer := ⟨s.level, s.flags, capture⟩ :: s.outer }

/-- Numbers one more capturing group. -/
def countGroup (s : State) : Except Fault State :=
  if s.groups + 1 < UInt32.size then .ok { s with groups := s.groups + 1 }
  else .error .tooManyGroups

/-- Leaves the innermost group. -/
def leave (s : State) : Except Fault State :=
  match s.outer with
  | [] => .error .groupUnopened
  | g :: outer =>
    let sub := s.level.close
    let e := match g.capture with
      | some (number, name) => .group number name sub
      | none => sub
    .ok { s with flags := g.flags, level := g.level.push e, outer := outer }

/-- Whether the character may stand in the name of a group. -/
def isNameChar (first : Bool) (c : Char) : Bool :=
  if first then c == '_' || Text.isAlphabetic c
  else c == '_' || c == '.' || c == '[' || c == ']' || Text.isAlphabetic c || Text.isNumeric c

/-- The name of a group up to its closing bracket. -/
def groupName (first : Bool) : List Char → Except Fault (List Char × List Char)
  | [] => .error (if first then .groupNameMissing else .groupNameUnclosed)
  | '>' :: rest => .ok ([], rest)
  | c :: rest =>
    if isNameChar first c then do
      let (name, rest) ← groupName false rest
      return (c :: name, rest)
    else .error .groupNameInvalid

/-- A capturing group with a name, which begins at `cs`. -/
def named (s : State) (cs : List Char) : Except Fault (State × List Char) := do
  let s ← s.countGroup
  let (name, rest) ← groupName true cs
  if name.isEmpty then throw .groupNameEmpty
  let name := String.ofList name
  if s.names.contains name then throw .duplicateGroupName
  let s ← { s with names := name :: s.names }.enter s.flags (some (s.groups, some name))
  return (s, rest)

/-! ## Flags -/

/-- Switches one flag. The flag `u` is accepted and changes nothing. -/
def switch (f : Flags) (c : Char) (on : Bool) : Except Fault Flags :=
  match c with
  | 'i' => .ok { f with ignoreCase := on }
  | 'm' => .ok { f with multiLine := on }
  | 's' => .ok { f with dotAll := on }
  | 'U' => .ok { f with swapGreed := on }
  | 'R' => .ok { f with carriageReturn := on }
  | 'x' => .ok { f with spaced := on }
  | 'u' => .ok f
  | _ => .error .flagUnknown

/-- Reads flags up to a colon or a closing bracket, which stays in front of the rest. -/
def switches (f : Flags) (negated afterMinus : Bool) (seen : List Char) :
    List Char → Except Fault (Flags × List Char)
  | [] => .error .flagsUnclosed
  | c :: rest =>
    if c == ':' || c == ')' then
      if afterMinus then .error .flagsEndNegated else .ok (f, c :: rest)
    else if c == '-' then
      if negated then .error .flagsNegatedTwice
      else switches f true true seen rest
    else do
      let f ← switch f c !negated
      if seen.contains c then throw .flagRepeated
      switches f negated false (c :: seen) rest

/-- A group with flags, or flags for the rest of the level; begins after the question mark. -/
def flagged (s : State) (cs : List Char) : Except Fault (State × List Char) := do
  if cs.isEmpty then throw .groupEndsAfterQuestionMark
  let (f, rest) ← switches s.flags false false [] cs
  match rest with
  | ')' :: after =>
    if rest.length = cs.length then throw .noFlags
    return ({ s with flags := f }, after)
  | _ => return (← s.enter f none, rest.drop 1)

/-- A group whose opening bracket has just been read. -/
def openGroup (s : State) (cs : List Char) : Except Fault (State × List Char) :=
  match s.flags.skip cs with
  | '?' :: '=' :: _ | '?' :: '!' :: _ | '?' :: '<' :: '=' :: _ | '?' :: '<' :: '!' :: _ =>
    .error .lookAround
  | '?' :: 'P' :: '<' :: rest => s.named rest
  | '?' :: '<' :: rest => s.named rest
  | '?' :: rest => s.flagged rest
  | rest => do
    let s ← s.countGroup
    return (← s.enter s.flags (some (s.groups, none)), rest)

/-! ## Repetitions -/

/-- Replaces the latest item by its repetition. -/
def repeatLast (s : State) (none : Fault) (least : Nat) (most : Option Nat) :
    Except Fault State :=
  match s.level.items with
  | [] => .error none
  | e :: items =>
    .ok { s with level := { s.level with items := Expr.ofRepetition e least most :: items } }

/-- Skips the question mark that makes a repetition lazy. -/
def skipLazy : List Char → List Char
  | '?' :: rest => rest
  | cs => cs

/-- The digits of a count. -/
def countDigits (f : Flags) : (fuel : Nat) → List Char → List Char × List Char
  | 0, cs => ([], cs)
  | fuel + 1, cs =>
    match cs with
    | [] => ([], [])
    | c :: rest =>
      if c.isDigit then
        let (ds, rest) := countDigits f fuel (f.skip rest)
        (c :: ds, rest)
      else ([], c :: rest)

/-- A count below `2 ^ 32`, with blanks around it. -/
def count (f : Flags) (cs : List Char) : Except Fault (Nat × List Char) :=
  let (digits, rest) := countDigits f cs.length (cs.dropWhile Text.isBlank)
  let rest := f.skip (rest.dropWhile Text.isBlank)
  if digits.isEmpty then .error .decimalMissing
  else
    let n := Literal.digitsValue digits
    if n < UInt32.size then .ok (n, rest) else .error .decimalTooLarge

/-- A counted repetition whose opening brace has just been read. -/
def counted (s : State) (cs : List Char) : Except Fault (State × List Char) := do
  if s.level.items.isEmpty then throw .nothingToCount
  let f := s.flags
  let cs := f.skip cs
  if cs.isEmpty then throw .countUnclosed
  let (least, cs) ← count f cs
  let (most, cs) ← match cs with
    | [] => throw .countEndsAfterLeast
    | ',' :: rest =>
      match f.skip rest with
      | [] => throw .countEndsAfterComma
      | '\x7d' :: rest => pure (none, '\x7d' :: rest)
      | rest => do
        let (most, rest) ← count f rest
        if rest.isEmpty then throw .countEndsAfterMost
        pure (some most, rest)
    | cs => pure (some least, cs)
  match cs with
  | '\x7d' :: rest =>
    if most.any (· < least) then throw .countReversed
    return (← s.repeatLast .nothingToCount least most, skipLazy (f.skip rest))
  | _ => throw .countMalformed

/-! ## Steps -/

/-- Reads the item that begins with `c`. -/
def step (s : State) (c : Char) (rest : List Char) : Except Fault (State × List Char) :=
  match c with
  | '(' => s.openGroup rest
  | ')' => do return (← s.leave, rest)
  | '|' => .ok ({ s with level := s.level.bar }, rest)
  | '[' => do
    let (e, rest) ← brackets s.flags rest
    return (s.push e, rest)
  | '?' => do return (← s.repeatLast .nothingToRepeat 0 (some 1), skipLazy rest)
  | '*' => do return (← s.repeatLast .nothingToRepeat 0 none, skipLazy rest)
  | '+' => do return (← s.repeatLast .nothingToRepeat 1 none, skipLazy rest)
  | '\x7b' => s.counted rest
  | '\\' => do
    let (e, rest) ← escape s.flags rest
    return (s.push e, rest)
  | '.' => .ok (s.push s.flags.dot, rest)
  | '^' => .ok (s.push s.flags.caret, rest)
  | '$' => .ok (s.push s.flags.dollar, rest)
  | c => .ok (s.push (s.flags.literal c), rest)

/-- Reads items to the end of the pattern, at most `fuel` of them. -/
def run : (fuel : Nat) → State → List Char → Except Fault State
  | 0, s, _ => .ok s
  | fuel + 1, s, cs =>
    match s.flags.skip cs with
    | [] => .ok s
    | c :: rest => do
      let (s, rest) ← s.step c rest
      run fuel s rest

end State

/-- The expression that a text writes; each item takes a character at least. -/
def Expr.read (pattern : List Char) : Except Fault Expr := do
  let s ← State.initial.run (pattern.length + 1) pattern
  if !s.outer.isEmpty then throw .groupUnclosed
  let e := s.level.close
  if depthLimit < e.depth then throw .tooDeep
  return e

end SchemaVault.Pattern
