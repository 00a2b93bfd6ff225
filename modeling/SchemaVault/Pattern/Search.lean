import SchemaVault.Pattern.Reader
import SchemaVault.Pattern.Size

/-!
# Searching a text

Whether a pattern matches anywhere in a text. The places of a text are the gaps between its
characters, the two ends included, and a set of places is a number whose bits they are. An
expression maps the set of places where it may begin to the set of places where it may then end:
a character moves the places before its occurrences one further, an assertion keeps the places
where it holds, and a repetition is iterated until nothing changes. So the search ends for every
pattern and every text, and takes no account of which match would be preferred.

`Expr.walk` finds, once per text, the places of every character class and assertion; `Walk.ends`
then works on sets of places alone.
-/

namespace SchemaVault.Pattern

/-- A set of places, as the number with those bits. -/
abbrev Places := Nat

/-- An expression laid over a text. -/
inductive Walk
  /-- One place on from each of the given places, nothing from the others. -/
  | forward (before : Places)
  /-- Stays where it is at the given places, nothing from the others. -/
  | stay (holding : Places)
  | repeated (sub : Walk) (least : Nat) (most : Option Nat)
  | seq (parts : List Walk)
  | choice (parts : List Walk)

namespace Walk

/-- Does a step `n` times, or fewer once nothing changes any more. -/
def iterate (step : Places → Places) : (n : Nat) → Places → Places
  | 0, s => s
  | n + 1, s =>
    let next := step s
    if next = s then s else iterate step n next

mutual

/-- The places where a walk may end, from the places where it may begin; a text of `length`
characters bounds how often an open repetition can gain a place. -/
def ends (length : Nat) : Walk → Places → Places
  | forward before, s => (s &&& before) <<< 1
  | stay holding, s => s &&& holding
  | repeated sub least most, s =>
    let front := iterate (ends length sub) least s
    let turns := match most with
      | some most => most - least
      | none => length + 1
    iterate (fun s => s ||| ends length sub s) turns front
  | seq parts, s => endsOfSeq length parts s
  | choice parts, s => endsOfChoice length parts s

/-- The places after all parts in turn. -/
def endsOfSeq (length : Nat) : List Walk → Places → Places
  | [], s => s
  | w :: ws, s => endsOfSeq length ws (ends length w s)

/-- The places after any one of the parts. -/
def endsOfChoice (length : Nat) : List Walk → Places → Places
  | [], _ => 0
  | w :: ws, s => ends length w s ||| endsOfChoice length ws s

end

end Walk

/-! ## Laying an expression over a text -/

/-- The set with a place for each `true`, from place `n` on. -/
def placesOf : List Bool → Places
  | [] => 0
  | b :: bs => (if b then 1 else 0) + 2 * placesOf bs

/-- The places before the characters that satisfy `p`. -/
def placesBefore (p : Char → Bool) (text : List Char) : Places := placesOf (text.map p)

/-- The characters on both sides of every place of a text. -/
def neighbours (before : Option Char) : List Char → List (Option Char × Option Char)
  | [] => [(before, none)]
  | c :: cs => (before, some c) :: neighbours (some c) cs

/-- Whether the character, if there is one, belongs to a word. -/
def isWordSide (c : Option Char) : Bool := c.any CharClass.word.contains

/-- Whether an assertion holds between two characters. -/
def Assertion.holds (a : Assertion) (before after : Option Char) : Bool :=
  match a with
  | start => before.isNone
  | finish => after.isNone
  | lineStart => before.isNone || before == some '\n'
  | lineEnd => after.isNone || after == some '\n'
  | returnLineStart =>
    before.isNone || before == some '\n' || (before == some '\r' && after != some '\n')
  | returnLineEnd =>
    after.isNone || after == some '\r' || (after == some '\n' && before != some '\r')
  | wordBoundary => isWordSide before != isWordSide after
  | noWordBoundary => isWordSide before == isWordSide after
  | wordStart => !isWordSide before && isWordSide after
  | wordEnd => isWordSide before && !isWordSide after
  | wordStartHalf => !isWordSide before
  | wordEndHalf => !isWordSide after

namespace Expr

mutual

/-- The expression laid over a text. -/
def walk (text : List Char) : Expr → Walk
  | empty => .seq []
  | char c => .forward (placesBefore (· == c) text)
  | oneOf cls => .forward (placesBefore cls.contains text)
  | assertion a => .stay (placesOf ((neighbours none text).map fun (b, c) => a.holds b c))
  | repeated sub least most => .repeated (walk text sub) least most
  | group _ _ sub => walk text sub
  | seq parts => .seq (walkAll text parts)
  | choice parts => .choice (walkAll text parts)

/-- The parts laid over a text. -/
def walkAll (text : List Char) : List Expr → List Walk
  | [] => []
  | e :: es => walk text e :: walkAll text es

end

/-- Whether the expression matches somewhere in the text. -/
def matchesIn (e : Expr) (text : List Char) : Bool :=
  (e.walk text).ends text.length (Nat.pow 2 (text.length + 1) - 1) != 0

end Expr

end SchemaVault.Pattern

namespace SchemaVault

/-- A pattern that has been read and is small enough, with the text it was read from. -/
structure Pattern where
  source : String
  expr : Pattern.Expr

namespace Pattern

/-- Reads a pattern. -/
def ofSource (source : String) : Except Fault Pattern := do
  let e ← Expr.read source.toList
  if e.fits then return ⟨source, e⟩ else throw .tooLarge

/-- Whether the pattern matches somewhere in the text. -/
def isFoundIn (p : Pattern) (text : String) : Bool := p.expr.matchesIn text.toList

end Pattern

end SchemaVault
