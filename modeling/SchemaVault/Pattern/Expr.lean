import SchemaVault.Pattern.CharClass

/-!
# Pattern expressions

A pattern as a tree. Which of several ways to match is preferred does not matter to the question
whether a text matches at all, so repetitions carry no preference and groups only their number and
name.
-/

namespace SchemaVault.Pattern

/-- A condition on a place in the text. -/
inductive Assertion
  /-- The start of the text. -/
  | start
  /-- The end of the text. -/
  | finish
  /-- The start of a line. -/
  | lineStart
  /-- The end of a line. -/
  | lineEnd
  /-- The start of a line, where a carriage return ends a line too. -/
  | returnLineStart
  /-- The end of a line, where a carriage return ends a line too. -/
  | returnLineEnd
  /-- A word on exactly one side. -/
  | wordBoundary
  /-- A word on both sides or on neither. -/
  | noWordBoundary
  /-- A word after but none before. -/
  | wordStart
  /-- A word before but none after. -/
  | wordEnd
  /-- No word before. -/
  | wordStartHalf
  /-- No word after. -/
  | wordEndHalf
  deriving DecidableEq

/-- A pattern expression. -/
inductive Expr
  /-- Matches the empty text. -/
  | empty
  | char (c : Char)
  | oneOf (cls : CharClass)
  | assertion (a : Assertion)
  /-- At least `least` and, if given, at most `most` times. -/
  | repeated (sub : Expr) (least : Nat) (most : Option Nat)
  /-- A capturing group; the groups of a pattern are numbered from 1. -/
  | group (number : Nat) (name : Option String) (sub : Expr)
  | seq (parts : List Expr)
  | choice (parts : List Expr)

namespace Expr

instance : Inhabited Expr := ⟨empty⟩

/-- The expressions one after the other. -/
def ofSeq : List Expr → Expr
  | [] => empty
  | [e] => e
  | es => seq es

/-- Any one of the expressions. -/
def ofChoice : List Expr → Expr
  | [] => oneOf []
  | [e] => e
  | es => choice es

/-- A repetition, unless it is none. -/
def ofRepetition (sub : Expr) (least : Nat) (most : Option Nat) : Expr :=
  match least, most with
  | 0, some 0 => empty
  | 1, some 1 => sub
  | least, most => repeated sub least most

mutual

/-- How deeply repetitions, groups, sequences and choices are nested. -/
def depth : Expr → Nat
  | repeated sub _ _ => depth sub + 1
  | group _ _ sub => depth sub + 1
  | seq parts => depthOfAll parts + 1
  | choice parts => depthOfAll parts + 1
  | _ => 0

/-- The depth of the deepest part. -/
def depthOfAll : List Expr → Nat
  | [] => 0
  | e :: es => max (depth e) (depthOfAll es)

end

mutual

/-- Whether the expression can match the empty text. -/
def matchesEmpty : Expr → Bool
  | empty => true
  | char _ => false
  | oneOf _ => false
  | assertion _ => true
  | repeated sub least _ => least == 0 || matchesEmpty sub
  | group _ _ sub => matchesEmpty sub
  | seq parts => allMatchEmpty parts
  | choice parts => anyMatchesEmpty parts

/-- Whether all parts can match the empty text. -/
def allMatchEmpty : List Expr → Bool
  | [] => true
  | e :: es => matchesEmpty e && allMatchEmpty es

/-- Whether some part can match the empty text. -/
def anyMatchesEmpty : List Expr → Bool
  | [] => false
  | e :: es => matchesEmpty e || anyMatchesEmpty es

end

end Expr

end SchemaVault.Pattern
