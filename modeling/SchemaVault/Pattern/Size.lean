import SchemaVault.Pattern.Expr

/-!
# The size of a pattern

A pattern stands for an automaton with a table of its groups, and one that would take more than ten
mebibytes is refused. The automaton is not built for that: its size follows from the expression, a
counted repetition multiplying what it repeats. The table has one entry for each group up to the
last one in use, and one for the whole, however often a group is repeated.
-/

namespace SchemaVault.Pattern

/-- What an automaton takes: its states, the ways out of branching states, and the character ranges
on its arcs. -/
structure Size where
  states : Nat
  branches : Nat
  ranges : Nat

namespace Size

/-- Plain states. -/
def ofStates (n : Nat) : Size := ⟨n, 0, 0⟩

/-- A state that branches `ways` ways. -/
def fork (ways : Nat) : Size := ⟨1, ways, 0⟩

instance : Add Size where
  add a b := ⟨a.states + b.states, a.branches + b.branches, a.ranges + b.ranges⟩

/-- The part repeated `n` times. -/
def times (n : Nat) (s : Size) : Size := ⟨n * s.states, n * s.branches, n * s.ranges⟩

/-- The bytes that the automaton takes. -/
def bytes (s : Size) : Nat := 32 * s.states + 4 * s.branches + 8 * s.ranges

/-- Ten mebibytes. -/
def limit : Nat := 10 * 0x100000

end Size

namespace Expr

mutual

/-- The size of the automaton of an expression. -/
def size : Expr → Size
  | empty => .ofStates 1
  | char _ => .ofStates 1
  | oneOf cls => ⟨1, 0, cls.length⟩
  | assertion _ => .ofStates 1
  | repeated sub least most =>
    let s := size sub
    match least, most with
    | 0, some 1 => s + .fork 2 + .ofStates 1
    | 0, none => if matchesEmpty sub then s + .fork 2 + .fork 2 + .ofStates 1 else s + .fork 2
    | least, none => .times least s + .fork 2
    | least, some most =>
      let front := if least = 0 then .ofStates 1 else .times least s
      if least = most then front
      else front + .times (most - least) (s + .fork 2) + .ofStates 1
  | group _ _ sub => size sub + .ofStates 2
  | seq parts => sizeOfAll parts
  | choice parts => sizeOfAll parts + .fork parts.length + .ofStates 1

/-- The sizes of the parts together. -/
def sizeOfAll : List Expr → Size
  | [] => .ofStates 0
  | e :: es => size e + sizeOfAll es

end

mutual

/-- The greatest number of a group, 0 if there is none. -/
def lastGroup : Expr → Nat
  | repeated sub _ _ => lastGroup sub
  | group number _ sub => max number (lastGroup sub)
  | seq parts => lastGroupOfAll parts
  | choice parts => lastGroupOfAll parts
  | _ => 0

/-- The greatest number of a group in the parts. -/
def lastGroupOfAll : List Expr → Nat
  | [] => 0
  | e :: es => max (lastGroup e) (lastGroupOfAll es)

end

mutual

/-- The bytes that the names of the groups take. -/
def nameBytes : Expr → Nat
  | repeated sub _ _ => nameBytes sub
  | group _ name sub => (name.map (·.utf8ByteSize + 4)).getD 0 + nameBytes sub
  | seq parts => nameBytesOfAll parts
  | choice parts => nameBytesOfAll parts
  | _ => 0

/-- The bytes that the names of the groups in the parts take. -/
def nameBytesOfAll : List Expr → Nat
  | [] => 0
  | e :: es => nameBytes e + nameBytesOfAll es

end

/-- The bytes that the table of groups takes. -/
def tableBytes (e : Expr) : Nat := 16 * (e.lastGroup + 1) + e.nameBytes

/-- Whether the pattern stays within the limit. The whole counts as a group, and one state ends a
match. -/
def fits (e : Expr) : Bool := (size e + .ofStates 3).bytes + e.tableBytes ≤ Size.limit

end Expr

end SchemaVault.Pattern
