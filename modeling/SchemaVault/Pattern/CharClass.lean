/-!
# Classes of characters

The classes that a pattern can name, as ranges of character numbers in ascending order, neither
overlapping nor touching. Case plays a role for the ASCII letters only.
-/

namespace SchemaVault.Pattern

/-- The characters from `first` to `last`, by number. -/
structure CharRange where
  first : Nat
  last : Nat
  deriving DecidableEq

/-- A class of characters. -/
abbrev CharClass := List CharRange

/-- The range of one character. -/
def CharRange.single (c : Char) : CharRange := ⟨c.toNat, c.toNat⟩

/-- The range between two characters. -/
def CharRange.between (a b : Char) : CharRange := ⟨a.toNat, b.toNat⟩

/-- The ASCII letters of the other case, for the lower-case part of a range if it has one, else
for its upper-case part. -/
def CharRange.otherCase? (r : CharRange) : Option CharRange :=
  let first := max r.first 0x61
  let last := min r.last 0x7A
  if first ≤ last then some ⟨first - 32, last - 32⟩
  else
    let first := max r.first 0x41
    let last := min r.last 0x5A
    if first ≤ last then some ⟨first + 32, last + 32⟩ else none

namespace CharClass

/-- Whether the class holds the character. -/
def contains (cls : CharClass) (c : Char) : Bool :=
  cls.any fun r => r.first ≤ c.toNat && c.toNat ≤ r.last

/-- Adds a range that starts no earlier than the ones before it, latest first. -/
def extend (merged : List CharRange) (r : CharRange) : List CharRange :=
  match merged with
  | [] => [r]
  | m :: ms =>
    if r.first ≤ m.last + 1 then ⟨m.first, max m.last r.last⟩ :: ms else r :: m :: ms

/-- The class of all the given ranges. -/
def ofRanges (ranges : List CharRange) : CharClass :=
  let sorted := ranges.mergeSort fun a b =>
    a.first < b.first || (a.first == b.first && a.last ≤ b.last)
  (sorted.foldl extend []).reverse

/-- The number of the next character; the surrogates are none. -/
def following (n : Nat) : Nat := if n = 0xD7FF then 0xE000 else n + 1

/-- The number of the character before; the surrogates are none. -/
def preceding (n : Nat) : Nat := if n = 0xE000 then 0xD7FF else n - 1

/-- The characters between `start` and the end of all characters that are in no range. -/
def gaps (start : Nat) : CharClass → CharClass
  | [] => if start ≤ 0x10FFFF then [⟨start, 0x10FFFF⟩] else []
  | r :: rs =>
    let rest := gaps (following r.last) rs
    if start < r.first then ⟨start, preceding r.first⟩ :: rest else rest

/-- The class of all other characters. -/
def complement (cls : CharClass) : CharClass := gaps 0 cls

/-- The class with the ASCII letters of the other case added. -/
def foldCase (cls : CharClass) : CharClass :=
  ofRanges (cls ++ cls.filterMap CharRange.otherCase?)

/-! ## Named classes -/

/-- The decimal digits. -/
def digits : CharClass := [.between '0' '9']

/-- The blanks of ASCII. -/
def space : CharClass := ofRanges [.between '\t' '\r', .single ' ']

/-- Letters, digits and the underscore. -/
def word : CharClass := ofRanges [.between '0' '9', .between 'A' 'Z', .single '_', .between 'a' 'z']

/-- The classes that may stand by name within brackets. -/
def named? (name : String) : Option CharClass :=
  match name with
  | "alnum" => some (ofRanges [.between '0' '9', .between 'A' 'Z', .between 'a' 'z'])
  | "alpha" => some (ofRanges [.between 'A' 'Z', .between 'a' 'z'])
  | "ascii" => some [⟨0, 0x7F⟩]
  | "blank" => some (ofRanges [.single '\t', .single ' '])
  | "cntrl" => some (ofRanges [⟨0, 0x1F⟩, ⟨0x7F, 0x7F⟩])
  | "digit" => some digits
  | "graph" => some [.between '!' '~']
  | "lower" => some [.between 'a' 'z']
  | "print" => some [.between ' ' '~']
  | "punct" =>
    some (ofRanges [.between '!' '/', .between ':' '@', .between '[' '\x60', .between '\x7b' '~'])
  | "space" => some space
  | "upper" => some [.between 'A' 'Z']
  | "word" => some word
  | "xdigit" => some (ofRanges [.between '0' '9', .between 'A' 'F', .between 'a' 'f'])
  | _ => none

end CharClass

end SchemaVault.Pattern
