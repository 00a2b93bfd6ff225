import SchemaVault.Number.Literal
import SchemaVault.Text.Quoted
import SchemaVault.Text.Split

/-!
# Versions

A version is a triple of numbers of 64 bits, ordered by major, then minor, then patch number, and
written with points between them. Reading accepts leading zeros and drops them, so each version
has one text.
-/

namespace SchemaVault

/-- A version `major.minor.patch`. -/
structure Version where
  major : UInt64
  minor : UInt64
  patch : UInt64
  deriving DecidableEq, Inhabited

/-- Why there is no such version. -/
inductive VersionError
  /-- The text is not three runs of digits with points between them. -/
  | malformed (text : String)
  /-- A number does not fit 64 bits. -/
  | overflow (text : String)
  deriving DecidableEq

/-- The wording of an error. -/
def VersionError.message : VersionError → String
  | malformed text => "invalid version " ++ Text.quoted text ++ ": expected MAJOR.MINOR.PATCH"
  | overflow text => "version component overflow in " ++ Text.quoted text

namespace Version

/-- The first version of a schema, unless another is asked for. -/
def first : Version := ⟨1, 0, 0⟩

/-- The text of a version. -/
def text (v : Version) : String :=
  toString v.major.toNat ++ "." ++ toString v.minor.toNat ++ "." ++ toString v.patch.toNat

/-! ## Order -/

/-- Major before minor before patch number. -/
def compare (a b : Version) : Ordering :=
  (Ord.compare a.major b.major).then
    ((Ord.compare a.minor b.minor).then (Ord.compare a.patch b.patch))

instance : Ord Version := ⟨compare⟩

instance : LT Version := ⟨fun a b => compare a b = .lt⟩

instance (a b : Version) : Decidable (a < b) := inferInstanceAs (Decidable (compare a b = .lt))

/-- The greater of two versions. -/
def greater (a b : Version) : Version := if a < b then b else a

/-- The greatest of some versions. -/
def greatest? : List Version → Option Version
  | [] => none
  | v :: vs => some (vs.foldl greater v)

/-! ## Reading -/

/-- One number of a version. -/
def component (whole : String) (digits : List Char) : Except VersionError UInt64 :=
  if digits.isEmpty || !digits.all Char.isDigit then .error (.malformed whole)
  else
    let n := Literal.digitsValue digits
    if n < UInt64.size then .ok (UInt64.ofNat n) else .error (.overflow whole)

/-- The version that a text writes. The numbers are read from left to right, and the first that
is wrong decides the error. -/
def read (s : String) : Except VersionError Version :=
  match Text.pieces '.' s.toList with
  | [a, b, c] => do
    let major ← component s a
    let minor ← component s b
    let patch ← component s c
    return ⟨major, minor, patch⟩
  | _ => .error (.malformed s)

/-! ## Succession -/

/-- The version with the next patch number. -/
def nextPatch (v : Version) : Except VersionError Version :=
  if v.patch.toNat + 1 < UInt64.size then .ok { v with patch := v.patch + 1 }
  else .error (.overflow v.text)

/-- The version after all the given ones: the first version if there are none, otherwise the
patch after the greatest. -/
def next (existing : List Version) : Except VersionError Version :=
  match greatest? existing with
  | some v => v.nextPatch
  | none => .ok first

end Version

end SchemaVault
