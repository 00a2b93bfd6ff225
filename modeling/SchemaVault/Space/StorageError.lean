import SchemaVault.Failure
import SchemaVault.Text.Blank
import SchemaVault.Text.Split

/-!
# Failures of the storage

What can go wrong while a unit of work runs against a space, how a failed statement tells which
constraint it violates, and how all of it turns into what the caller is told.
-/

namespace SchemaVault

/-- Why a unit of work did not go through. -/
inductive StorageError
  /-- The database refused a statement, with its extended result code and its message. -/
  | refused (code : Int) (text : Option String)
  /-- A stored value does not convert to what is read from it, a value cannot be stored, or there
  is no row where one must be. -/
  | unconvertible
  /-- A document could not be written as text. -/
  | serialization
  | migration (text : String)
  /-- A stored row does not make sense. -/
  | invalidData (text : String)
  /-- The connection was left in an unknown state. -/
  | poisoned
  | cancelled
  /-- The unit of work itself failed. -/
  | failed (failure : Failure)
  deriving DecidableEq

/-- The constraint that a failed statement violates. -/
inductive Constraint
  | unique (columns : List String)
  | primaryKey (columns : List String)
  | foreignKey
  /-- Another writer held the space for too long. -/
  | busy
  deriving DecidableEq

namespace StorageError

/-! ## Result codes -/

/-- The primary result codes of a busy and of a locked database. -/
def busyCode : Int := 5

@[inherit_doc busyCode]
def lockedCode : Int := 6

/-- The result code of a statement that fails for a reason without a code of its own. -/
def errorCode : Int := 1

/-- The primary result code of a violated constraint. -/
def constraintCode : Int := 19

/-- The extended result codes of the constraints. -/
def foreignKeyCode : Int := 787

@[inherit_doc foreignKeyCode]
def primaryKeyCode : Int := 1555

@[inherit_doc foreignKeyCode]
def uniqueCode : Int := 2067

/-- The primary result code, the low byte of the extended one. -/
def primaryCode (code : Int) : Int := code % 256

/-- The refusal of a statement that meets a text which is no document. -/
def malformedDocument : StorageError := refused errorCode (some "malformed JSON")

/-! ## Constraints -/

/-- What stands after the first occurrence of `lead`. -/
def afterFirst? (lead : List Char) : List Char → Option (List Char)
  | [] => Text.afterLead? lead []
  | c :: cs => (Text.afterLead? lead (c :: cs)).or (afterFirst? lead cs)

/-- The name after the last point, or the whole name. -/
def unqualified (name : List Char) : List Char :=
  match Text.cutLast '.' name with
  | some (_, column) => column
  | none => name

/-- The columns that a message such as `UNIQUE constraint failed: t.a, t.b` names. -/
def failedColumns (message : String) : List String :=
  match afterFirst? [':', ' '] message.toList with
  | none => []
  | some columns =>
    (Text.pieces ',' columns).map fun name => String.ofList (unqualified (Text.trimChars name))

/-- The constraint behind a failure, if it is one. -/
def constraint? : StorageError → Option Constraint
  | refused code text =>
    let primary := primaryCode code
    if primary = busyCode ∨ primary = lockedCode then some .busy
    else if primary = constraintCode then
      let columns := failedColumns (text.getD "")
      if code = uniqueCode then some (.unique columns)
      else if code = primaryKeyCode then some (.primaryKey columns)
      else if code = foreignKeyCode then some .foreignKey
      else none
    else none
  | _ => none

/-! ## What the caller is told -/

/-- The failure of an operation whose work did not go through. Failures of the work itself and
cancellation pass unchanged, a busy space is a conflict, and the rest stays opaque. -/
def toFailure (e : StorageError) (operation : String) : Failure :=
  match e with
  | failed failure => failure
  | cancelled => .cancelled
  | e =>
    if e.constraint? = some .busy then
      .conflict (operation ++ ": concurrent writer holds the space, retry")
    else .internal (operation ++ " failed")

/-- The wording of the failures that have one of their own. -/
def message? : StorageError → Option String
  | migration text => some ("migration error: " ++ text)
  | invalidData text => some ("invalid data: " ++ text)
  | poisoned => some "connection lock poisoned"
  | cancelled => some "operation cancelled"
  | failed failure => some failure.message
  | refused _ _ | unconvertible | serialization => none

end StorageError

end SchemaVault
