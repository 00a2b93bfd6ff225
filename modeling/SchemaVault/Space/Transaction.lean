import SchemaVault.Space.Basic
import SchemaVault.Space.StorageError

/-!
# Units of work

A unit of work runs against a space and either returns a result with the space it leaves behind,
or fails and leaves nothing behind. `execute` runs one as a transaction: the space changes only
if the work succeeds and the caller has neither run out of time nor called the operation off
before the commit.

Everything in the surroundings that can influence a transaction is in its `Circumstances`: the
clock, the identifier minted if one is needed, and what goes wrong when.
-/

namespace SchemaVault

/-- Where an operation checks whether it may go on. -/
inductive Checkpoint
  /-- Before the transaction begins. -/
  | entry
  /-- Between the statements of the work. -/
  | midway
  /-- After the work, before the commit. -/
  | commit
  deriving DecidableEq

/-- The order in which the checkpoints are passed. -/
def Checkpoint.rank : Checkpoint → Nat
  | entry => 0
  | midway => 1
  | commit => 2

/-- What surrounds a single operation. -/
structure Circumstances where
  /-- The reading of the clock, in milliseconds. -/
  now : Int64
  /-- The identifier that is minted if the operation needs one. -/
  fresh : Identifier
  /-- The first checkpoint that finds the deadline passed or the operation called off. -/
  doneFrom : Option Checkpoint
  /-- Whether another writer holds the space. -/
  locked : Bool
  /-- A fault of the storage that strikes once the work is done. -/
  fault : Option StorageError

/-- Whether the operation is found to be called off or late at a checkpoint. -/
def Circumstances.isDone (c : Circumstances) (p : Checkpoint) : Bool :=
  c.doneFrom.any fun first => first.rank ≤ p.rank

/-- Goes on unless the operation has been called off or is late. -/
def Circumstances.check (c : Circumstances) (p : Checkpoint) : Except StorageError Unit :=
  if c.isDone p then .error .cancelled else .ok ()

/-- Whether a unit of work writes. -/
inductive Access
  | read
  | write
  deriving DecidableEq

/-- A unit of work with a result. -/
abbrev Work (α : Type) := Space → Except StorageError (α × Space)

namespace Transaction

/-- Begins a transaction. A writer needs the space for itself, a reader does not. -/
def enter (c : Circumstances) (a : Access) : Except StorageError Unit := do
  c.check .entry
  if a = .write ∧ c.locked then throw (.refused StorageError.busyCode (some "database is locked"))

/-- Ends a transaction whose work has come out as given. -/
def settle {α : Type} (c : Circumstances) (outcome : Except StorageError (α × Space))
    (before : Space) : Except StorageError α × Space :=
  match outcome with
  | .error e => (.error e, before)
  | .ok (result, after) =>
    match c.fault with
    | some e => (.error e, before)
    | none => if c.isDone .commit then (.error .cancelled, before) else (.ok result, after)

/-- Runs a unit of work as a transaction. -/
def execute {α : Type} (c : Circumstances) (a : Access) (work : Work α) (s : Space) :
    Except StorageError α × Space :=
  match enter c a with
  | .error e => (.error e, s)
  | .ok () => settle c (work s) s

/-- Runs as a transaction a unit of work that also changes something outside the space, which it
keeps even if the transaction does not go through. -/
def executeKeeping {α κ : Type} (c : Circumstances) (a : Access)
    (work : Space → κ → Except StorageError (α × Space) × κ) (s : Space) (kept : κ) :
    Except StorageError α × Space × κ :=
  match enter c a with
  | .error e => (.error e, s, kept)
  | .ok () =>
    let (outcome, kept) := work s kept
    let (result, after) := settle c outcome s
    (result, after, kept)

/-- A unit of work that only reads. -/
def reading {α : Type} (q : Space → Except StorageError α) : Work α := fun s =>
  (q s).map fun a => (a, s)

/-- Runs a unit of work that only reads, and so leaves the space alone. -/
def query {α : Type} (c : Circumstances) (q : Space → Except StorageError α) (s : Space) :
    Except StorageError α :=
  (execute c .read (reading q) s).1

end Transaction

end SchemaVault
