import SchemaVault.Space.Transaction

/-!
# Categories

The categories that schemas refer to are kept up from outside, in transactions of their own. A
category is inserted or renamed, which also revives a deleted one, and deleted by a mark.
-/

namespace SchemaVault

namespace Space

/-- Whether the category is stored and not deleted. -/
def categoryIsLive (s : Space) (id : String) : Bool :=
  s.categories.any fun c => c.id == id && !c.deleted

/-- Inserts a category, or renames and revives it. -/
def upsertCategory (s : Space) (id name : String) : Space :=
  if s.categories.any (·.id == id) then
    { s with categories := s.categories.map fun c => if c.id = id then ⟨id, name, false⟩ else c }
  else { s with categories := s.categories ++ [⟨id, name, false⟩] }

/-- Marks a category as deleted. -/
def deleteCategory (s : Space) (id : String) : Space :=
  { s with
    categories := s.categories.map fun c => if c.id = id then { c with deleted := true } else c }

end Space

/-- A step of a transaction on categories. -/
inductive CategoryStep
  | upsert (id name : String)
  /-- Deletes, and shows whether the category was live. -/
  | delete (id : String)
  /-- Shows whether the category is live. -/
  | isLive (id : String)
  /-- Calls the transaction off; it is shown as done. -/
  | cancel
  /-- Ends the transaction if it has been called off or is late. -/
  | check
  /-- Ends the transaction with a failure. -/
  | fail (e : StorageError)

/-- What a transaction on categories shows and how it ends. -/
structure CategoryRun where
  /-- What each step has shown, up to the end: a truth value or nothing. -/
  seen : List (Option Bool)
  /-- The space that is left behind, and whether the transaction has been called off. -/
  outcome : Except StorageError (Space × Bool)

namespace CategoryRun

/-- A step that has shown something, before the rest. -/
def showing (shown : Option Bool) (rest : CategoryRun) : CategoryRun :=
  { rest with seen := shown :: rest.seen }

/-- Runs the steps. -/
def ofSteps (c : Circumstances) (cancelled : Bool) (s : Space) : List CategoryStep → CategoryRun
  | [] => ⟨[], .ok (s, cancelled)⟩
  | .upsert id name :: rest => (ofSteps c cancelled (s.upsertCategory id name) rest).showing none
  | .delete id :: rest =>
    (ofSteps c cancelled (s.deleteCategory id) rest).showing (some (s.categoryIsLive id))
  | .isLive id :: rest => (ofSteps c cancelled s rest).showing (some (s.categoryIsLive id))
  | .cancel :: rest => (ofSteps c true s rest).showing (some true)
  | .check :: rest =>
    if cancelled || c.isDone .midway then ⟨[], .error .cancelled⟩
    else (ofSteps c cancelled s rest).showing none
  | .fail e :: _ => ⟨[], .error e⟩

/-- Runs the steps as one transaction: what they have shown, the end, and the space afterwards. -/
def execute (c : Circumstances) (steps : List CategoryStep) (s : Space) :
    List (Option Bool) × Except StorageError Unit × Space :=
  match Transaction.enter c .write with
  | .error e => ([], .error e, s)
  | .ok () =>
    let run := ofSteps c false s steps
    match run.outcome with
    | .error e => (run.seen, .error e, s)
    | .ok (after, cancelled) =>
      let c := if cancelled then { c with doneFrom := some .entry } else c
      let (ending, after) := Transaction.settle c (.ok ((), after)) s
      (run.seen, ending, after)

end CategoryRun

end SchemaVault
