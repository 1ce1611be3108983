import Mathlib.Data.List.Basic

/-! A connection of SQLite: its content, and the transaction that is open with its
savepoints. Proved: `RELEASE` and `ROLLBACK TO` reach the newest savepoint of the name,
past newer ones of other names. -/

namespace StudyDB.Sqlite

variable {δ : Type*}

/-- An open transaction: the content at its start, and the savepoints, the newest first,
with the content at each. The flag says that a savepoint opened it. -/
structure Transaction (δ : Type*) where
  start : δ
  savepoints : List (String × δ)
  isTransactionSavepoint : Bool

/-- Without a transaction the connection is in autocommit mode. -/
structure Connection (δ : Type*) where
  content : δ
  transaction : Option (Transaction δ)

/-- Any statement that does not concern transactions is what it makes of the content,
or an error. -/
inductive Statement (δ : Type*) where
  | begin
  | commit
  | rollback
  | savepoint (name : String)
  | release (name : String)
  | rollbackTo (name : String)
  | other (effect : δ → Option δ)

/-- The savepoints from the newest one of the name on. Names are compared without regard
to case. -/
def fromSavepoint (name : String) (savepoints : List (String × δ)) : List (String × δ) :=
  savepoints.dropWhile fun s => s.1.toLower ≠ name.toLower

/-- The savepoint of the name comes after savepoints of other names. -/
theorem fromSavepoint_append {name : String} {newer : List (String × δ)}
    (h : ∀ s ∈ newer, s.1.toLower ≠ name.toLower) (d : δ) (older : List (String × δ)) :
    fromSavepoint name (newer ++ (name, d) :: older) = (name, d) :: older := by
  rw [fromSavepoint, List.dropWhile_append_of_pos fun s hs => decide_eq_true (h s hs)]
  simp

namespace Connection

def isInTransaction (c : Connection δ) : Bool := c.transaction.isSome

/-- What is there after a crash of the process; a power failure may lose the last commits. -/
def durable (c : Connection δ) : δ :=
  match c.transaction with
  | none => c.content
  | some t => t.start

/-- What a statement makes of the connection; an error leaves it. -/
def run : Statement δ → Connection δ → Option (Connection δ)
  | .begin, c =>
    match c.transaction with
    | none => some { c with transaction := some ⟨c.content, [], false⟩ }
    | some _ => none
  | .commit, c => c.transaction.map fun _ => { c with transaction := none }
  | .rollback, c => c.transaction.map fun t => ⟨t.start, none⟩
  | .savepoint name, c =>
    match c.transaction with
    | none => some { c with transaction := some ⟨c.content, [(name, c.content)], true⟩ }
    | some t => some { c with transaction := some { t with savepoints := (name, c.content) :: t.savepoints } }
  | .release name, c =>
    match c.transaction with
    | none => none
    | some t =>
      match fromSavepoint name t.savepoints with
      | [] => none
      | _ :: older =>
        -- the savepoint that opened the transaction commits it
        if older = [] ∧ t.isTransactionSavepoint then some { c with transaction := none }
        else some { c with transaction := some { t with savepoints := older } }
  | .rollbackTo name, c =>
    match c.transaction with
    | none => none
    | some t =>
      match fromSavepoint name t.savepoints with
      | [] => none
      | (_, d) :: older => some ⟨d, some { t with savepoints := (name, d) :: older }⟩
  | .other effect, c => (effect c.content).map fun d => { c with content := d }

/-- What an error may do besides: end the transaction with everything undone. -/
def abandon (c : Connection δ) : Connection δ :=
  match c.transaction with
  | none => c
  | some t => ⟨t.start, none⟩

end Connection

end StudyDB.Sqlite
