import StudyDB.Sqlite.Connection
import StudyDB.Data.Decimal

/-! WCDB's handle of a connection: transactions that nest, the inner ones as
savepoints named by their level. A statement may fail for reasons outside the
program. -/

namespace StudyDB.WCDB

open Sqlite (Connection Statement)

/-- What the outside does to a statement: lets it run, makes it fail, or makes it fail
and ends the transaction that is open. -/
inductive Outcome where
  | done | error | abandon
  deriving DecidableEq, Repr

inductive TransactionError where
  | allowed | notAllowed | fatal
  deriving DecidableEq, Repr

/-- An error is fatal to a transaction that does not allow any. -/
def TransactionError.notify : TransactionError → TransactionError
  | allowed => allowed
  | notAllowed | fatal => fatal

/-- A handle, and what the outside will do to its statements and to its ROLLBACKs; past the
end of a list it lets them run. -/
structure Handle (δ : Type*) where
  db : Connection δ
  transactionLevel : ℕ
  transactionError : TransactionError
  outcomes : List Outcome
  rollbackOutcomes : List Outcome

namespace Handle

variable {δ : Type*}

def isInTransaction (h : Handle δ) : Bool := h.db.isInTransaction

def getSavepointName (transactionLevel : ℕ) : String := "wcdb_lv_" ++ toString transactionLevel

/-- A call of SQLite's, to which the outside does this. -/
def under (outcome : Outcome) (run : Connection δ → Option (Connection δ)) (h : Handle δ) : Bool × Handle δ :=
  let failed : Connection δ → Bool × Handle δ := fun db =>
    (false, { h with db := db, transactionError := h.transactionError.notify })
  match outcome with
  | .done =>
    match run h.db with
    | some db => (true, { h with db := db })
    | none => failed h.db
  | .error => failed h.db
  | .abandon => failed h.db.abandon

def attempt (run : Connection δ → Option (Connection δ)) (h : Handle δ) : Bool × Handle δ :=
  under (h.outcomes.headD .done) run { h with outcomes := h.outcomes.tail }

/-- A `ROLLBACK` may fail as well, though nothing interrupts it. -/
def executeStatement (statement : Statement δ) (h : Handle δ) : Bool × Handle δ :=
  match statement with
  | .rollback =>
    under (h.rollbackOutcomes.headD .done) (Connection.run .rollback) { h with rollbackOutcomes := h.rollbackOutcomes.tail }
  | statement => h.attempt (Connection.run statement)

def markErrorNotAllowedWithinTransaction (h : Handle δ) : Handle δ :=
  if h.transactionError = .allowed then { h with transactionError := .notAllowed } else h

def beginTransaction (h : Handle δ) : Bool × Handle δ :=
  let h :=
    if h.isInTransaction then
      if h.transactionLevel = 0 then { h with transactionLevel := 1 } else h
    else { h with transactionLevel := 0 }
  if h.transactionLevel > 0 then
    let (succeed, h) :=
      if h.transactionError = .allowed then
        h.executeStatement (.savepoint (getSavepointName (h.transactionLevel + 1)))
      else (true, h)
    (succeed, if succeed then { h with transactionLevel := h.transactionLevel + 1 } else h)
  else
    let (succeed, h) := h.executeStatement .begin
    (succeed, if succeed then { h with transactionLevel := 1 } else h)

def commitTransaction (h : Handle δ) : Bool × Handle δ :=
  if h.transactionLevel > 1 then
    let (succeed, h) :=
      if h.transactionError = .allowed ∧ h.isInTransaction then
        h.executeStatement (.release (getSavepointName h.transactionLevel))
      else (true, h)
    (succeed, if succeed then { h with transactionLevel := h.transactionLevel - 1 } else h)
  else
    let (succeed, h) := if h.isInTransaction then h.executeStatement .commit else (true, h)
    (succeed, if succeed then { h with transactionLevel := 0, transactionError := .allowed } else h)

def rollbackTransaction (h : Handle δ) : Handle δ :=
  if h.transactionLevel > 1 then
    let (succeed, h) :=
      if h.transactionError = .allowed ∧ h.isInTransaction then
        h.executeStatement (.rollbackTo (getSavepointName h.transactionLevel))
      else (true, h)
    if succeed then { h with transactionLevel := h.transactionLevel - 1 } else h
  else
    let (succeed, h) := if h.isInTransaction then h.executeStatement .rollback else (true, h)
    if succeed then { h with transactionLevel := 0, transactionError := .allowed } else h

def commitOrRollbackTransaction (h : Handle δ) : Bool × Handle δ :=
  let (succeed, h) := if h.transactionError ≠ .fatal then h.commitTransaction else (false, h)
  if succeed then (true, h) else (false, h.rollbackTransaction)

/-- The closure answers false where it throws. -/
def runTransaction (transaction : Handle δ → Bool × Handle δ) (h : Handle δ) : Bool × Handle δ :=
  let (succeed, h) := h.beginTransaction
  if succeed then
    let (succeed, h) := transaction h
    if succeed then h.commitOrRollbackTransaction else (false, h.rollbackTransaction)
  else (false, h)

/-- `run(transaction:)`. -/
def run (transaction : Handle δ → Bool × Handle δ) (h : Handle δ) : Bool × Handle δ :=
  if h.isInTransaction then transaction h else h.runTransaction transaction

end Handle

end StudyDB.WCDB
