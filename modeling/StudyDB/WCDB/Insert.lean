import StudyDB.WCDB.Handle
import StudyDB.WCDB.RowId
import StudyDB.WCDB.Table

/-! `Insert.execute`, statement by statement, when any statement may fail and end the
transaction. Proved: outside a transaction an insertion is all or nothing, unless it fails
and its ROLLBACK fails as well, which leaves the transaction open; inside one, what a failed
insertion leaves is a first part of its rows, or the whole transaction is undone; and the
insertions of the tables, with their flag for a failure outside the program, say exactly
what this can come to where no ROLLBACK fails. -/

namespace StudyDB.WCDB

open Sqlite (Connection Statement Transaction)

variable {δ α ρ : Type}

/-- An insertion: what the encoder makes of an object, unless it throws, and what a step
of the prepared statement makes of the content, unless a constraint is broken. -/
structure Insert (δ α ρ : Type) where
  encode : α → Option ρ
  step : ρ → δ → Option δ

namespace Handle

/-- A statement is compiled before it runs. -/
def prepare (h : Handle δ) : Bool × Handle δ := h.attempt some

end Handle

namespace Insert

variable (insert : Insert δ α ρ)

/-- Encode, step and reset, for each object; the first to fail throws. -/
def stepAll : List α → Handle δ → Bool × Handle δ
  | [], h => (true, h)
  | object :: objects, h =>
    match insert.encode object with
    | none => (false, h)
    | some row =>
      let (succeed, h) := h.executeStatement (.other (insert.step row))
      if succeed then stepAll objects h else (false, h)

def doInsertObject (objects : List α) (h : Handle δ) : Bool × Handle δ :=
  let (succeed, h) := h.prepare
  if succeed then insert.stepAll objects h else (false, h)

def execute (objects : List α) (h : Handle δ) : Bool × Handle δ :=
  if objects = [] then (true, h)
  else if objects.length = 1 then insert.doInsertObject objects h
  else h.run (insert.doInsertObject objects)

/-- What the objects make of the content where no statement fails from outside. -/
def insertAll (objects : List α) (d : δ) : Option δ :=
  objects.foldlM (fun d object => (insert.encode object).bind fun row => insert.step row d) d

end Insert

/-! ### One statement -/

namespace Handle

/-- A call runs, or fails with nothing done or everything undone. -/
theorem under_cases (outcome : Outcome) (run : Connection δ → Option (Connection δ)) (h : Handle δ) :
    (∃ db, run h.db = some db ∧ h.under outcome run = (true, { h with db := db })) ∨
    ∃ db, (db = h.db ∨ db = h.db.abandon) ∧
      h.under outcome run = (false, { h with db := db, transactionError := h.transactionError.notify }) := by
  cases outcome with
  | done =>
    cases hrun : run h.db with
    | some db => exact .inl ⟨db, rfl, by simp only [under, hrun]⟩
    | none => exact .inr ⟨h.db, .inl rfl, by simp only [under, hrun]⟩
  | error => exact .inr ⟨h.db, .inl rfl, rfl⟩
  | abandon => exact .inr ⟨h.db.abandon, .inr rfl, rfl⟩

theorem attempt_cases (run : Connection δ → Option (Connection δ)) (h : Handle δ) :
    (∃ db, run h.db = some db ∧ h.attempt run = (true, { h with db := db, outcomes := h.outcomes.tail })) ∨
    ∃ db, (db = h.db ∨ db = h.db.abandon) ∧ h.attempt run =
      (false, { h with db := db, transactionError := h.transactionError.notify, outcomes := h.outcomes.tail }) :=
  under_cases _ run { h with outcomes := h.outcomes.tail }

theorem executeStatement_other (effect : δ → Option δ) (h : Handle δ) :
    h.executeStatement (.other effect) = h.attempt (Connection.run (.other effect)) := rfl

/-! ### Transactions -/

/-- A rollback of the outermost level undoes what is open, if anything still is, unless its
ROLLBACK fails. -/
theorem db_rollbackTransaction {h : Handle δ} (hlevel : h.transactionLevel ≤ 1) :
    h.rollbackTransaction.db = h.db.abandon ∨
      h.rollbackOutcomes.head? = some .error ∧ h.rollbackTransaction.db = h.db := by
  obtain ⟨⟨d, t?⟩, level, error, outcomes, rollbackOutcomes⟩ := h
  have hnot : ¬ level > 1 := Nat.not_lt.mpr hlevel
  cases t? with
  | none => simp [rollbackTransaction, hnot, isInTransaction, Connection.isInTransaction, Connection.abandon]
  | some t =>
    have hrollback : (rollbackTransaction ⟨⟨d, some t⟩, level, error, outcomes, rollbackOutcomes⟩).db =
        (under (rollbackOutcomes.headD .done) (Connection.run .rollback)
          ⟨⟨d, some t⟩, level, error, outcomes, rollbackOutcomes.tail⟩).2.db := by
      simp only [rollbackTransaction, hnot, if_false, isInTransaction, Connection.isInTransaction, Option.isSome_some,
        if_true, executeStatement]
      split_ifs <;> rfl
    rw [hrollback]
    match rollbackOutcomes with
    | [] => exact .inl rfl
    | .done :: _ => exact .inl rfl
    | .error :: _ => exact .inr ⟨rfl, rfl⟩
    | .abandon :: _ => exact .inl rfl

/-- What a transaction that fails leaves: the database as it was, or, if the ROLLBACK fails
as well, the transaction open; what is durable is as it was. -/
def Undone (h : Handle δ) (db : Connection δ) : Prop :=
  db.durable = h.db.durable ∧ (db = h.db ∨ h.rollbackOutcomes.head? = some .error ∧ db.isInTransaction = true)

/-- What a rollback of the outermost level leaves of the transaction that was open at the
start, if nothing has ended it. -/
theorem Undone.rollbackTransaction {h opened : Handle δ} (hidle : h.db.transaction = none)
    (hlevel : opened.transactionLevel ≤ 1) (hrollback : opened.rollbackOutcomes = h.rollbackOutcomes)
    (hstart : (∃ t, opened.db.transaction = some t ∧ t.start = h.db.content) ∨ opened.db = h.db) :
    Undone h opened.rollbackTransaction.db := by
  obtain ⟨⟨d, t?⟩, level, error, outcomes, rollbackOutcomes⟩ := h
  obtain rfl : t? = none := hidle
  rcases db_rollbackTransaction hlevel with hdb | ⟨hfails, hdb⟩
  · have hdb' : opened.rollbackTransaction.db = ⟨d, none⟩ := by
      rw [hdb]
      rcases hstart with ⟨t, ht, rfl⟩ | hopened
      · rw [Connection.abandon, ht]
      · rw [hopened]
        rfl
    rw [hdb']
    exact ⟨rfl, .inl rfl⟩
  · rw [hdb]
    rcases hstart with ⟨t, ht, hstart⟩ | hopened
    · refine ⟨?_, .inr ⟨hrollback ▸ hfails, ?_⟩⟩
      · rw [Connection.durable, ht]
        exact hstart
      · rw [Connection.isInTransaction, ht]
        rfl
    · rw [hopened]
      exact ⟨rfl, .inl rfl⟩

/-- The outermost level ends with its content durable, or undone. -/
theorem commitOrRollbackTransaction_cases {h opened : Handle δ} {t : Transaction δ} (hidle : h.db.transaction = none)
    (ht : opened.db.transaction = some t) (hstart : t.start = h.db.content) (hlevel : opened.transactionLevel ≤ 1)
    (hrollback : opened.rollbackOutcomes = h.rollbackOutcomes) :
    (opened.commitOrRollbackTransaction.1 = true ∧
      opened.commitOrRollbackTransaction.2.db = ⟨opened.db.content, none⟩) ∨
    (opened.commitOrRollbackTransaction.1 = false ∧ Undone h opened.commitOrRollbackTransaction.2.db) := by
  by_cases herror : opened.transactionError = .fatal
  · right
    have hfails : opened.commitOrRollbackTransaction = (false, opened.rollbackTransaction) := by
      simp [commitOrRollbackTransaction, herror]
    rw [hfails]
    exact ⟨rfl, .rollbackTransaction hidle hlevel hrollback (.inl ⟨t, ht, hstart⟩)⟩
  · have hnot : ¬ opened.transactionLevel > 1 := Nat.not_lt.mpr hlevel
    have hopen : opened.isInTransaction = true := by
      rw [isInTransaction, Connection.isInTransaction, ht]
      rfl
    have hcommit : opened.executeStatement .commit = opened.attempt (Connection.run .commit) := rfl
    rcases attempt_cases (Connection.run .commit) opened with ⟨db, hrun, hdone⟩ | ⟨db, hdb, hfail⟩
    · left
      simp only [Connection.run, ht, Option.map_some, Option.some.injEq] at hrun
      simp [commitOrRollbackTransaction, commitTransaction, herror, hnot, hopen, hcommit, hdone, ← hrun]
    · right
      let failed : Handle δ :=
        ⟨db, opened.transactionLevel, opened.transactionError.notify, opened.outcomes.tail, opened.rollbackOutcomes⟩
      have hfails : opened.commitOrRollbackTransaction = (false, failed.rollbackTransaction) := by
        simp [commitOrRollbackTransaction, commitTransaction, herror, hnot, hopen, hcommit, hfail, failed]
      have hleft : (∃ t, failed.db.transaction = some t ∧ t.start = h.db.content) ∨ failed.db = h.db := by
        rcases hdb with rfl | rfl
        · exact .inl ⟨t, ht, hstart⟩
        · -- the failed COMMIT has ended the transaction
          have habandon : opened.db.abandon = ⟨t.start, none⟩ := by rw [Connection.abandon, ht]
          right
          show opened.db.abandon = h.db
          rw [habandon, hstart, ← hidle]
      rw [hfails]
      exact ⟨rfl, .rollbackTransaction hidle hlevel hrollback hleft⟩

/-- Where no transaction is open, one opens, or nothing has happened. -/
theorem beginTransaction_cases {h : Handle δ} (hidle : h.db.transaction = none) :
    (h.beginTransaction.1 = true ∧ h.beginTransaction.2.db = ⟨h.db.content, some ⟨h.db.content, [], false⟩⟩ ∧
      h.beginTransaction.2.transactionLevel = 1 ∧ h.beginTransaction.2.rollbackOutcomes = h.rollbackOutcomes) ∨
    (h.beginTransaction.1 = false ∧ h.beginTransaction.2.db = h.db) := by
  obtain ⟨⟨d, t?⟩, level, error, outcomes, rollbackOutcomes⟩ := h
  obtain rfl : t? = none := hidle
  have hbegin : executeStatement .begin (⟨⟨d, none⟩, 0, error, outcomes, rollbackOutcomes⟩ : Handle δ) =
      attempt (Connection.run .begin) ⟨⟨d, none⟩, 0, error, outcomes, rollbackOutcomes⟩ := rfl
  rcases attempt_cases (Connection.run .begin) (⟨⟨d, none⟩, 0, error, outcomes, rollbackOutcomes⟩ : Handle δ) with
    ⟨db, hrun, hdone⟩ | ⟨db, hdb, hfail⟩
  · left
    cases hrun
    simp [beginTransaction, isInTransaction, Connection.isInTransaction, hbegin, hdone]
  · right
    have hdb' : db = ⟨d, none⟩ := by
      rcases hdb with rfl | rfl <;> rfl
    simp [beginTransaction, isInTransaction, Connection.isInTransaction, hbegin, hfail, hdb']

/-- Code run in a transaction that ends where a statement fails: it leaves the
transaction open with its start, or fails with the transaction undone. It takes no
transaction back itself. -/
def Stops (f : Handle δ → Bool × Handle δ) : Prop :=
  ∀ h t, h.db.transaction = some t → (f h).2.transactionLevel = h.transactionLevel ∧
    (f h).2.rollbackOutcomes = h.rollbackOutcomes ∧
    ((∃ t', (f h).2.db.transaction = some t' ∧ t'.start = t.start) ∨
      (f h).1 = false ∧ (f h).2.db = ⟨t.start, none⟩)

/-- Such code, run as a transaction of its own, comes to all that it does, or is undone. -/
theorem run_cases {f : Handle δ → Bool × Handle δ} (hf : Stops f) {h : Handle δ} (hidle : h.db.transaction = none) :
    ((h.run f).1 = true ∧ ∃ opened : Handle δ, opened.db = ⟨h.db.content, some ⟨h.db.content, [], false⟩⟩ ∧
      (f opened).1 = true ∧ (h.run f).2.db = ⟨(f opened).2.db.content, none⟩) ∨
    ((h.run f).1 = false ∧ Undone h (h.run f).2.db) := by
  have hrun : h.run f = h.runTransaction f := by
    simp [run, isInTransaction, Connection.isInTransaction, hidle]
  have hdb : h.db = ⟨h.db.content, none⟩ := by
    rw [← hidle]
  rcases beginTransaction_cases hidle with ⟨hbegin, hopened, hlevel, hrollback⟩ | ⟨hbegin, hunchanged⟩
  · generalize hopen : h.beginTransaction.2 = opened at hopened hlevel hrollback
    have hrunTransaction : h.runTransaction f =
        if (f opened).1 then (f opened).2.commitOrRollbackTransaction else (false, (f opened).2.rollbackTransaction) := by
      simp [runTransaction, hbegin, hopen]
    obtain ⟨hkeep, hkeepRollback, hstop⟩ := hf opened ⟨h.db.content, [], false⟩ (by rw [hopened])
    have hle : (f opened).2.transactionLevel ≤ 1 := by omega
    rw [hrun, hrunTransaction]
    cases hsucceed : (f opened).1 with
    | true =>
      obtain ⟨t', ht', hstart⟩ : ∃ t', (f opened).2.db.transaction = some t' ∧ t'.start = h.db.content := by
        rcases hstop with hstop | ⟨hfalse, _⟩
        · exact hstop
        · rw [hsucceed] at hfalse
          cases hfalse
      rw [if_pos rfl]
      rcases commitOrRollbackTransaction_cases hidle ht' hstart hle (hkeepRollback.trans hrollback) with
        ⟨htrue, hcontent⟩ | hundone
      · exact .inl ⟨htrue, opened, hopened, hsucceed, hcontent⟩
      · exact .inr hundone
    | false =>
      rw [if_neg Bool.false_ne_true]
      refine .inr ⟨rfl, .rollbackTransaction hidle hle (hkeepRollback.trans hrollback) ?_⟩
      exact hstop.imp_right fun hundone => hundone.2.trans hdb.symm
  · right
    rw [hrun]
    simp [runTransaction, hbegin, hunchanged, Undone]

end Handle

/-! ### The rows -/

namespace Insert

variable {insert : Insert δ α ρ} {objects : List α} {h : Handle δ}

/-- Some of the objects, the first ones, went in, and the next one did not; the
transaction is as it was, or undone. -/
def Stopped (insert : Insert δ α ρ) (objects : List α) (h h' : Handle δ) : Prop :=
  ∃ done rest d, objects = done ++ rest ∧ rest ≠ [] ∧ insert.insertAll done h.db.content = some d ∧
    (h'.db = ⟨d, h.db.transaction⟩ ∨ h'.db = Connection.abandon ⟨d, h.db.transaction⟩)

theorem insertAll_cons (object : α) (objects : List α) (d : δ) :
    insert.insertAll (object :: objects) d =
      ((insert.encode object).bind fun row => insert.step row d).bind (insert.insertAll objects) :=
  List.foldlM_cons ..

/-- The handle is at its level still, and has rolled nothing back. -/
def Stays (h h' : Handle δ) : Prop :=
  h'.transactionLevel = h.transactionLevel ∧ h'.rollbackOutcomes = h.rollbackOutcomes

theorem Stays.trans {h' h'' : Handle δ} (hh' : Stays h h') (hh'' : Stays h' h'') : Stays h h'' :=
  ⟨hh''.1.trans hh'.1, hh''.2.trans hh'.2⟩

theorem stays_attempt (run : Connection δ → Option (Connection δ)) : Stays h (h.attempt run).2 := by
  rcases Handle.attempt_cases run h with ⟨db, _, hdone⟩ | ⟨db, _, hfail⟩
  · rw [hdone]
    exact ⟨rfl, rfl⟩
  · rw [hfail]
    exact ⟨rfl, rfl⟩

theorem stays_stepAll : Stays h (insert.stepAll objects h).2 := by
  induction objects generalizing h with
  | nil => exact ⟨rfl, rfl⟩
  | cons object objects ih =>
    rw [stepAll]
    split
    · exact ⟨rfl, rfl⟩
    · rename_i row hrow
      rw [Handle.executeStatement_other]
      dsimp only
      split_ifs
      · exact (stays_attempt _).trans ih
      · exact stays_attempt _

variable (insert objects h) in
theorem stays_doInsertObject : Stays h (insert.doInsertObject objects h).2 := by
  unfold doInsertObject Handle.prepare
  dsimp only
  split_ifs
  · exact (stays_attempt some).trans stays_stepAll
  · exact stays_attempt some

/-- The steps put all rows in, or stop. -/
theorem stepAll_cases :
    ((insert.stepAll objects h).1 = true ∧ ∃ d, insert.insertAll objects h.db.content = some d ∧
      (insert.stepAll objects h).2.db = ⟨d, h.db.transaction⟩) ∨
    ((insert.stepAll objects h).1 = false ∧ Stopped insert objects h (insert.stepAll objects h).2) := by
  induction objects generalizing h with
  | nil => exact .inl ⟨rfl, h.db.content, rfl, rfl⟩
  | cons object objects ih =>
    have hne : object :: objects ≠ [] := List.cons_ne_nil object objects
    cases hrow : insert.encode object with
    | none =>
      right
      rw [stepAll, hrow]
      exact ⟨rfl, [], object :: objects, h.db.content, rfl, hne, rfl, .inl rfl⟩
    | some row =>
      rcases Handle.attempt_cases (Connection.run (.other (insert.step row))) h with
        ⟨db, hrun, hdone⟩ | ⟨db, hdb, hfail⟩
      · rw [stepAll, hrow]
        dsimp only
        rw [Handle.executeStatement_other, hdone]
        obtain ⟨d, hd, rfl⟩ := Option.map_eq_some_iff.mp hrun
        have hcons : ∀ objects', insert.insertAll (object :: objects') h.db.content = insert.insertAll objects' d := by
          intro objects'
          rw [insertAll_cons, hrow, Option.bind_some, hd, Option.bind_some]
        rcases ih (h := { h with db := { h.db with content := d }, outcomes := h.outcomes.tail }) with
          ⟨htrue, d', hd', hdb'⟩ | ⟨hfalse, done, rest, d', rfl, hrest, hd', hdb'⟩
        · exact .inl ⟨htrue, d', (hcons objects).trans hd', hdb'⟩
        · exact .inr ⟨hfalse, object :: done, rest, d', rfl, hrest, (hcons done).trans hd', hdb'⟩
      · right
        rw [stepAll, hrow]
        dsimp only
        rw [Handle.executeStatement_other, hfail]
        exact ⟨rfl, [], object :: objects, h.db.content, rfl, hne, rfl, hdb⟩

variable (insert h) in
/-- So does the code that compiles the statement first. -/
theorem doInsertObject_cases (hobjects : objects ≠ []) :
    ((insert.doInsertObject objects h).1 = true ∧ ∃ d, insert.insertAll objects h.db.content = some d ∧
      (insert.doInsertObject objects h).2.db = ⟨d, h.db.transaction⟩) ∨
    ((insert.doInsertObject objects h).1 = false ∧ Stopped insert objects h (insert.doInsertObject objects h).2) := by
  unfold doInsertObject Handle.prepare
  rcases Handle.attempt_cases some h with ⟨db, hrun, hdone⟩ | ⟨db, hdb, hfail⟩
  · cases hrun
    rw [hdone]
    exact stepAll_cases (h := { h with outcomes := h.outcomes.tail })
  · rw [hfail]
    exact .inr ⟨rfl, [], objects, h.db.content, rfl, hobjects, rfl, hdb⟩

variable (insert) in
theorem stops_doInsertObject (hobjects : objects ≠ []) : Handle.Stops (insert.doInsertObject objects) := by
  intro h t ht
  obtain ⟨hlevel, hrollback⟩ := stays_doInsertObject insert objects h
  refine ⟨hlevel, hrollback, ?_⟩
  rcases doInsertObject_cases insert h hobjects with
    ⟨_, d, _, hdb⟩ | ⟨hfalse, _, _, d, _, _, _, hdb | hdb⟩
  · exact .inl ⟨t, by rw [hdb, ht], rfl⟩
  · exact .inl ⟨t, by rw [hdb, ht], rfl⟩
  · refine .inr ⟨hfalse, ?_⟩
    rw [hdb, ht]
    rfl

/-! ### Insertions -/

variable (insert) in
theorem execute_cases (objects : List α) {h : Handle δ} (hidle : h.db.transaction = none) :
    ((insert.execute objects h).1 = true ∧ ∃ d, insert.insertAll objects h.db.content = some d ∧
      (insert.execute objects h).2.db = ⟨d, none⟩) ∨
    ((insert.execute objects h).1 = false ∧ Handle.Undone h (insert.execute objects h).2.db) := by
  have hdb : h.db = ⟨h.db.content, none⟩ := by
    rw [← hidle]
  unfold execute
  split_ifs with hnil hone
  · subst hnil
    exact .inl ⟨rfl, h.db.content, rfl, hdb⟩
  · rcases doInsertObject_cases insert h hnil with
      ⟨htrue, d, hd, hdb'⟩ | ⟨hfalse, done, rest, d, rfl, hrest, hd, hdb'⟩
    · exact .inl ⟨htrue, d, hd, hdb'.trans (by rw [hidle])⟩
    · -- the only object did not go in
      obtain rfl : done = [] := by
        rw [List.length_append] at hone
        have hpos := List.length_pos_iff.mpr hrest
        exact List.length_eq_zero_iff.mp (by omega)
      obtain rfl : h.db.content = d := Option.some.inj hd
      rw [hidle, ← hdb] at hdb'
      have hunchanged : (insert.doInsertObject rest h).2.db = h.db := by
        rcases hdb' with hdb' | hdb'
        · exact hdb'
        · exact hdb'.trans (by rw [Connection.abandon, hidle])
      exact .inr ⟨hfalse, congrArg _ hunchanged, .inl hunchanged⟩
  · rcases Handle.run_cases (stops_doInsertObject insert hnil) hidle with
      ⟨htrue, opened, hopened, hsucceed, hcontent⟩ | ⟨hfalse, hunchanged⟩
    · rcases doInsertObject_cases insert opened hnil with
        ⟨_, d, hd, hdb'⟩ | ⟨hfalse, _⟩
      · rw [hopened] at hd
        exact .inl ⟨htrue, d, hd, by rw [hcontent, hdb']⟩
      · rw [hsucceed] at hfalse
        cases hfalse
    · exact .inr ⟨hfalse, hunchanged⟩

variable (insert) in
theorem execute_cases_of_transaction (objects : List α) {h : Handle δ} {t : Transaction δ}
    (ht : h.db.transaction = some t) :
    ((insert.execute objects h).1 = true ∧ ∃ d, insert.insertAll objects h.db.content = some d ∧
      (insert.execute objects h).2.db = ⟨d, some t⟩) ∨
    ((insert.execute objects h).1 = false ∧
      ((∃ done rest d, objects = done ++ rest ∧ rest ≠ [] ∧ insert.insertAll done h.db.content = some d ∧
        (insert.execute objects h).2.db = ⟨d, some t⟩) ∨
      (insert.execute objects h).2.db = ⟨t.start, none⟩)) := by
  have hin : h.isInTransaction = true := by
    rw [Handle.isInTransaction, Connection.isInTransaction, ht]
    rfl
  by_cases hnil : objects = []
  · subst hnil
    exact .inl ⟨rfl, h.db.content, rfl, by rw [← ht]; rfl⟩
  · have hexecute : insert.execute objects h = insert.doInsertObject objects h := by
      unfold execute Handle.run
      rw [if_neg hnil, hin, if_pos rfl, ite_self]
    rw [hexecute]
    rcases doInsertObject_cases insert h hnil with
      ⟨htrue, d, hd, hdb⟩ | ⟨hfalse, done, rest, d, hobjects, hrest, hd, hdb | hdb⟩
    · exact .inl ⟨htrue, d, hd, by rw [hdb, ht]⟩
    · exact .inr ⟨hfalse, .inl ⟨done, rest, d, hobjects, hrest, hd, by rw [hdb, ht]⟩⟩
    · refine .inr ⟨hfalse, .inr ?_⟩
      rw [hdb, ht]
      rfl

/-- A closure that makes one insertion after the other; the first to throw ends it. -/
def executeAll (insert : Insert δ α ρ) : List (List α) → Handle δ → Bool × Handle δ
  | [], h => (true, h)
  | objects :: batches, h =>
    let (succeed, h) := insert.execute objects h
    if succeed then executeAll insert batches h else (false, h)

variable (insert objects) in
theorem stays_execute (hin : h.isInTransaction = true) : Stays h (insert.execute objects h).2 := by
  unfold execute Handle.run
  split_ifs
  · exact ⟨rfl, rfl⟩
  · exact stays_doInsertObject insert objects h
  · exact stays_doInsertObject insert objects h

theorem insertAll_append (objects objects' : List α) (d : δ) :
    insert.insertAll (objects ++ objects') d = (insert.insertAll objects d).bind (insert.insertAll objects') :=
  List.foldlM_append ..

variable (insert) in
theorem executeAll_cases (batches : List (List α)) {h : Handle δ} {t : Transaction δ} (ht : h.db.transaction = some t) :
    Stays h (insert.executeAll batches h).2 ∧
    (((insert.executeAll batches h).1 = true ∧ ∃ d, insert.insertAll batches.flatten h.db.content = some d ∧
      (insert.executeAll batches h).2.db = ⟨d, some t⟩) ∨
    ((insert.executeAll batches h).1 = false ∧
      ((insert.executeAll batches h).2.db.transaction = some t ∨
        (insert.executeAll batches h).2.db = ⟨t.start, none⟩))) := by
  have hin : h.isInTransaction = true := by
    rw [Handle.isInTransaction, Connection.isInTransaction, ht]
    rfl
  induction batches generalizing h with
  | nil => exact ⟨⟨rfl, rfl⟩, .inl ⟨rfl, h.db.content, rfl, by rw [← ht]; rfl⟩⟩
  | cons objects batches ih =>
    have hstays := stays_execute insert objects hin
    rw [executeAll]
    dsimp only
    rcases execute_cases_of_transaction insert objects ht with ⟨htrue, d, hd, hdb⟩ | ⟨hfalse, hstop⟩
    · rw [htrue, if_pos rfl]
      obtain ⟨hstays', hrest⟩ := ih (h := (insert.execute objects h).2) (by rw [hdb]) (by
        rw [Handle.isInTransaction, Connection.isInTransaction, hdb]
        rfl)
      refine ⟨hstays.trans hstays', ?_⟩
      rw [List.flatten_cons, insertAll_append, hd, Option.bind_some]
      rw [hdb] at hrest
      exact hrest
    · rw [hfalse, if_neg Bool.false_ne_true]
      refine ⟨hstays, .inr ⟨rfl, ?_⟩⟩
      rcases hstop with ⟨_, _, d, _, _, _, hdb⟩ | hdb
      · exact .inl (by rw [hdb])
      · exact .inr hdb

variable (insert) in
/-- Insertions in the closure of one transaction, whatever fails: if the transaction
returns, every object of every one is in; if it throws, none is, unless its ROLLBACK failed:
then the transaction is still open, and nothing of it is durable. -/
theorem run_executeAll_all_or_nothing (batches : List (List α)) {h : Handle δ} (hidle : h.db.transaction = none) :
    ((h.run (insert.executeAll batches)).1 = true ∧
      ∃ d, insert.insertAll batches.flatten h.db.content = some d ∧
        (h.run (insert.executeAll batches)).2.db = ⟨d, none⟩) ∨
    ((h.run (insert.executeAll batches)).1 = false ∧
      (h.run (insert.executeAll batches)).2.db.durable = h.db.durable ∧
      ((h.run (insert.executeAll batches)).2.db = h.db ∨
        h.rollbackOutcomes.head? = some .error ∧ (h.run (insert.executeAll batches)).2.db.isInTransaction = true)) := by
  have hstops : Handle.Stops (insert.executeAll batches) := by
    intro h t ht
    obtain ⟨⟨hlevel, hrollback⟩, ⟨_, d, _, hdb⟩ | ⟨hfalse, hopen | hundone⟩⟩ :=
      executeAll_cases insert batches ht
    · exact ⟨hlevel, hrollback, .inl ⟨t, by rw [hdb], rfl⟩⟩
    · exact ⟨hlevel, hrollback, .inl ⟨t, hopen, rfl⟩⟩
    · exact ⟨hlevel, hrollback, .inr ⟨hfalse, hundone⟩⟩
  rcases Handle.run_cases hstops hidle with ⟨htrue, opened, hopened, hsucceed, hcontent⟩ | hfalse
  · left
    obtain ⟨_, ⟨_, d, hd, hdb⟩ | ⟨hfalse, _⟩⟩ :=
      executeAll_cases insert batches (h := opened) (t := ⟨h.db.content, [], false⟩) (by rw [hopened])
    · rw [hopened] at hd
      exact ⟨htrue, d, hd, by rw [hcontent, hdb]⟩
    · rw [hsucceed] at hfalse
      cases hfalse
  · exact .inr hfalse

/-- Numbers, each put in once. -/
def distinct : Insert (List ℕ) ℕ ℕ := ⟨some, fun n list => if n ∈ list then none else some (list ++ [n])⟩

/-- The second insertion fails, and the first is undone. -/
theorem run_executeAll_distinct :
    (Handle.run (distinct.executeAll [[1, 2], [3, 1]]) ⟨⟨[], none⟩, 0, .allowed, [], []⟩).2.db = ⟨[], none⟩ := by
  rcases run_executeAll_all_or_nothing distinct [[1, 2], [3, 1]]
      (h := ⟨⟨[], none⟩, 0, .allowed, [], []⟩) rfl with ⟨htrue, _⟩ | ⟨_, _, hdb | ⟨hfails, _⟩⟩
  · exact absurd htrue (by decide)
  · exact hdb
  · cases hfails

/-- Where the ROLLBACK fails, too, the transaction stays open. -/
example : (distinct.execute [1, 1] ⟨⟨[], none⟩, 0, .allowed, [], [.error]⟩).2.db.isInTransaction = true := by decide

/-! ### The flag for a failure outside the program -/

/-- What the models of the tables make of an insertion. -/
def result (insert : Insert δ α ρ) (fault : Bool) (objects : List α) (d : δ) : Option δ :=
  if objects = [] then some d
  else if fault then none
  else insert.insertAll objects d

theorem stepAll_undisturbed {d d' : δ} {t? : Option (Transaction δ)} {level : ℕ} {error : TransactionError}
    (hall : insert.insertAll objects d = some d') :
    insert.stepAll objects ⟨⟨d, t?⟩, level, error, [], []⟩ = (true, ⟨⟨d', t?⟩, level, error, [], []⟩) := by
  induction objects generalizing d with
  | nil =>
    obtain rfl : d = d' := Option.some.inj hall
    rfl
  | cons object objects ih =>
    rw [insertAll_cons] at hall
    obtain ⟨d₁, hstep, hrest⟩ := Option.bind_eq_some_iff.mp hall
    obtain ⟨row, hrow, hd₁⟩ := Option.bind_eq_some_iff.mp hstep
    have hrun : Connection.run (.other (insert.step row)) ⟨d, t?⟩ = some ⟨d₁, t?⟩ := by
      simp only [Connection.run, hd₁, Option.map_some]
    have hattempt : Handle.executeStatement (.other (insert.step row)) ⟨⟨d, t?⟩, level, error, [], []⟩ =
        (true, ⟨⟨d₁, t?⟩, level, error, [], []⟩) := by
      rw [Handle.executeStatement_other]
      simp only [Handle.attempt, Handle.under, List.headD_nil, List.tail_nil, hrun]
    rw [stepAll, hrow]
    dsimp only
    rw [hattempt]
    exact ih hrest

/-- With no failure from outside, what the objects make of the content is reached. -/
theorem execute_undisturbed {d d' : δ} (hall : insert.insertAll objects d = some d') :
    (insert.execute objects ⟨⟨d, none⟩, 0, .allowed, [], []⟩).1 = true := by
  unfold execute
  split_ifs with hnil hone
  · rfl
  · show (insert.stepAll objects ⟨⟨d, none⟩, 0, .allowed, [], []⟩).1 = true
    rw [stepAll_undisturbed hall]
  · have hopened : Handle.beginTransaction (⟨⟨d, none⟩, 0, .allowed, [], []⟩ : Handle δ) =
        (true, ⟨⟨d, some ⟨d, [], false⟩⟩, 1, .allowed, [], []⟩) := rfl
    have hobjects : insert.doInsertObject objects ⟨⟨d, some ⟨d, [], false⟩⟩, 1, .allowed, [], []⟩ =
        (true, ⟨⟨d', some ⟨d, [], false⟩⟩, 1, .allowed, [], []⟩) := stepAll_undisturbed hall
    show (Handle.runTransaction (insert.doInsertObject objects) ⟨⟨d, none⟩, 0, .allowed, [], []⟩).1 = true
    unfold Handle.runTransaction
    rw [hopened]
    dsimp only
    rw [if_pos rfl, hobjects]
    rfl

/-- A failure at the first statement leaves the content. -/
theorem execute_error (hnil : objects ≠ []) (d : δ) :
    (insert.execute objects ⟨⟨d, none⟩, 0, .allowed, [.error], []⟩).1 = false := by
  unfold execute
  rw [if_neg hnil]
  split_ifs <;> rfl

/-- Outside a transaction, the insertion comes to what a model makes of it for one of the
two values of its flag, unless a ROLLBACK fails; and it comes to each of the two. -/
def Realises (insert : Insert δ α ρ) (model : Bool → List α → δ → Option δ) : Prop :=
  ∀ objects,
    (∀ h : Handle δ, h.db.transaction = none → h.rollbackOutcomes.head? ≠ some .error → ∃ fault,
      ((insert.execute objects h).1, (insert.execute objects h).2.db.content) =
        report h.db.content (model fault objects h.db.content)) ∧
    ∀ fault d, ∃ outcomes,
      ((insert.execute objects ⟨⟨d, none⟩, 0, .allowed, outcomes, []⟩).1,
        (insert.execute objects ⟨⟨d, none⟩, 0, .allowed, outcomes, []⟩).2.db.content) =
        report d (model fault objects d)

theorem realises_result (insert : Insert δ α ρ) : insert.Realises insert.result := by
  intro objects
  have hsuccess : ∀ {d d'}, insert.insertAll objects d = some d' → insert.result false objects d = some d' := by
    intro d d' hd
    by_cases hnil : objects = []
    · subst hnil
      exact hd
    · rw [result, if_neg hnil, if_neg Bool.false_ne_true]
      exact hd
  constructor
  · intro h hidle hrollback
    rcases execute_cases insert objects hidle with ⟨htrue, d, hd, hdb⟩ | ⟨hfalse, -, hdb | ⟨hfails, -⟩⟩
    · exact ⟨false, by rw [htrue, hdb, hsuccess hd]; rfl⟩
    · have hnil : objects ≠ [] := by
        rintro rfl
        cases hfalse
      refine ⟨true, ?_⟩
      rw [hfalse, hdb, result, if_neg hnil]
      rfl
    · exact absurd hfails hrollback
  · intro fault d
    by_cases hnil : objects = []
    · subst hnil
      exact ⟨[], rfl⟩
    · cases fault with
      | true =>
        refine ⟨[.error], ?_⟩
        rcases execute_cases insert (h := ⟨⟨d, none⟩, 0, .allowed, [.error], []⟩) objects rfl with
          ⟨htrue, _⟩ | ⟨hfalse, -, hdb | ⟨hfails, -⟩⟩
        · rw [execute_error hnil] at htrue
          cases htrue
        · rw [hfalse, hdb, result, if_neg hnil]
          rfl
        · cases hfails
      | false =>
        refine ⟨[], ?_⟩
        rcases execute_cases insert (h := ⟨⟨d, none⟩, 0, .allowed, [], []⟩) objects rfl with
          ⟨htrue, d', hd', hdb⟩ | ⟨hfalse, -, hdb | ⟨hfails, -⟩⟩
        · rw [htrue, hdb, hsuccess hd']
          rfl
        · have hnone : insert.insertAll objects d = none := by
            cases hall : insert.insertAll objects d with
            | none => rfl
            | some d' =>
              rw [execute_undisturbed hall] at hfalse
              cases hfalse
          rw [hfalse, hdb, result, if_neg hnil, if_neg Bool.false_ne_true, hnone]
          rfl
        · cases hfails

end Insert

/-! ### The tables -/

/-- `INSERT OR REPLACE` into a table that numbers its rows. -/
def insertOrReplaceRow (entry : α → Option (Option Int64 × ρ)) :
    Insert (Sqlite.RowIdTable ρ) α (Option Int64 × ρ) :=
  ⟨entry, fun row T => T.insertOrReplace row.1 row.2⟩

/-- `INSERT` into a table. -/
def TableCodable.insertRow (T : TableCodable α) :
    Insert (List (Sqlite.Row SQLValue)) α (Sqlite.Row SQLValue) :=
  ⟨fun object => some (T.row object), Sqlite.insert .null T.schema⟩

/-- `INSERT OR REPLACE` into a table. -/
def TableCodable.insertOrReplaceRow (T : TableCodable α) :
    Insert (List (Sqlite.Row SQLValue)) α (Sqlite.Row SQLValue) :=
  ⟨fun object => some (T.row object), fun row rows => some (Sqlite.insertOrReplace .null T.schema row rows)⟩

theorem insertOrReplaceRows_eq_result (entry : α → Option (Option Int64 × ρ)) (fault : Bool) (objects : List α)
    (T : Sqlite.RowIdTable ρ) :
    insertOrReplaceRows entry fault objects T = (insertOrReplaceRow entry).result fault objects T := by
  have hall : ∀ (objects : List α) (T : Sqlite.RowIdTable ρ),
      ((objects.mapM entry).bind fun rows => T.insertOrReplaceAll rows) =
        (insertOrReplaceRow entry).insertAll objects T := by
    intro objects
    induction objects with
    | nil =>
      intro T
      rfl
    | cons object objects ih =>
      intro T
      rw [Insert.insertAll_cons, List.mapM_cons]
      cases hrow : entry object with
      | none => simp [insertOrReplaceRow, hrow]
      | some row =>
        cases hT : T.insertOrReplace row.1 row.2 with
        | none =>
          cases objects.mapM entry <;>
            simp [insertOrReplaceRow, hrow, hT, Sqlite.RowIdTable.insertOrReplaceAll, List.foldlM_cons]
        | some T' =>
          rw [show ((insertOrReplaceRow entry).encode object).bind
              (fun row => (insertOrReplaceRow entry).step row T) = some T' by
            rw [show (insertOrReplaceRow entry).encode object = some row from hrow]; exact hT]
          rw [Option.bind_some, ← ih]
          cases objects.mapM entry <;> simp [hT, Sqlite.RowIdTable.insertOrReplaceAll, List.foldlM_cons]
  unfold insertOrReplaceRows Insert.result
  rw [hall]

theorem TableCodable.insert_eq_result (T : TableCodable α) (fault : Bool) (objects : List α)
    (rows : List (Sqlite.Row SQLValue)) :
    T.insert fault objects rows = T.insertRow.result fault objects rows := by
  unfold TableCodable.insert Insert.result
  rw [Sqlite.insertAll, List.foldlM_map]
  rfl

theorem TableCodable.insertOrReplace_eq_result (T : TableCodable α) (fault : Bool) (objects : List α)
    (rows : List (Sqlite.Row SQLValue)) :
    T.insertOrReplace fault objects rows = T.insertOrReplaceRow.result fault objects rows := by
  have hall : ∀ (objects : List α) (rows : List (Sqlite.Row SQLValue)),
      T.insertOrReplaceRow.insertAll objects rows =
        some (Sqlite.insertOrReplaceAll .null T.schema (objects.map T.row) rows) := by
    intro objects
    induction objects with
    | nil =>
      intro rows
      rfl
    | cons object objects ih =>
      intro rows
      rw [Insert.insertAll_cons]
      exact ih _
  unfold TableCodable.insertOrReplace Insert.result
  rw [hall]

/-- The three insertions of the tables, with the flag that they take for a failure outside
the program, are what `Insert.execute` comes to, statement by statement, as long as no
ROLLBACK fails. -/
theorem tables_realised (entry : α → Option (Option Int64 × ρ)) (T : TableCodable α) :
    (insertOrReplaceRow entry).Realises (insertOrReplaceRows entry) ∧
      T.insertRow.Realises T.insert ∧ T.insertOrReplaceRow.Realises T.insertOrReplace := by
  have hrows : insertOrReplaceRows entry = (insertOrReplaceRow entry).result := by
    funext fault objects T
    exact insertOrReplaceRows_eq_result entry fault objects T
  have hinsert : T.insert = T.insertRow.result := by
    funext fault objects rows
    exact T.insert_eq_result fault objects rows
  have hreplace : T.insertOrReplace = T.insertOrReplaceRow.result := by
    funext fault objects rows
    exact T.insertOrReplace_eq_result fault objects rows
  rw [hrows, hinsert, hreplace]
  exact ⟨Insert.realises_result _, Insert.realises_result _, Insert.realises_result _⟩

end StudyDB.WCDB
