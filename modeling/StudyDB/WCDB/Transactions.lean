import StudyDB.WCDB.Handle

/-! Nested transactions of a handle. Each level is what a snapshot at its start would be,
though the handle keeps it as a savepoint named by the level, leaves savepoints behind
when it rolls back, and makes none once it has been told that no error is allowed.
Proved: any sequence of begins, commits, rollbacks and other statements does what it
does to a stack of snapshots. -/

namespace StudyDB.WCDB

open Sqlite (Connection Statement Transaction fromSavepoint)

variable {δ : Type*}

/-! ### Snapshots -/

/-- The content, and the content at the start of each open level, the innermost first. -/
structure Snapshots (δ : Type*) where
  content : δ
  saved : List δ
  error : TransactionError

namespace Snapshots

def commit (s : Snapshots δ) : Snapshots δ :=
  match s.saved with
  | [] => { s with error := .allowed }
  | [_] => { s with saved := [], error := .allowed }
  | _ :: saved => { s with saved := saved }

/-- Where an error is not allowed, an inner level is left without being undone. -/
def rollback (s : Snapshots δ) : Snapshots δ :=
  match s.saved with
  | [] => { s with error := .allowed }
  | [d] => ⟨d, [], .allowed⟩
  | d :: saved => if s.error = .allowed then { s with content := d, saved := saved } else { s with saved := saved }

/-- What is there after a crash of the process. -/
def durable (s : Snapshots δ) : δ := s.saved.getLast?.getD s.content

end Snapshots

/-! ### Operations -/

inductive Op (δ : Type*) where
  | begin
  | commit
  | rollback
  | commitOrRollback
  | markErrorNotAllowed
  | execute (effect : δ → Option δ)

namespace Op

def onHandle : Op δ → Handle δ → Bool × Handle δ
  | begin, h => h.beginTransaction
  | commit, h => h.commitTransaction
  | rollback, h => (true, h.rollbackTransaction)
  | commitOrRollback, h => h.commitOrRollbackTransaction
  | markErrorNotAllowed, h => (true, h.markErrorNotAllowedWithinTransaction)
  | execute effect, h => h.executeStatement (.other effect)

def onSnapshots : Op δ → Snapshots δ → Bool × Snapshots δ
  | begin, s => (true, { s with saved := s.content :: s.saved })
  | commit, s => (true, s.commit)
  | rollback, s => (true, s.rollback)
  | commitOrRollback, s => if s.error = .fatal then (false, s.rollback) else (true, s.commit)
  | markErrorNotAllowed, s => (true, if s.error = .allowed then { s with error := .notAllowed } else s)
  | execute effect, s =>
    match effect s.content with
    | some d => (true, { s with content := d })
    | none => (false, { s with error := s.error.notify })

/-- The operations one after the other, with their answers. -/
def runAll {σ : Type*} (step : Op δ → σ → Bool × σ) : List (Op δ) → σ → List Bool × σ
  | [], s => ([], s)
  | op :: ops, s => ((step op s).1 :: (runAll step ops (step op s).2).1, (runAll step ops (step op s).2).2)

end Op

/-! ### Savepoints -/

theorem toLower_of_isDigit {c : Char} (h : c.isDigit = true) : c.toLower = c := by
  unfold Char.toLower
  rw [dif_neg]
  simp [Char.isDigit, UInt32.le_iff_toNat_le] at *
  omega

theorem getSavepointName_toLower_inj {m n : ℕ}
    (h : (Handle.getSavepointName m).toLower = (Handle.getSavepointName n).toLower) : m = n := by
  have hdigits : ∀ k : ℕ, (Nat.toDigits 10 k).map Char.toLower = Nat.toDigits 10 k := fun k => by
    rw [List.map_congr_left fun c hc => toLower_of_isDigit (Decimal.toDigits_isDigit k c hc), List.map_id']
  have hlower : ∀ s : String, s.toLower.toList = s.toList.map Char.toLower := fun s => String.toList_map
  have hlist := congrArg String.toList h
  simp only [hlower, Handle.getSavepointName, String.toList_append,
    List.map_append, Nat.toString_eq_repr, Nat.toList_repr, hdigits] at hlist
  rw [← Decimal.value_toDigits m, ← Decimal.value_toDigits n, List.append_cancel_left hlist]

/-- Savepoints of levels above `level`, left behind by rollbacks. -/
def Leftover (level : ℕ) (savepoints : List (String × δ)) : Prop :=
  ∀ s ∈ savepoints, ∃ k, level < k ∧ s.1 = Handle.getSavepointName k

/-- The savepoints hold the snapshots of all levels but the outermost, each under the
name of its level and below what the levels above it have left. -/
def Holds : List (String × δ) → List δ → Prop
  | savepoints, d :: d' :: saved =>
    ∃ left older, savepoints = left ++ (Handle.getSavepointName (saved.length + 2), d) :: older ∧
      Leftover (saved.length + 2) left ∧ Holds older (d' :: saved)
  | savepoints, _ => Leftover 1 savepoints

theorem Leftover.ne {level : ℕ} {savepoints : List (String × δ)} (h : Leftover level savepoints) :
    ∀ s ∈ savepoints, s.1.toLower ≠ (Handle.getSavepointName level).toLower := by
  intro s hs heq
  obtain ⟨k, hk, hname⟩ := h s hs
  rw [hname] at heq
  exact Nat.ne_of_gt hk (getSavepointName_toLower_inj heq)

theorem fromSavepoint_left {left older : List (String × δ)} {level : ℕ} (h : Leftover level left) (d : δ) :
    fromSavepoint (Handle.getSavepointName level) (left ++ (Handle.getSavepointName level, d) :: older) =
      (Handle.getSavepointName level, d) :: older :=
  Sqlite.fromSavepoint_append h.ne d older

/-- A savepoint of a level above all is one more left behind. -/
theorem Holds.cons {savepoints : List (String × δ)} {saved : List δ} {d d' : δ}
    (h : Holds savepoints (d' :: saved)) :
    Holds ((Handle.getSavepointName (saved.length + 2), d) :: savepoints) (d' :: saved) := by
  cases saved with
  | nil =>
    intro s hs
    rcases List.mem_cons.mp hs with rfl | hs
    · exact ⟨2, by omega, rfl⟩
    · exact h s hs
  | cons d'' saved =>
    obtain ⟨left, older, rfl, hleft, holder⟩ := h
    refine ⟨(Handle.getSavepointName (saved.length + 3), d) :: left, older, rfl, ?_, holder⟩
    intro s hs
    rcases List.mem_cons.mp hs with rfl | hs
    · exact ⟨saved.length + 3, by omega, rfl⟩
    · exact hleft s hs

/-! ### The refinement -/

/-- The open transaction of a handle with these snapshots: it started with the outermost,
and while errors are allowed its savepoints hold the inner ones. -/
def Opened (error : TransactionError) : List δ → Option (Transaction δ) → Prop
  | [], t? => t? = none
  | d :: saved, t? => ∃ t, t? = some t ∧ t.start = (d :: saved).getLast (List.cons_ne_nil d saved) ∧
      t.isTransactionSavepoint = false ∧ (error = .allowed → Holds t.savepoints (d :: saved))

/-- The handle stands for the snapshots, and the outside does nothing to its statements. -/
def Nested (h : Handle δ) (s : Snapshots δ) : Prop :=
  ∃ t?, h = ⟨⟨s.content, t?⟩, s.saved.length, s.error, [], []⟩ ∧ Opened s.error s.saved t?

section Step
variable {c d : δ} {saved : List δ} {error : TransactionError} {t? : Option (Transaction δ)} {t : Transaction δ}
  {level : ℕ}

theorem executeStatement_eq {statement : Statement δ} {db db' : Connection δ} (hrun : db.run statement = some db') :
    Handle.executeStatement statement ⟨db, level, error, [], []⟩ = (true, ⟨db', level, error, [], []⟩) := by
  unfold Handle.executeStatement
  split
  · simp only [Handle.under, List.headD_nil, List.tail_nil, hrun]
  · simp only [Handle.attempt, Handle.under, List.headD_nil, List.tail_nil, hrun]

/-- Inside a transaction, a level begins with a savepoint, or only counts. -/
theorem beginTransaction_inner (hlevel : 0 < level) :
    Handle.beginTransaction ⟨⟨c, some t⟩, level, error, [], []⟩ =
      (true, ⟨⟨c, some (if error = .allowed then
          { t with savepoints := (Handle.getSavepointName (level + 1), c) :: t.savepoints } else t)⟩,
        level + 1, error, [], []⟩) := by
  have hrun : Connection.run (.savepoint (Handle.getSavepointName (level + 1))) ⟨c, some t⟩ =
      some ⟨c, some { t with savepoints := (Handle.getSavepointName (level + 1), c) :: t.savepoints }⟩ := rfl
  have hne : level ≠ 0 := by omega
  simp only [Handle.beginTransaction, Handle.isInTransaction, Connection.isInTransaction, Option.isSome_some, if_true,
    hne, if_false, gt_iff_lt, hlevel]
  by_cases he : error = .allowed
  · simp only [he, if_true, executeStatement_eq hrun]
  · simp only [he, if_false, if_true]

theorem Opened.of_error {error' : TransactionError} (h : Opened error saved t?)
    (herror : error' = .allowed → error = .allowed) : Opened error' saved t? := by
  cases saved with
  | nil => exact h
  | cons d saved =>
    obtain ⟨t, ht, hstart, hsavepoint, hholds⟩ := h
    exact ⟨t, ht, hstart, hsavepoint, fun he => hholds (herror he)⟩

theorem Opened.begin (h : Opened error saved t?) :
    ∃ t', Handle.beginTransaction ⟨⟨c, t?⟩, saved.length, error, [], []⟩ =
      (true, ⟨⟨c, t'⟩, saved.length + 1, error, [], []⟩) ∧ Opened error (c :: saved) t' := by
  cases saved with
  | nil =>
    obtain rfl : t? = none := h
    exact ⟨_, rfl, _, rfl, rfl, rfl, fun _ s hs => absurd hs List.not_mem_nil⟩
  | cons d saved =>
    obtain ⟨t, rfl, hstart, hsavepoint, hholds⟩ := h
    refine ⟨_, beginTransaction_inner (Nat.succ_pos _), _, rfl, ?_, ?_, fun he => ?_⟩
    · split_ifs <;> exact hstart
    · split_ifs <;> exact hsavepoint
    · rw [if_pos he]
      exact ⟨[], t.savepoints, rfl, fun s hs => absurd hs List.not_mem_nil, hholds he⟩

/-- Inside a transaction, an inner level ends with the release of its savepoint, or only
counts. -/
theorem Opened.commit_inner {d' : δ} (h : Opened error (d :: d' :: saved) t?) :
    ∃ t', Handle.commitTransaction ⟨⟨c, t?⟩, saved.length + 2, error, [], []⟩ =
      (true, ⟨⟨c, t'⟩, saved.length + 1, error, [], []⟩) ∧ Opened error (d' :: saved) t' := by
  obtain ⟨t, rfl, hstart, hsavepoint, hholds⟩ := h
  have hlevel : saved.length + 2 > 1 := by omega
  simp only [Handle.commitTransaction, Handle.isInTransaction, Connection.isInTransaction, Option.isSome_some,
    hlevel, if_true, and_true]
  by_cases he : error = .allowed
  · obtain ⟨left, older, hsavepoints, hleft, holder⟩ := hholds he
    have hrun : Connection.run (.release (Handle.getSavepointName (saved.length + 2))) ⟨c, some t⟩ =
        some ⟨c, some { t with savepoints := older }⟩ := by
      simp only [Connection.run, hsavepoints, fromSavepoint_left hleft, hsavepoint, Bool.false_eq_true, and_false,
        if_false]
    simp only [he, if_true, executeStatement_eq hrun]
    exact ⟨_, rfl, _, rfl, hstart, hsavepoint, fun _ => holder⟩
  · simp only [he, if_false, if_true]
    exact ⟨_, rfl, t, rfl, hstart, hsavepoint, fun h => absurd h he⟩

theorem Opened.commit (h : Opened error saved t?) :
    (Handle.commitTransaction ⟨⟨c, t?⟩, saved.length, error, [], []⟩).1 = true ∧
      Nested (Handle.commitTransaction ⟨⟨c, t?⟩, saved.length, error, [], []⟩).2 (Snapshots.commit ⟨c, saved, error⟩) := by
  match saved with
  | [] =>
    obtain rfl : t? = none := h
    exact ⟨rfl, none, rfl, rfl⟩
  | [d] =>
    obtain ⟨t, rfl, hstart, hsavepoint, hholds⟩ := h
    exact ⟨rfl, none, rfl, rfl⟩
  | d :: d' :: saved =>
    obtain ⟨t', hcommit, hopened⟩ := h.commit_inner (c := c)
    rw [List.length_cons, List.length_cons, hcommit]
    exact ⟨rfl, t', rfl, hopened⟩

/-- An inner level is undone by a return to its savepoint, which stays behind. -/
theorem Opened.rollback_inner {d' : δ} (h : Opened error (d :: d' :: saved) t?) :
    ∃ t', Handle.rollbackTransaction ⟨⟨c, t?⟩, saved.length + 2, error, [], []⟩ =
      ⟨⟨if error = .allowed then d else c, t'⟩, saved.length + 1, error, [], []⟩ ∧ Opened error (d' :: saved) t' := by
  obtain ⟨t, rfl, hstart, hsavepoint, hholds⟩ := h
  have hlevel : saved.length + 2 > 1 := by omega
  simp only [Handle.rollbackTransaction, Handle.isInTransaction, Connection.isInTransaction, Option.isSome_some,
    hlevel, if_true, and_true]
  by_cases he : error = .allowed
  · obtain ⟨left, older, hsavepoints, hleft, holder⟩ := hholds he
    have hrun : Connection.run (.rollbackTo (Handle.getSavepointName (saved.length + 2))) ⟨c, some t⟩ =
        some ⟨d, some { t with savepoints := (Handle.getSavepointName (saved.length + 2), d) :: older }⟩ := by
      simp only [Connection.run, hsavepoints, fromSavepoint_left hleft]
    simp only [he, if_true, executeStatement_eq hrun]
    exact ⟨_, rfl, _, rfl, hstart, hsavepoint, fun _ => holder.cons⟩
  · simp only [he, if_false, if_true]
    exact ⟨_, rfl, t, rfl, hstart, hsavepoint, fun h => absurd h he⟩

theorem Opened.rollback (h : Opened error saved t?) :
    Nested (Handle.rollbackTransaction ⟨⟨c, t?⟩, saved.length, error, [], []⟩) (Snapshots.rollback ⟨c, saved, error⟩) := by
  match saved with
  | [] =>
    obtain rfl : t? = none := h
    exact ⟨none, rfl, rfl⟩
  | [d] =>
    obtain ⟨t, rfl, rfl, hsavepoint, hholds⟩ := h
    exact ⟨none, rfl, rfl⟩
  | d :: d' :: saved =>
    obtain ⟨t', hrollback, hopened⟩ := h.rollback_inner (c := c)
    refine ⟨t', ?_, ?_⟩
    · rw [List.length_cons, List.length_cons, hrollback]
      unfold Snapshots.rollback
      dsimp only
      split_ifs <;> rfl
    · unfold Snapshots.rollback
      dsimp only
      split_ifs <;> exact hopened

/-- A begin, commit, rollback or other statement answers as on the snapshots, and does to
the handle what it does to them. -/
theorem Nested.step {h : Handle δ} {s : Snapshots δ} (hs : Nested h s) (op : Op δ) :
    (op.onHandle h).1 = (op.onSnapshots s).1 ∧ Nested (op.onHandle h).2 (op.onSnapshots s).2 := by
  obtain ⟨c, saved, error⟩ := s
  obtain ⟨t?, rfl, hopened⟩ := hs
  cases op with
  | begin =>
    obtain ⟨t', hbegin, hopened'⟩ := hopened.begin (c := c)
    rw [show Op.onHandle .begin _ = _ from hbegin]
    exact ⟨rfl, t', rfl, hopened'⟩
  | commit => exact hopened.commit
  | rollback => exact ⟨rfl, hopened.rollback⟩
  | commitOrRollback =>
    show (Handle.commitOrRollbackTransaction _).1 = _ ∧ Nested (Handle.commitOrRollbackTransaction _).2 _
    by_cases he : error = .fatal
    · subst he
      exact ⟨rfl, hopened.rollback⟩
    · obtain ⟨hsucceed, hnested⟩ := hopened.commit (c := c)
      simp only [Handle.commitOrRollbackTransaction, Op.onSnapshots, ne_eq, he, not_false_eq_true, if_true, if_false,
        hsucceed, true_and]
      exact hnested
  | markErrorNotAllowed =>
    simp only [Op.onHandle, Op.onSnapshots, Handle.markErrorNotAllowedWithinTransaction, true_and]
    split_ifs with he
    · exact ⟨t?, rfl, hopened.of_error fun h => by cases h⟩
    · exact ⟨t?, rfl, hopened⟩
  | execute effect =>
    simp only [Op.onHandle, Op.onSnapshots]
    cases heffect : effect c with
    | some d =>
      have hrun : Connection.run (.other effect) ⟨c, t?⟩ = some ⟨d, t?⟩ := by
        simp only [Connection.run, heffect, Option.map_some]
      rw [executeStatement_eq hrun]
      exact ⟨rfl, t?, rfl, hopened⟩
    | none =>
      have hrun : Connection.run (.other effect) ⟨c, t?⟩ = none := by
        simp only [Connection.run, heffect, Option.map_none]
      simp only [Handle.executeStatement, Handle.attempt, Handle.under, List.headD_nil, List.tail_nil, hrun, true_and]
      exact ⟨t?, rfl, hopened.of_error fun h => by cases error <;> first | rfl | cases h⟩

/-- So do any number of them. -/
theorem Nested.run {h : Handle δ} {s : Snapshots δ} (hs : Nested h s) (ops : List (Op δ)) :
    (Op.runAll Op.onHandle ops h).1 = (Op.runAll Op.onSnapshots ops s).1 ∧
      Nested (Op.runAll Op.onHandle ops h).2 (Op.runAll Op.onSnapshots ops s).2 := by
  induction ops generalizing h s with
  | nil => exact ⟨rfl, hs⟩
  | cons op ops ih =>
    obtain ⟨hanswer, hnested⟩ := hs.step op
    obtain ⟨hanswers, hrest⟩ := ih hnested
    exact ⟨congrArg₂ List.cons hanswer hanswers, hrest⟩

/-- Outside all levels everything is durable, and inside none of them is. -/
theorem Nested.durable {h : Handle δ} {s : Snapshots δ} (hs : Nested h s) : h.db.durable = s.durable := by
  obtain ⟨c, saved, error⟩ := s
  obtain ⟨t?, rfl, hopened⟩ := hs
  cases saved with
  | nil =>
    obtain rfl : t? = none := hopened
    rfl
  | cons d saved =>
    obtain ⟨t, rfl, hstart, _⟩ := hopened
    rw [Snapshots.durable, List.getLast?_eq_some_getLast (List.cons_ne_nil d saved), Option.getD_some, ← hstart]
    rfl

end Step

/-- Where the outside does nothing to the statements, any sequence of begins, commits,
rollbacks and other statements on a handle answers, and leaves content, level and what a
crash of the process leaves, as it does with a stack of snapshots. -/
theorem nested_refines_snapshots (ops : List (Op δ)) (d : δ) :
    let h := Op.runAll Op.onHandle ops ⟨⟨d, none⟩, 0, .allowed, [], []⟩
    let s := Op.runAll Op.onSnapshots ops ⟨d, [], .allowed⟩
    h.1 = s.1 ∧ h.2.db.content = s.2.content ∧ h.2.db.durable = s.2.durable ∧
      h.2.transactionLevel = s.2.saved.length ∧ h.2.transactionError = s.2.error := by
  have hinitial : Nested ⟨⟨d, none⟩, 0, .allowed, [], []⟩ (⟨d, [], .allowed⟩ : Snapshots δ) := ⟨none, rfl, rfl⟩
  obtain ⟨hanswers, hnested⟩ := hinitial.run ops
  refine ⟨hanswers, ?_, hnested.durable, ?_, ?_⟩
  all_goals
    obtain ⟨t?, hh, _⟩ := hnested
    rw [hh]

end StudyDB.WCDB
