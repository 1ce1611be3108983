import StudyDB.Sqlite.RowId
import StudyDB.WCDB.Real

/-! WCDB's insertion into tables that number their rows. -/

namespace StudyDB.WCDB

open Sqlite (RowIdTable)

/-- A call that throws returns false and leaves the table. -/
def report {σ : Type} (old : σ) : Option σ → Bool × σ
  | some new => (true, new)
  | none => (false, old)

theorem report_eq_true {σ : Type} {old new : σ} {result : Option σ} (h : report old result = (true, new)) :
    result = some new := by
  cases result with
  | none => cases h
  | some s => exact congrArg some (Prod.mk.inj h).2

theorem report_eq_false {σ : Type} {old new : σ} {result : Option σ} (h : report old result = (false, new)) :
    new = old := by
  cases result with
  | none => exact (Prod.mk.inj h).2.symm
  | some s => cases h

section Insert
variable {α ρ : Type}

/-- `insertOrReplace(_:intoTable:)` of objects that each make a row under a key, or
break a constraint. -/
def insertOrReplaceRows (entry : α → Option (Option Int64 × ρ)) (fault : Bool) (objects : List α) (T : RowIdTable ρ) :
    Option (RowIdTable ρ) :=
  if objects = [] then some T
  else if fault then none
  else (objects.mapM entry).bind fun rows => T.insertOrReplaceAll rows

/-- Objects whose rows have no key are appended. -/
theorem rows_insertOrReplaceRows {entry : α → Option (Option Int64 × ρ)} {fault : Bool} {objects : List α}
    {T T' : RowIdTable ρ} {rows : List ρ} (hentry : objects.mapM entry = some (rows.map fun r => (none, r)))
    (h : insertOrReplaceRows entry fault objects T = some T') :
    T'.entries.map Prod.snd = T.entries.map Prod.snd ++ rows := by
  unfold insertOrReplaceRows at h
  split_ifs at h with hnil
  · obtain rfl := Option.some.inj h
    rw [hnil] at hentry
    simpa using hentry
  · rw [hentry, Option.bind_some] at h
    exact Sqlite.RowIdTable.rows_insertOrReplaceAll_none h

/-- Into an empty table such rows go as they are. -/
theorem rows_report_of_empty {entry : α → Option (Option Int64 × ρ)} {fault : Bool} {objects : List α}
    {T T' : RowIdTable ρ} {rows : List ρ} (hentry : objects.mapM entry = some (rows.map fun r => (none, r)))
    (hempty : T.entries = []) (h : report T (insertOrReplaceRows entry fault objects T) = (true, T')) :
    T'.entries.map Prod.snd = rows := by
  rw [rows_insertOrReplaceRows hentry (report_eq_true h), hempty, List.map_nil, List.nil_append]

end Insert

section Map
variable {α ρ σ : Type}

theorem mapM_some {τ : Type} (f : α → τ) (objects : List α) :
    objects.mapM (fun a => some (f a)) = some (objects.map f) := List.mapM_pure

/-- What all rows have in common, before a call and among the inserted ones, they have afterwards. -/
theorem forall_report_insertOrReplaceRows {P : ρ → Prop} {key : α → Option Int64} {row : α → ρ} {fault : Bool}
    {objects : List α} {T : RowIdTable ρ} (hobjects : ∀ a ∈ objects, P (row a)) (hT : ∀ e ∈ T.entries, P e.2) :
    ∀ e ∈ (report T (insertOrReplaceRows (fun a => some (key a, row a)) fault objects T)).2.entries, P e.2 := by
  cases h : insertOrReplaceRows (fun a => some (key a, row a)) fault objects T with
  | none => exact hT
  | some T' =>
    unfold insertOrReplaceRows at h
    split_ifs at h
    · obtain rfl := Option.some.inj h
      exact hT
    · rw [mapM_some, Option.bind_some] at h
      refine RowIdTable.forall_insertOrReplaceAll h (fun r hr => ?_) hT
      obtain ⟨a, ha, rfl⟩ := List.mem_map.mp hr
      exact hobjects a ha

theorem report_map {τ : Type} (f : σ → τ) (old : σ) (result : Option σ) :
    report (f old) (result.map f) = Prod.map id f (report old result) := by
  cases result <;> rfl

/-- What the rows are made of does not matter to an insertion. -/
theorem insertOrReplaceRows_map (f : ρ → σ) (key : α → Option Int64) (row : α → ρ) (fault : Bool) (objects : List α)
    (T : RowIdTable ρ) :
    insertOrReplaceRows (fun a => some (key a, f (row a))) fault objects (T.map f) =
      (insertOrReplaceRows (fun a => some (key a, row a)) fault objects T).map (RowIdTable.map f) := by
  unfold insertOrReplaceRows
  split_ifs
  · rfl
  · rfl
  · rw [mapM_some, mapM_some, Option.bind_some, Option.bind_some, ← RowIdTable.insertOrReplaceAll_map, List.map_map]
    rfl

end Map

end StudyDB.WCDB
