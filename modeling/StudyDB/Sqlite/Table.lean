import Mathlib.Data.List.Basic

/-! Tables of an SQL database under insertion, insertion with replacement,
update and deletion. Rows stand in the order in which a scan meets them, which is
the order of insertion. A uniqueness constraint is violated by two rows that agree
on its columns, none of them NULL. -/

namespace StudyDB.Sqlite

variable {ν : Type*}

/-- The value of each column. -/
abbrev Row (ν : Type*) := String → ν

/-- A table's columns, and the column sets declared PRIMARY KEY or UNIQUE. -/
structure Schema where
  columns : List String
  unique : List (List String)
  deriving DecidableEq, Repr

/-- The values that a statement gives to columns, by the parameters bound to
them; a parameter that was never bound is NULL. -/
def assignment (null : ν) (columns : List String) (params : List ν) (c : String) : Option ν :=
  (columns.idxOf? c).map fun i => params.getD i null

/-- The row that an INSERT makes. -/
def insertedRow (null : ν) (assigned : String → Option ν) : Row ν := fun c => (assigned c).getD null

/-- The row that an UPDATE makes of a row. -/
def updatedRow (assigned : String → Option ν) (r : Row ν) : Row ν := fun c => (assigned c).getD (r c)

section Constraints
variable [DecidableEq ν] (null : ν) (S : Schema)

/-- The two rows violate a uniqueness constraint together. -/
def Schema.conflict (r r' : Row ν) : Bool :=
  S.unique.any fun cs => cs.all fun c => decide (r c = r' c) && decide (r c ≠ null)

/-- INSERT: refused if a row is in the way. -/
def insert (r : Row ν) (rows : List (Row ν)) : Option (List (Row ν)) :=
  if rows.any (S.conflict null r) then none else some (rows ++ [r])

/-- INSERT OR REPLACE: the rows in the way are deleted first. -/
def insertOrReplace (r : Row ν) (rows : List (Row ν)) : List (Row ν) :=
  (rows.filter fun r' => !S.conflict null r r') ++ [r]

/-- INSERT of several rows in one transaction. -/
def insertAll (rs rows : List (Row ν)) : Option (List (Row ν)) :=
  rs.foldlM (fun rows r => insert null S r rows) rows

def insertOrReplaceAll (rs rows : List (Row ν)) : List (Row ν) :=
  rs.foldl (fun rows r => insertOrReplace null S r rows) rows

/-- UPDATE without a condition: the rows one after the other, the updated ones
in `done`; refused if a row comes to be in the way of another. -/
def update (assigned : String → Option ν) (done : List (Row ν)) : List (Row ν) → Option (List (Row ν))
  | [] => some done
  | r :: rest =>
    if (done ++ rest).any (S.conflict null (updatedRow assigned r)) then none
    else update assigned (done ++ [updatedRow assigned r]) rest

variable {S} (h : S.unique = [])
include h

theorem conflict_of_unique_nil (r r' : Row ν) : S.conflict null r r' = false := by
  simp [Schema.conflict, h]

theorem insert_of_unique_nil (r : Row ν) (rows : List (Row ν)) : insert null S r rows = some (rows ++ [r]) := by
  simp [insert, conflict_of_unique_nil null h]

theorem insertOrReplace_of_unique_nil (r : Row ν) (rows : List (Row ν)) :
    insertOrReplace null S r rows = rows ++ [r] := by
  simp [insertOrReplace, conflict_of_unique_nil null h]

/-- Where nothing is unique, an insertion appends. -/
theorem insertAll_of_unique_nil (rs rows : List (Row ν)) : insertAll null S rs rows = some (rows ++ rs) := by
  induction rs generalizing rows with
  | nil => simp [insertAll]
  | cons r rs ih =>
    rw [insertAll, List.foldlM_cons, insert_of_unique_nil null h, Option.bind_eq_bind, Option.bind_some]
    rw [← insertAll, ih, List.append_assoc, List.singleton_append]

/-- Where nothing is unique, nothing is ever replaced. -/
theorem insertOrReplaceAll_of_unique_nil (rs rows : List (Row ν)) :
    insertOrReplaceAll null S rs rows = rows ++ rs := by
  induction rs generalizing rows with
  | nil => simp [insertOrReplaceAll]
  | cons r rs ih =>
    rw [insertOrReplaceAll, List.foldl_cons, insertOrReplace_of_unique_nil null h, ← insertOrReplaceAll, ih,
      List.append_assoc, List.singleton_append]

/-- Where nothing is unique, an update reaches every row. -/
theorem update_of_unique_nil (assigned : String → Option ν) (done rest : List (Row ν)) :
    update null S assigned done rest = some (done ++ rest.map (updatedRow assigned)) := by
  induction rest generalizing done with
  | nil => simp [update]
  | cons r rest ih => simp [update, conflict_of_unique_nil null h, ih]

end Constraints

theorem assignment_of_mem (null : ν) {columns : List String} {c : String} (h : c ∈ columns) (f : String → ν) :
    assignment null columns (columns.map f) c = some (f c) := by
  obtain ⟨i, hi⟩ := Option.isSome_iff_exists.mp (List.isSome_idxOf?.mpr h)
  obtain ⟨hlt, hc, _⟩ := List.idxOf?_eq_some_iff.mp hi
  simp [assignment, hi, List.getD, hlt, hc]

theorem assignment_of_not_mem (null : ν) {columns : List String} {c : String} (h : c ∉ columns) (params : List ν) :
    assignment null columns params c = none := by
  simp [assignment, List.idxOf?_eq_none_iff.mpr h]

end StudyDB.Sqlite
