import StudyDB.Sqlite.Table
import StudyDB.WCDB.Value

/-! WCDB's table coders and the calls of `Database` that the workers make. A call
answers `none` where it throws; a statement may fail for reasons outside the
program, which the flag `fault` says, and then the transaction leaves the table as
it was. -/

namespace StudyDB.WCDB

/-- A type that is stored in a table: its coding keys, the constraints that its
table binding declares, what the table encoder is given for each key, and what the
table decoder makes of a row. -/
structure TableCodable (α : Type) where
  tableName : String
  keys : List String
  unique : List (List String)
  encode : α → List (String × SQLValue)
  decode : Sqlite.Row SQLValue → Option α
  /-- The encoder of a type with synthesised coding binds every key. -/
  encode_keys : ∀ a, (encode a).map Prod.fst = keys

namespace TableCodable
variable {α : Type} (T : TableCodable α)

def schema : Sqlite.Schema := ⟨T.keys, T.unique⟩

/-- The parameters that the table encoder binds, each at its key's index. -/
def params (a : α) : List SQLValue := T.keys.map fun k => ((T.encode a).lookup k).getD .null

/-- The row that an object is inserted as. -/
def row (a : α) : Sqlite.Row SQLValue :=
  Sqlite.insertedRow .null (Sqlite.assignment .null T.keys (T.params a))

/-- A column of the inserted row holds what was bound for its key. -/
theorem row_eq (a : α) : T.row a = fun c => ((T.encode a).lookup c).getD .null := by
  funext c
  by_cases hc : c ∈ T.keys
  · rw [row, Sqlite.insertedRow, params, Sqlite.assignment_of_mem SQLValue.null hc, Option.getD_some]
  · have hnone : (T.encode a).lookup c = none := by
      rw [List.lookup_eq_none_iff]
      intro e he
      rw [bne_iff_ne]
      rintro rfl
      exact hc (T.encode_keys a ▸ List.mem_map.mpr ⟨e, he, rfl⟩)
    rw [row, Sqlite.insertedRow, Sqlite.assignment_of_not_mem SQLValue.null hc, hnone]

/-! ### Calls -/

/-- `insert(_:intoTable:)`. -/
def insert (fault : Bool) (objects : List α) (rows : List (Sqlite.Row SQLValue)) :
    Option (List (Sqlite.Row SQLValue)) :=
  if objects = [] then some rows
  else if fault then none
  else Sqlite.insertAll .null T.schema (objects.map T.row) rows

/-- `insertOrReplace(_:intoTable:)`. -/
def insertOrReplace (fault : Bool) (objects : List α) (rows : List (Sqlite.Row SQLValue)) :
    Option (List (Sqlite.Row SQLValue)) :=
  if objects = [] then some rows
  else if fault then none
  else some (Sqlite.insertOrReplaceAll .null T.schema (objects.map T.row) rows)

/-- `getObjects(on:fromTable:)`. -/
def getObjects (fault : Bool) (rows : List (Sqlite.Row SQLValue)) : Option (List α) :=
  if fault then none else rows.mapM T.decode

/-- `update(table:on:with:)` with a row of column values, on all properties. -/
def update (fault : Bool) (row : List Value) (rows : List (Sqlite.Row SQLValue)) :
    Option (List (Sqlite.Row SQLValue)) :=
  if fault then none
  else Sqlite.update .null T.schema (Sqlite.assignment .null T.keys (row.map Value.bind)) [] rows

/-- `delete(fromTable:)`. -/
def delete (_T : TableCodable α) (fault : Bool) (_rows : List (Sqlite.Row SQLValue)) :
    Option (List (Sqlite.Row SQLValue)) :=
  if fault then none else some []

variable {T} (h : T.unique = [])
include h

/-- Where nothing is unique, a call of `insert` that does not throw appends. -/
theorem insert_eq_some {fault : Bool} {objects : List α} {rows rows' : List (Sqlite.Row SQLValue)}
    (hi : T.insert fault objects rows = some rows') : rows' = rows ++ objects.map T.row := by
  unfold insert at hi
  split_ifs at hi with hnil
  · rw [hnil, List.map_nil, List.append_nil, Option.some.inj hi]
  · rw [Sqlite.insertAll_of_unique_nil SQLValue.null (S := T.schema) h] at hi
    exact (Option.some.inj hi).symm

/-- Where nothing is unique, a call of `insertOrReplace` that does not throw appends. -/
theorem insertOrReplace_eq_some {fault : Bool} {objects : List α} {rows rows' : List (Sqlite.Row SQLValue)}
    (hi : T.insertOrReplace fault objects rows = some rows') : rows' = rows ++ objects.map T.row := by
  unfold insertOrReplace at hi
  split_ifs at hi with hnil
  · rw [hnil, List.map_nil, List.append_nil, Option.some.inj hi]
  · rw [Sqlite.insertOrReplaceAll_of_unique_nil SQLValue.null (S := T.schema) h] at hi
    exact (Option.some.inj hi).symm

theorem insertOrReplace_no_fault (objects : List α) (rows : List (Sqlite.Row SQLValue)) :
    T.insertOrReplace false objects rows = some (rows ++ objects.map T.row) := by
  by_cases hnil : objects = []
  · simp [insertOrReplace, hnil]
  · rw [insertOrReplace, if_neg hnil, if_neg Bool.false_ne_true,
      Sqlite.insertOrReplaceAll_of_unique_nil SQLValue.null (S := T.schema) h]

/-- Where nothing is unique, an update reaches every row. -/
theorem update_eq_some {fault : Bool} {row : List Value} {rows rows' : List (Sqlite.Row SQLValue)}
    (hu : T.update fault row rows = some rows') :
    rows' = rows.map (Sqlite.updatedRow (Sqlite.assignment .null T.keys (row.map Value.bind))) := by
  unfold update at hu
  split_ifs at hu
  rw [Sqlite.update_of_unique_nil SQLValue.null (S := T.schema) h, List.nil_append] at hu
  exact (Option.some.inj hu).symm

end TableCodable

end StudyDB.WCDB
