import StudyDB.WCDB.RowId
import StudyDB.WCDB.Select

/-! Web sites and the content of their table, whose rows are numbered. -/

namespace StudyDB

open WCDB (Column TableCodable)

structure WebSiteDBModel where
  id : Option Int64 := none
  name : Option String := none
  url : Option String := none
  alexa : Option Int64 := none
  country : Option String := none
  extra : Option (Dictionary String) := none
  marks : Option (List String) := none

namespace WebSiteDBModel
variable (coder : JsonCoder)

def ofRow (r : Sqlite.Row SQLValue) : WebSiteDBModel where
  id := Column.int64.readIfPresent (r "identifier")
  name := Column.string.readIfPresent (r "name")
  url := Column.string.readIfPresent (r "url")
  alexa := Column.int64.readIfPresent (r "alexa")
  country := Column.string.readIfPresent (r "country")
  extra := (Column.strings coder).readIfPresent (r "extra")
  marks := (Column.json coder).readIfPresent (r "marks")

def table : TableCodable WebSiteDBModel where
  tableName := "Websites"
  keys := ["identifier", "name", "url", "alexa", "country", "extra", "marks"]
  unique := [["identifier"]]
  encode m := [("identifier", Column.int64.bindIfPresent m.id),
    ("name", Column.string.bindIfPresent m.name),
    ("url", Column.string.bindIfPresent m.url),
    ("alexa", Column.int64.bindIfPresent m.alexa),
    ("country", Column.string.bindIfPresent m.country),
    ("extra", (Column.strings coder).bindIfPresent m.extra),
    ("marks", (Column.json coder).bindIfPresent m.marks)]
  decode r := some (ofRow coder r)
  encode_keys _ := rfl

end WebSiteDBModel

/-- The content of the table. -/
abbrev WebSites := Sqlite.RowIdTable (Sqlite.Row SQLValue)

namespace WebSites

/-- The row of an entry, whose identifier is the key. -/
def entryRow (e : Int64 × Sqlite.Row SQLValue) : Sqlite.Row SQLValue :=
  Function.update e.2 "identifier" (.integer e.1)

/-- The rows that a scan of the table meets. -/
def rows (T : WebSites) : List (Sqlite.Row SQLValue) := T.entries.map entryRow

@[simp] theorem entryRow_identifier (e : Int64 × Sqlite.Row SQLValue) :
    entryRow e "identifier" = .integer e.1 := Function.update_self ..

/-- The identifier that a row shows. -/
def rowId (r : Sqlite.Row SQLValue) : Int64 := (r "identifier").columnInt64

@[simp] theorem rowId_entryRow (e : Int64 × Sqlite.Row SQLValue) : rowId (entryRow e) = e.1 := by
  rw [rowId, entryRow_identifier, SQLValue.columnInt64]

theorem identifier_of_mem {T : WebSites} {r : Sqlite.Row SQLValue} (h : r ∈ T.rows) :
    r "identifier" = .integer (rowId r) := by
  obtain ⟨e, _, rfl⟩ := List.mem_map.mp h
  rw [rowId_entryRow, entryRow_identifier]

theorem entryRow_of_ne (e : Int64 × Sqlite.Row SQLValue) {c : String} (h : c ≠ "identifier") :
    entryRow e c = e.2 c := Function.update_of_ne h ..

theorem length_rows_lt (T : WebSites) : T.rows.length < 2 ^ 63 := by
  rw [rows, List.length_map]
  exact T.length_lt

/-- The table of one row. -/
def single (id : Int64) (row : Sqlite.Row SQLValue) : WebSites :=
  ⟨[(id, row)], List.pairwise_singleton _ _, Nat.one_lt_two_pow (by decide)⟩

@[simp] theorem rows_single (id : Int64) (row : Sqlite.Row SQLValue) : (single id row).rows = [entryRow (id, row)] := rfl

end WebSites

end StudyDB
