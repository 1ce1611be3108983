import StudyDB.Foundation.Codable
import StudyDB.Sqlite.Value

/-! WCDB's `Value`, its conversions, and the codecs of column types. -/

namespace StudyDB

/-- `String(_: Int64)`. -/
def intDescription (n : ℤ) : String := String.ofList (Decimal.print n)

/-- `Int64(_: String)`, which answers `none` on text that is no integer in range. -/
def int64OfString? (s : String) : Option Int64 := (Decimal.parse? s.toList).bind int64?

/-- `Int32(_: String)`. -/
def int32OfString? (s : String) : Option Int32 := (Decimal.parse? s.toList).bind int32?

@[simp] theorem int64OfString?_description (n : Int64) : int64OfString? (intDescription n.toInt) = some n := by
  simp [int64OfString?, intDescription, Decimal.parse?_print, int64?_toInt]

@[simp] theorem int32OfString?_description (n : Int32) : int32OfString? (intDescription n.toInt) = some n := by
  simp [int32OfString?, intDescription, Decimal.parse?_print, int32?_toInt]

namespace WCDB

/-- A value for a column, with the type it was made of. -/
inductive Value where
  | null
  | integer32 (n : Int32)
  | integer64 (n : Int64)
  | text (s : String)
  | blob (d : Data)

namespace Value

def int64Value : Value → Int64
  | integer32 n => n.toInt64
  | integer64 n => n
  | text s => (int64OfString? s).getD 0
  | _ => 0

def intValue (v : Value) : Int64 := v.int64Value

def int32Value : Value → Int32
  | integer32 n => n
  | integer64 n => n.toInt32
  | text s => (int32OfString? s).getD 0
  | _ => 0

def stringValue : Value → String
  | integer32 n => intDescription n.toInt
  | integer64 n => intDescription n.toInt
  | text s => s
  | blob d => d.utf8String?.getD ""
  | null => ""

def dataValue : Value → Data
  | blob d => d
  | null => .empty
  | v => utf8Data v.stringValue

/-- `bind(_: Value, toIndex:)`: text is handed over as a C string. -/
def bind : Value → SQLValue
  | integer32 n => .integer n.toInt64
  | integer64 n => .integer n
  | text s => .text (cString s)
  | blob d => .blob d
  | null => .null

/-- `value(atIndex:)`: an integer is scanned as a 64-bit one. -/
def scan : SQLValue → Value
  | .null => null
  | .integer n => integer64 n
  | .text s => text ((SQLValue.text s).columnText.getD "")
  | .blob d => blob d

end Value

/-! ### Columns -/

/-- How the table coders bind a field of type `α` and read it back; `none` where
`init?(with:)` fails. -/
structure Column (α : Type) where
  bind : α → SQLValue
  read : SQLValue → Option α

namespace Column
variable {α : Type}

/-- `encodeIfPresent`. -/
def bindIfPresent (c : Column α) : Option α → SQLValue
  | some a => c.bind a
  | none => .null

/-- `decodeIfPresent`. -/
def readIfPresent (c : Column α) (v : SQLValue) : Option α :=
  match v with
  | .null => none
  | v => c.read v

/-- The field comes back as `f a`, and is not taken for NULL. -/
def Reads (c : Column α) (f : α → α) : Prop := ∀ a, c.bind a ≠ .null ∧ c.read (c.bind a) = some (f a)

/-- The field comes back unchanged. -/
def Lossless (c : Column α) : Prop := c.Reads id

theorem Reads.present {c : Column α} {f : α → α} (h : c.Reads f) (a : α) :
    c.readIfPresent (c.bind a) = some (f a) := by
  obtain ⟨hnull, hread⟩ := h a
  rw [readIfPresent]
  · exact hread
  · exact hnull

theorem Reads.ifPresent {c : Column α} {f : α → α} (h : c.Reads f) (o : Option α) :
    c.readIfPresent (c.bindIfPresent o) = o.map f := by
  cases o with
  | none => rfl
  | some a => exact h.present a

theorem Lossless.present {c : Column α} (h : c.Lossless) (a : α) : c.readIfPresent (c.bind a) = some a :=
  Reads.present h a

theorem Lossless.ifPresent {c : Column α} (h : c.Lossless) (o : Option α) :
    c.readIfPresent (c.bindIfPresent o) = o := by
  rw [Reads.ifPresent h, Option.map_id, id]

/-- A column of a type that is made into a `Value` and out of one. -/
def ofValue (archivedValue : α → Value) (initWith : Value → Option α) : Column α where
  bind a := (archivedValue a).bind
  read v := initWith (Value.scan v)

def int64 : Column Int64 where
  bind n := .integer n
  read v := some v.columnInt64

def int32 : Column Int32 where
  bind n := .integer n.toInt64
  read v := some v.columnInt64.toInt32

def bool : Column Bool where
  bind b := .integer (if b then 1 else 0)
  read v := some (v.columnInt64.toInt32 != 0)

def string : Column String where
  bind s := (Value.text s).bind
  read v := some (v.columnText.getD "")

def data : Column Data := ofValue .blob fun v => some v.dataValue

theorem int64_lossless : int64.Lossless := fun _ => ⟨SQLValue.noConfusion, rfl⟩

theorem bool_lossless : bool.Lossless := fun b => ⟨SQLValue.noConfusion, by cases b <;> rfl⟩

theorem data_lossless : data.Lossless := fun _ => ⟨SQLValue.noConfusion, rfl⟩

theorem string_reads : string.Reads cString := fun s => ⟨SQLValue.noConfusion, by
  simp [string, Value.bind, SQLValue.columnText]⟩

section Json
variable (C : JsonCoder)

/-- `ColumnJSONEncodable.archivedValue()`, which arrays and dictionaries follow too. -/
def jsonArchivedValue [JSONEncodable α] (a : α) : Value := ((C.encodeData a).map .blob).getD .null

/-- `ColumnJSONDecodable.init?(with:)`. -/
def jsonInit? [JSONCodable α] (v : Value) : Option α := C.decodeData v.dataValue

/-- The column of a type that is stored as JSON. -/
def json [JSONCodable α] : Column α := ofValue (jsonArchivedValue C) (jsonInit? C)

/-- A JSON column gives back what decoding the value's JSON gives. -/
theorem json_reads [JSONCodable α] {f : α → α} (hc : ∀ a : α, (encode a).isContainer = true)
    (hf : ∀ a : α, decode (encode a) = some (f a)) : (json C : Column α).Reads f := by
  intro a
  obtain ⟨d, hd, hr⟩ := C.decodeData_encodeData (β := α) a (hc a)
  simp [json, ofValue, jsonArchivedValue, hd, Value.bind, Value.scan, jsonInit?, Value.dataValue, hr, hf]

theorem json_lossless [JSONCodable α] [LosslessCoding α] (hc : ∀ a : α, (encode a).isContainer = true) :
    (json C : Column α).Lossless :=
  json_reads C hc LosslessCoding.decode_encode

/-- `Dictionary` of strings by strings. -/
def strings : Column (Dictionary String) :=
  ofValue (jsonArchivedValue C) fun v => (C.read v.dataValue).bind Json.decodeStrings?

end Json

end Column

end WCDB

end StudyDB
