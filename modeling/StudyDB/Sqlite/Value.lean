import Mathlib.Data.List.TakeWhile
import StudyDB.Foundation.JsonCoder

/-! The values that an SQLite column stores, and what the C interface reads from
them. Text goes in and out as C strings, which end at the first U+0000. -/

namespace StudyDB

/-- A stored value, by storage class. -/
inductive SQLValue where
  | null
  | integer (n : Int64)
  | text (s : String)
  | blob (d : Data)
  deriving DecidableEq

/-- A string as far as a C string carries it. -/
def cString (s : String) : String := String.ofList (s.toList.takeWhile fun c => c ≠ '\x00')

/-- A string that a C string carries whole. -/
def NulFree (s : String) : Prop := '\x00' ∉ s.toList

theorem cString_eq_self_iff {s : String} : cString s = s ↔ NulFree s := by
  rw [← String.toList_inj, cString, String.toList_ofList, List.takeWhile_eq_self_iff, NulFree]
  simp only [ne_eq, decide_eq_true_eq]
  exact ⟨fun h hmem => h _ hmem rfl, fun h c hc hnul => h (hnul ▸ hc)⟩

@[simp] theorem cString_cString (s : String) : cString (cString s) = cString s := by
  rw [cString_eq_self_iff, NulFree, cString, String.toList_ofList]
  intro h
  simpa using List.mem_takeWhile_imp h

/-- `sqlite3Isspace`. -/
def Sqlite.isSpace (c : Char) : Bool := c = ' ' || (0x09 ≤ c.toNat && c.toNat ≤ 0x0D)

/-- A text's leading integer, between the 64-bit limits. -/
def leadingInt64 (s : String) : Int64 :=
  Int64.ofInt (max (-2 ^ 63) (min (Decimal.leading (s.toList.dropWhile Sqlite.isSpace)) (2 ^ 63 - 1)))

namespace SQLValue

/-- `sqlite3_column_text`; a null pointer is `none`. -/
def columnText : SQLValue → Option String
  | null => none
  | integer n => some (String.ofList (Decimal.print n.toInt))
  | text s => some (cString s)
  | blob d => some (cString (d.utf8String?.getD ""))

def isBlob : SQLValue → Bool
  | blob _ => true
  | _ => false

/-- `sqlite3_column_int64`. -/
def columnInt64 : SQLValue → Int64
  | null => 0
  | integer n => n
  | text s => leadingInt64 s
  | blob d => leadingInt64 (d.utf8String?.getD "")

end SQLValue

end StudyDB
