import StudyDB.Json.RoundTrip

/-! What the code relies on of Foundation's two JSON libraries. Both write UTF-8
text and read it back; a coder is any pair of functions that does so for the
portable containers. JSONSerialization hands numbers out as NSNumber, whose
casts succeed when they are exact. -/

namespace StudyDB

abbrev Data := ByteArray

instance : DecidableEq Data := fun a b => decidable_of_iff (a.data = b.data) ByteArray.ext_iff.symm

/-- `String(data:encoding: .utf8)`. -/
def Data.utf8String? (d : Data) : Option String := String.fromUTF8? d

/-- `data(using: .utf8)`, which never fails for a Swift string. -/
def utf8Data (s : String) : Data := s.toUTF8

@[simp] theorem utf8String?_utf8Data (s : String) : (utf8Data s).utf8String? = some s :=
  dif_pos s.isValidUTF8

theorem utf8Data_of_valid {d : Data} (h : d.IsValidUTF8) : ∃ s, d.utf8String? = some s ∧ utf8Data s = d :=
  ⟨String.fromUTF8 d h, by rw [Data.utf8String?, String.fromUTF8?, dif_pos h], rfl⟩

/-- A JSON library: `none` where it throws. -/
structure JsonCoder where
  write : Json → Option Data
  read : Data → Option Json
  read_empty : read .empty = none
  faithful : ∀ {j : Json}, j.Portable → j.isContainer = true →
    ∃ d, write j = some d ∧ d.IsValidUTF8 ∧ read d = some j

namespace JsonCoder

/-- The coder that writes and reads JSON text. -/
def text : JsonCoder where
  write j := some (utf8Data (String.ofList (Json.print j)))
  read d := d.utf8String?.bind fun s => (Json.parse s.toList).filter Json.isContainer
  read_empty := by
    have h : (utf8Data "").utf8String? = some "" := utf8String?_utf8Data ""
    rw [show (ByteArray.empty : Data) = utf8Data "" from rfl, h]
    rfl
  faithful {j} _ hc := by
    refine ⟨_, rfl, String.isValidUTF8 _, ?_⟩
    simp [Json.parse_print, Option.filter, hc]

/-- What a coder writes is never empty. -/
theorem size_pos_of_read {C : JsonCoder} {d : Data} {j : Json} (h : C.read d = some j) : 0 < d.size := by
  rcases Nat.eq_zero_or_pos d.size with h0 | hpos
  · rw [ByteArray.size_eq_zero_iff.mp h0, C.read_empty] at h
    cases h
  · exact hpos

/-- What is written is the text of a string, from which it is read back. -/
theorem exists_string (C : JsonCoder) {j : Json} (h : j.Portable) (hc : j.isContainer = true) :
    ∃ d s, C.write j = some d ∧ d.utf8String? = some s ∧ utf8Data s = d ∧ C.read d = some j := by
  obtain ⟨d, hd, hvalid, hr⟩ := C.faithful h hc
  obtain ⟨s, hs, hsd⟩ := utf8Data_of_valid hvalid
  exact ⟨d, s, hd, hs, hsd, hr⟩

end JsonCoder

/-! ### Machine integers -/

/-- `Int64(exactly:)`. -/
def int64? (n : ℤ) : Option Int64 := if -2 ^ 63 ≤ n ∧ n < 2 ^ 63 then some (Int64.ofInt n) else none

/-- `Int32(exactly:)`. -/
def int32? (n : ℤ) : Option Int32 := if -2 ^ 31 ≤ n ∧ n < 2 ^ 31 then some (Int32.ofInt n) else none

theorem int64?_toInt (n : Int64) : int64? n.toInt = some n := by
  rw [int64?, if_pos ⟨Int64.le_toInt n, Int64.toInt_lt n⟩, Int64.ofInt_toInt]

theorem toInt_of_int64? {n : ℤ} {m : Int64} (h : int64? n = some m) : m.toInt = n := by
  unfold int64? at h
  split at h
  · rename_i hn
    cases h
    exact Int64.toInt_ofInt_of_le hn.1 hn.2
  · cases h

theorem int32?_toInt (n : Int32) : int32? n.toInt = some n := by
  rw [int32?, if_pos ⟨Int32.le_toInt n, Int32.toInt_lt n⟩, Int32.ofInt_toInt]

/-! ### Casts of what JSONSerialization reads -/

namespace Json

/-- The integer that a numeral stands for, if it is one. -/
def whole? : Json → Option ℤ
  | .number m e =>
    if 0 ≤ e then some (m * 10 ^ e.toNat)
    else if m % 10 ^ (-e).toNat = 0 then some (m / 10 ^ (-e).toNat) else none
  | _ => none

/-- A number or a boolean as an NSNumber, if its value is an integer. -/
def nsNumber? : Json → Option ℤ
  | .bool b => some b.toInt
  | j => j.whole?

/-- `as? Int64`, and `as? Int` on a 64-bit machine. -/
def asInt64? (j : Json) : Option Int64 := j.nsNumber?.bind int64?

/-- `as? Int32`. -/
def asInt32? (j : Json) : Option Int32 := j.nsNumber?.bind int32?

/-- `as? Bool`: a boolean, or a number that is exactly one. -/
def asBool? (j : Json) : Option Bool :=
  match j.nsNumber? with
  | some 0 => some false
  | some 1 => some true
  | _ => none

/-- `as? String`. -/
def asString? : Json → Option String
  | .string s => some s
  | _ => none

@[simp] theorem whole?_int (n : ℤ) : (int n).whole? = some n := by simp [int, whole?]

@[simp] theorem asInt64?_int (n : Int64) : (int n.toInt).asInt64? = some n := by
  rw [asInt64?, nsNumber?.eq_def]
  simp [int, whole?, int64?_toInt]

@[simp] theorem asInt32?_int (n : Int32) : (int n.toInt).asInt32? = some n := by
  rw [asInt32?, nsNumber?.eq_def]
  simp [int, whole?, int32?_toInt]

@[simp] theorem asBool?_bool (b : Bool) : (bool b).asBool? = some b := by cases b <;> rfl

@[simp] theorem asString?_string (s : String) : (string s).asString? = some s := rfl

theorem portable_int64 (n : Int64) : (int n.toInt).Portable :=
  .int ⟨Int64.le_toInt n, by have := Int64.toInt_lt n; omega⟩

theorem portable_int32 (n : Int32) : (int n.toInt).Portable :=
  .int ⟨by have := Int32.le_toInt n; omega, by have := Int32.toInt_lt n; omega⟩

end Json

end StudyDB
