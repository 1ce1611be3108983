import Mathlib.Data.List.OfFn
import StudyDB.Foundation.Double

/-! Swift values as JSONSerialization gets them, nested arrays and dictionaries of any
objects, and what DB/JsonTool.swift makes of its writer. An object that is not valid
raises an NSException, which no Swift code catches. Proved: a valid dictionary or array
is written, and each call raises exactly if it is not valid. -/

namespace StudyDB

/-- A key of a dictionary, as an object. -/
inductive AnyKey where
  | string (s : String)
  | other (n : ℕ)
  deriving DecidableEq

namespace AnyKey

def isString : AnyKey → Bool
  | string _ => true
  | other _ => false

def text : AnyKey → String
  | string s => s
  | other _ => ""

theorem text_injOn {a b : AnyKey} (ha : a.isString = true) (hb : b.isString = true) (h : a.text = b.text) : a = b := by
  cases a with
  | string s =>
    cases b with
    | string t => exact congrArg string h
    | other n => cases hb
  | other n => cases ha

end AnyKey

/-- A value of type `Any`. The items of an array and the values of a dictionary are
families over the positions, so no key stands in a dictionary twice. -/
inductive AnyValue where
  | null
  | bool (b : Bool)
  | integer (n : ℤ) (fits : -2 ^ 63 ≤ n ∧ n < 2 ^ 64)
  | double (x : Double)
  | string (s : String)
  | date (timeIntervalSinceReferenceDate : Double)
  | data (d : Data)
  /-- An object of another class. -/
  | other
  | array (n : ℕ) (items : Fin n → AnyValue)
  | dictionary (keys : List AnyKey) (nodup : keys.Nodup) (values : Fin keys.length → AnyValue)

namespace AnyValue

/-- Strings, numbers that are finite, null, and arrays and dictionaries of these, the
dictionaries under strings. -/
def isValid : AnyValue → Bool
  | null | bool _ | integer .. | string _ => true
  | double x => x.isFinite
  | date _ | data _ | other => false
  | array _ items => (List.ofFn fun i => (items i).isValid).all id
  | dictionary keys _ values => keys.all AnyKey.isString && (List.ofFn fun i => (values i).isValid).all id

def isContainer : AnyValue → Bool
  | array .. | dictionary .. => true
  | _ => false

/-- The JSON value of a valid object; no other object is written. -/
def toJson : AnyValue → Json
  | null => .null
  | bool b => .bool b
  | integer n _ => .int n
  | double (.finite x _) => .dyadic x
  | double _ => .null
  | string s => .string s
  | date _ | data _ | other => .null
  | array _ items => .array (List.ofFn fun i => (items i).toJson)
  | dictionary keys _ values => .ofMembers (List.ofFn fun i => ((keys.get i).text, (values i).toJson))

theorem all_ofFn {n : ℕ} (f : Fin n → Bool) : (List.ofFn f).all id = true ↔ ∀ i, f i = true := by
  rw [List.all_eq_true, List.forall_mem_ofFn_iff]
  rfl

/-- The members of a dictionary have distinct keys. -/
theorem nodup_members {keys : List AnyKey} (nodup : keys.Nodup) (hkeys : keys.all AnyKey.isString = true)
    (values : Fin keys.length → Json) : ((List.ofFn fun i => ((keys.get i).text, values i)).map Prod.fst).Nodup := by
  have hmap : (List.ofFn fun i => ((keys.get i).text, values i)).map Prod.fst = keys.map AnyKey.text := by
    rw [List.map_ofFn]
    exact List.ofFn_getElem_eq_map keys AnyKey.text
  rw [hmap]
  rw [List.all_eq_true] at hkeys
  exact nodup.map_on fun a ha b hb => AnyKey.text_injOn (hkeys a ha) (hkeys b hb)

/-- What is valid is written as a JSON value that every library carries. -/
theorem carried_toJson {v : AnyValue} (h : v.isValid = true) : v.toJson.Carried := by
  induction v with
  | null => exact .null
  | bool b => exact .bool b
  | integer n fits => exact .int fits
  | double x =>
    cases x with
    | finite x fits => exact .double fits
    | infinity negative => cases h
    | nan => cases h
  | string s => exact .string s
  | date => cases h
  | data => cases h
  | other => cases h
  | array n items ih =>
    rw [isValid, all_ofFn] at h
    refine .array fun j hj => ?_
    obtain ⟨i, rfl⟩ := List.mem_ofFn.mp hj
    exact ih i (h i)
  | dictionary keys nodup values ih =>
    rw [isValid, Bool.and_eq_true, all_ofFn] at h
    refine Json.carried_ofMembers (nodup_members nodup h.1 _) fun e he => ?_
    obtain ⟨i, rfl⟩ := List.mem_ofFn.mp he
    exact ih i (h.2 i)

theorem isContainer_toJson {v : AnyValue} (h : v.isContainer = true) : v.toJson.isContainer = true := by
  cases v with
  | array => rfl
  | dictionary => rfl
  | _ => cases h

end AnyValue

/-- An exception of Objective-C, which ends the process. -/
inductive NSException where
  | invalidArgument
  deriving DecidableEq, Repr

namespace JSONSerialization
variable (coder : DoubleCoder)

/-- `isValidJSONObject(_:)`. -/
def isValidJSONObject (object : AnyValue) : Bool := object.isContainer && object.isValid

/-- `try? data(withJSONObject:options:)`: an error that is thrown becomes nil, an
exception does not. -/
def data (object : AnyValue) : Except NSException (Option Data) :=
  if isValidJSONObject object then .ok (coder.write object.toJson) else .error .invalidArgument

variable {object : AnyValue}

theorem data_eq (h : isValidJSONObject object = true) : data coder object = .ok (coder.write object.toJson) := if_pos h

theorem data_of_not_valid (h : ¬isValidJSONObject object = true) : data coder object = .error .invalidArgument :=
  if_neg h

/-- A valid object is written as text. -/
theorem write_of_valid (h : isValidJSONObject object = true) :
    ∃ json, coder.write object.toJson = some json ∧ json.IsValidUTF8 := by
  have hboth := Bool.and_eq_true _ _ ▸ h
  obtain ⟨json, hjson, hutf8, _⟩ :=
    coder.carries (AnyValue.carried_toJson hboth.2) (AnyValue.isContainer_toJson hboth.1)
  exact ⟨json, hjson, hutf8⟩

end JSONSerialization

/-! ### DB/JsonTool.swift -/

section JsonTool
variable (coder : DoubleCoder)

/-- What is made of the data that an object is written as, or nil. -/
def AnyValue.serialized {α : Type} (convert : Data → Option α) (object : AnyValue) : Except NSException (Option α) := do
  match ← JSONSerialization.data coder object with
  | some json => return convert json
  | none => return none

/-- A Swift dictionary of any values. -/
structure AnyDictionary where
  keys : List AnyKey
  nodup : keys.Nodup
  values : Fin keys.length → AnyValue

namespace AnyDictionary

/-- `as NSDictionary`. -/
def object (d : AnyDictionary) : AnyValue := .dictionary d.keys d.nodup d.values

def jsonString (d : AnyDictionary) : Except NSException (Option String) := d.object.serialized coder Data.utf8String?

def jsonData (d : AnyDictionary) : Except NSException (Option Data) := d.object.serialized coder some

end AnyDictionary

namespace AnyArray

/-- `as NSArray`. -/
def object (items : List AnyValue) : AnyValue := .array items.length items.get

def jsonString (items : List AnyValue) : Except NSException (Option String) :=
  (object items).serialized coder Data.utf8String?

def jsonData (items : List AnyValue) : Except NSException (Option Data) := (object items).serialized coder some

end AnyArray

/-! ### When a call fails with nil -/

/-- A call returns, and something exactly for a valid object. -/
def NilUnlessValid {α : Type} (valid : Prop) (outcome : Except NSException (Option α)) : Prop :=
  ∃ result, outcome = .ok result ∧ (result.isSome = true ↔ valid)

namespace AnyValue
variable {α : Type} {convert : Data → Option α} {object : AnyValue}

theorem serialized_eq (h : JSONSerialization.isValidJSONObject object = true) :
    object.serialized coder convert = .ok ((coder.write object.toJson).bind convert) := by
  rw [serialized, JSONSerialization.data_eq coder h]
  cases coder.write object.toJson <;> rfl

theorem serialized_of_not_valid (h : ¬JSONSerialization.isValidJSONObject object = true) :
    object.serialized coder convert = .error .invalidArgument := by
  rw [serialized, JSONSerialization.data_of_not_valid coder h]
  rfl

theorem serialized_of_valid (hconvert : ∀ json : Data, json.IsValidUTF8 → ∃ a, convert json = some a)
    (h : JSONSerialization.isValidJSONObject object = true) : ∃ a, object.serialized coder convert = .ok (some a) := by
  obtain ⟨json, hjson, hutf8⟩ := JSONSerialization.write_of_valid coder h
  obtain ⟨a, ha⟩ := hconvert json hutf8
  exact ⟨a, by rw [serialized_eq coder h, hjson, Option.bind_some, ha]⟩

/-- A call that converts all texts fails with nil where it ought to exactly as long as
its object is valid. -/
theorem serialized_nilUnlessValid_iff (hconvert : ∀ json : Data, json.IsValidUTF8 → ∃ a, convert json = some a) :
    NilUnlessValid (JSONSerialization.isValidJSONObject object = true) (object.serialized coder convert) ↔
      JSONSerialization.isValidJSONObject object = true := by
  by_cases h : JSONSerialization.isValidJSONObject object = true
  · obtain ⟨a, ha⟩ := serialized_of_valid coder hconvert h
    exact iff_of_true ⟨some a, ha, iff_of_true rfl h⟩ h
  · refine iff_of_false ?_ h
    rintro ⟨result, hresult, _⟩
    rw [serialized_of_not_valid coder h] at hresult
    cases hresult

end AnyValue

theorem jsonString_nilUnlessValid_iff {object : AnyValue} :
    NilUnlessValid (JSONSerialization.isValidJSONObject object = true) (object.serialized coder Data.utf8String?) ↔
      JSONSerialization.isValidJSONObject object = true := by
  refine AnyValue.serialized_nilUnlessValid_iff coder fun json hutf8 => ?_
  obtain ⟨s, hs, _⟩ := utf8Data_of_valid hutf8
  exact ⟨s, hs⟩

theorem jsonData_nilUnlessValid_iff {object : AnyValue} :
    NilUnlessValid (JSONSerialization.isValidJSONObject object = true) (object.serialized coder some) ↔
      JSONSerialization.isValidJSONObject object = true :=
  AnyValue.serialized_nilUnlessValid_iff coder fun json _ => ⟨json, rfl⟩

end JsonTool

end StudyDB
