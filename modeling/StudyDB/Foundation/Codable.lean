import StudyDB.Data.KeyMap
import StudyDB.Foundation.JsonCoder

/-! Values through JSONEncoder and JSONDecoder, and dictionaries as JSON objects.
A lossless codec carries its round trip; a decoder answers `none` where Swift's
throws. -/

namespace StudyDB

/-! ### Keyed containers -/

namespace Json

/-- What a keyed container holds: the members that were encoded, an absent
optional leaving none. -/
def keyed (ms : List (String × Option Json)) : Json :=
  ofMembers (ms.filterMap fun e => e.2.map fun j => (e.1, j))

private theorem keys_keyed (ms : List (String × Option Json)) :
    ((ms.filterMap fun e => e.2.map fun j => (e.1, j)).map Prod.fst).Sublist (ms.map Prod.fst) := by
  induction ms with
  | nil => simp
  | cons e ms ih =>
    obtain ⟨k, _ | j⟩ := e
    · exact ih.cons k
    · exact ih.cons_cons k

/-- A keyed container is an object of the members that were encoded, in the order
of the keys. -/
theorem keyed_sorted {ms : List (String × Option Json)} (h : (ms.map Prod.fst).Nodup) :
    ∃ ms', keyed ms = .object ms' ∧ (∀ e ∈ ms', (e.1, some e.2) ∈ ms) ∧ ms'.Pairwise fun a b => a.1 < b.1 := by
  obtain ⟨ms', heq, hperm, hsorted⟩ := ofMembers_sorted (h.sublist (keys_keyed ms))
  refine ⟨ms', heq, fun e he => ?_, hsorted⟩
  obtain ⟨⟨k, o⟩, hmem, ho⟩ := List.mem_filterMap.mp (hperm.mem_iff.mp he)
  obtain ⟨j, rfl, rfl⟩ := Option.map_eq_some_iff.mp ho
  exact hmem

theorem portable_keyed {ms : List (String × Option Json)} (h : (ms.map Prod.fst).Nodup)
    (hms : ∀ e ∈ ms, ∀ j ∈ e.2, j.Portable) : (keyed ms).Portable := by
  obtain ⟨ms', heq, hmem, hsorted⟩ := keyed_sorted h
  rw [heq]
  exact .object hsorted fun e he => hms _ (hmem e he) e.2 rfl

theorem member?_keyed {ms : List (String × Option Json)} (h : (ms.map Prod.fst).Nodup) (k : String) :
    (keyed ms).member? k = (ms.lookup k).join := by
  rw [keyed, member?_ofMembers (h.sublist (keys_keyed ms))]
  induction ms with
  | nil => rfl
  | cons e ms ih =>
    obtain ⟨k', o⟩ := e
    rw [List.map_cons, List.nodup_cons] at h
    have hrest := ih h.2
    by_cases hk : k = k'
    · subst hk
      cases o with
      | none =>
        have hnone : ms.lookup k = none := by
          rw [List.lookup_eq_none_iff]
          intro e he
          rw [bne_iff_ne]
          rintro rfl
          exact h.1 (List.mem_map.mpr ⟨e, he, rfl⟩)
        simpa [hnone] using hrest
      | some j => simp
    · have hne : (k == k') = false := beq_eq_false_iff_ne.mpr hk
      cases o with
      | none => simpa [List.lookup_cons, hne] using hrest
      | some j => simpa [List.lookup_cons, hne] using hrest

end Json

/-! ### Codable types -/

/-- A type that JSONEncoder writes. -/
class JSONEncodable (α : Type) where
  encode : α → Json
  portable : ∀ a, (encode a).Portable

/-- A type that JSONDecoder reads. -/
class JSONCodable (α : Type) extends JSONEncodable α where
  decode : Json → Option α

export JSONEncodable (encode)
export JSONCodable (decode)

/-- A type whose values all come back as they were written. -/
class LosslessCoding (α : Type) [JSONCodable α] : Prop where
  decode_encode : ∀ a : α, decode (encode a) = some a

attribute [simp] LosslessCoding.decode_encode

namespace Json

/-- `decode(_:forKey:)`. -/
def decodeKey (j : Json) (α : Type) [JSONCodable α] (k : String) : Option α := (j.member? k).bind decode

/-- `decodeIfPresent(_:forKey:)`: `none` where it throws. -/
def decodeKeyIfPresent (j : Json) (α : Type) [JSONCodable α] (k : String) : Option (Option α) :=
  match j.member? k with
  | none | some .null => some none
  | some v => (decode v).map some

/-- A key that was encoded is decoded. -/
theorem decodeKey_keyed {ms : List (String × Option Json)} {α : Type} [JSONCodable α] {k : String} {j : Json}
    (h : (ms.map Prod.fst).Nodup) (hk : ms.lookup k = some (some j)) : (keyed ms).decodeKey α k = decode j := by
  simp [decodeKey, member?_keyed h, hk]

theorem decodeKey_keyed_encode {ms : List (String × Option Json)} {α : Type} [JSONCodable α] [LosslessCoding α]
    {k : String} {a : α} (h : (ms.map Prod.fst).Nodup) (hk : ms.lookup k = some (some (encode a))) :
    (keyed ms).decodeKey α k = some a :=
  (decodeKey_keyed h hk).trans (LosslessCoding.decode_encode a)

/-- An optional that was encoded, as an object if at all, is decoded. -/
theorem decodeKeyIfPresent_keyed {ms : List (String × Option Json)} {α : Type} [JSONCodable α] [LosslessCoding α]
    {k : String} {o : Option α} (h : (ms.map Prod.fst).Nodup) (hk : ms.lookup k = some (o.map encode))
    (hc : ∀ a : α, (encode a).isContainer = true) : (keyed ms).decodeKeyIfPresent α k = some o := by
  rw [decodeKeyIfPresent, member?_keyed h, hk, Option.join_some]
  cases o with
  | none => rfl
  | some a =>
    have hdecode := LosslessCoding.decode_encode a
    have hcontainer := hc a
    rw [Option.map_some]
    cases hj : encode a with
    | null =>
      rw [hj] at hcontainer
      cases hcontainer
    | _ =>
      rw [hj] at hdecode
      simp [hdecode]

end Json

/-! ### Optionals under a key -/

/-- What `encode(_:forKey:)` writes of an optional: null for nil. -/
def encodeOptional {α : Type} [JSONEncodable α] : Option α → Json
  | some a => encode a
  | none => .null

theorem portable_encodeOptional {α : Type} [JSONEncodable α] (o : Option α) : (encodeOptional o).Portable := by
  cases o with
  | none => exact .null
  | some a => exact JSONEncodable.portable a

/-- A type that is not decoded from null fails on an optional that was nil. -/
theorem Json.decodeKey_keyed_optional {ms : List (String × Option Json)} {α : Type} [JSONCodable α] [LosslessCoding α]
    {k : String} {o : Option α} (h : (ms.map Prod.fst).Nodup) (hk : ms.lookup k = some (some (encodeOptional o)))
    (hnull : (decode Json.null : Option α) = none) : (keyed ms).decodeKey α k = o := by
  rw [decodeKey_keyed h hk]
  cases o with
  | none => exact hnull
  | some a => exact LosslessCoding.decode_encode a

instance : JSONCodable Int64 where
  encode n := .int n.toInt
  portable := Json.portable_int64
  decode j := j.whole?.bind int64?

instance : LosslessCoding Int64 := ⟨fun n => by simp [encode, decode, int64?_toInt]⟩

instance : JSONCodable Bool where
  encode := .bool
  portable := .bool
  decode
    | .bool b => some b
    | _ => none

instance : LosslessCoding Bool := ⟨fun _ => rfl⟩

instance : JSONCodable String where
  encode := .string
  portable := .string
  decode
    | .string s => some s
    | _ => none

instance : LosslessCoding String := ⟨fun _ => rfl⟩

/-- Where every item is read, reading a list of them never fails. -/
theorem mapM_map_eq_some {α β γ : Type} {f : α → β} {g : β → Option γ} {h : α → γ} (hg : ∀ a, g (f a) = some (h a))
    (as : List α) : (as.map f).mapM g = some (as.map h) := by
  induction as with
  | nil => rfl
  | cons a as ih => simp [hg, ih]

instance {α : Type} [JSONEncodable α] : JSONEncodable (List α) where
  encode as := .array (as.map encode)
  portable as := .array fun j hj => by
    obtain ⟨a, _, rfl⟩ := List.mem_map.mp hj
    exact JSONEncodable.portable a

instance {α : Type} [JSONCodable α] : JSONCodable (List α) where
  decode
    | .array js => js.mapM decode
    | _ => none

instance {α : Type} [JSONCodable α] [LosslessCoding α] : LosslessCoding (List α) :=
  ⟨fun as => (mapM_map_eq_some LosslessCoding.decode_encode as).trans (by rw [List.map_id'])⟩

/-! ### The coders on codable types -/

namespace JsonCoder
variable (C : JsonCoder) {α : Type}

/-- `try? JSONEncoder().encode(_:)`. -/
def encodeData [JSONEncodable α] (a : α) : Option Data := C.write (encode a)

/-- `try? JSONDecoder().decode(_:from:)`. -/
def decodeData [JSONCodable α] (d : Data) : Option α := (C.read d).bind decode

/-- What was encoded is decoded as its JSON value is. -/
theorem decodeData_encodeData [JSONEncodable α] {β : Type} [JSONCodable β] (a : α)
    (h : (encode a).isContainer = true) :
    ∃ d, C.encodeData a = some d ∧ (C.decodeData d : Option β) = decode (encode a) := by
  obtain ⟨d, hd, _, hr⟩ := C.faithful (JSONEncodable.portable a) h
  exact ⟨d, hd, by simp [decodeData, hr]⟩

end JsonCoder

/-! ### Dictionaries -/

/-- A dictionary with string keys. -/
abbrev Dictionary (ν : Type) := KeyMap String ν (KeyEq.ofDecidableEq String)

namespace Dictionary
variable {ν : Type}

theorem get_eq_lookup (d : Dictionary ν) (k : String) : d.get k = d.entries.lookup k := by
  rw [KeyMap.get]
  generalize d.entries = l
  induction l with
  | nil => rfl
  | cons e l ih =>
    rw [List.find?_cons, List.lookup_cons]
    by_cases h : e.1 = k
    · simp [h]
    · have h' : (k == e.1) = false := beq_eq_false_iff_ne.mpr (Ne.symm h)
      simpa [h, h'] using ih

theorem nodup_keys (d : Dictionary ν) : (d.entries.map Prod.fst).Nodup := by
  rw [List.Nodup, List.pairwise_map]
  exact d.distinct.imp fun h => of_decide_eq_false h

/-- A dictionary read from its sorted entries holds what the dictionary holds. -/
theorem get_ofList_mergeSort (d : Dictionary ν) (le : String × ν → String × ν → Bool) (k : String) :
    (KeyMap.ofList (d.entries.mergeSort le) : Dictionary ν).get k = d.get k := by
  have hperm := List.mergeSort_perm d.entries le
  have hnodup : ((d.entries.mergeSort le).map Prod.fst).Nodup := (hperm.map Prod.fst).nodup_iff.mpr d.nodup_keys
  have hdistinct := hnodup
  rw [List.Nodup, List.pairwise_map] at hdistinct
  rw [KeyMap.ofList_eq (hdistinct.imp fun h => decide_eq_false h), get_eq_lookup, get_eq_lookup]
  exact Json.lookup_perm hperm hnodup k

/-- A `[String: Any]` as an NSDictionary, its values being JSON values. -/
def toJson (d : Dictionary Json) : Json := .ofMembers d.entries

theorem portable_toJson {d : Dictionary Json} (h : d.All Json.Portable) : d.toJson.Portable :=
  Json.portable_ofMembers d.nodup_keys h

end Dictionary

/-- `as? [String: Any]`. -/
def Json.asDictionary? : Json → Option (Dictionary Json)
  | .object ms => some (.ofList ms)
  | _ => none

theorem asDictionary?_toJson (d : Dictionary Json) :
    ∃ d', d.toJson.asDictionary? = some d' ∧ ∀ k, d'.get k = d.get k :=
  ⟨_, rfl, Dictionary.get_ofList_mergeSort d _⟩

/-! ### String dictionaries -/

instance : JSONEncodable (Dictionary String) where
  encode d := .ofMembers (d.entries.map fun e => (e.1, .string e.2))
  portable d := by
    refine Json.portable_ofMembers (by simpa [List.map_map, Function.comp_def] using d.nodup_keys) fun e he => ?_
    obtain ⟨e, _, rfl⟩ := List.mem_map.mp he
    exact .string e.2

/-- The decoder of `[String: String]`. -/
def Json.decodeStrings? : Json → Option (Dictionary String)
  | .object ms => (ms.mapM fun e => (decode e.2).map fun s => (e.1, s)).map .ofList
  | _ => none

theorem decodeStrings?_encode (d : Dictionary String) :
    ∃ d', (encode d).decodeStrings? = some d' ∧ ∀ k, d'.get k = d.get k := by
  refine ⟨.ofList (d.entries.mergeSort fun a b => decide (a.1 ≤ b.1)), ?_, d.get_ofList_mergeSort _⟩
  simp only [encode, Json.ofMembers, Json.decodeStrings?]
  rw [← List.map_mergeSort (r := fun a b : String × String => decide (a.1 ≤ b.1)) (by simp),
    mapM_map_eq_some (h := id) fun e => by simp [decode]]
  simp

end StudyDB
