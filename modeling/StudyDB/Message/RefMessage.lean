import StudyDB.Message.Model
import StudyDB.WCDB.Value

/-! The two codecs of a quoted message. Its column is a JSON dictionary of strings: the
writer leaves out the sender's uid and nickname; the reader puts an entry for the uid
into the message id. As a part of other JSON it is `Codable`: the encoder writes null
for nil, and the decoder throws on it. Proved: exactly which messages come back. -/

namespace StudyDB.RefMessage

open WCDB (Value)

/-- The dictionary that `archivedValue` fills. -/
def strings (r : RefMessage) : Dictionary String :=
  let dict : Dictionary String := .empty
  let dict := match r.msgId with
    | some msgId => dict.set "msgId" (intDescription msgId.toInt)
    | none => dict
  let dict := match r.type with
    | some type => dict.set "type" (intDescription type.rawValue.toInt)
    | none => dict
  match r.content with
  | some content => dict.set "content" content
  | none => dict

def archivedValue (encoder : JsonCoder) (r : RefMessage) : Value :=
  match encoder.encodeData r.strings with
  | some data => .blob data
  | none => .null

/-- What `init?(with:)` makes of the decoded dictionary. -/
def ofStrings (dictionary : Dictionary String) : RefMessage :=
  let r : RefMessage := {}
  let r := match dictionary.get "msgId" with
    | some val => { r with msgId := int64OfString? val }
    | none => r
  let r := { r with content := dictionary.get "content" }
  let r := match (dictionary.get "type").bind int32OfString? with
    | some int32Val => { r with type := MessageType.init? int32Val }
    | none => r
  -- the source assigns the entry "uid" to msgId
  let r := match dictionary.get "uid" with
    | some val => { r with msgId := int64OfString? val }
    | none => r
  match dictionary.get "nickname" with
  | some val => { r with nickname := val }
  | none => r

def init? (decoder : JsonCoder) (value : Value) : Option RefMessage :=
  if value.dataValue.size > 0 then
    ((decoder.read value.dataValue).bind Json.decodeStrings?).map ofStrings
  else none

/-! ### The round trip -/

/-- What the column keeps of a quoted message. -/
def stored (r : RefMessage) : RefMessage := { r with uid := none, nickname := "" }

/-- The reader finds what the writer wrote under the same keys, and nothing else. -/
theorem ofStrings_of_get {r : RefMessage} {dictionary : Dictionary String}
    (h : ∀ k, dictionary.get k = r.strings.get k) : ofStrings dictionary = r.stored := by
  obtain ⟨msgId, content, type, uid, nickname⟩ := r
  cases msgId <;> cases content <;> cases type <;>
    simp [ofStrings, h, strings, stored, KeyMap.get_set, MessageType.init?_rawValue]

/-- Writing and reading back loses the sender's uid and nickname, and no more. -/
theorem init?_archivedValue (coder : JsonCoder) (r : RefMessage) :
    init? coder (r.archivedValue coder) = some r.stored := by
  obtain ⟨data, hdata, _, hread⟩ := coder.faithful (JSONEncodable.portable r.strings) rfl
  obtain ⟨dictionary, hdecode, hget⟩ := decodeStrings?_encode r.strings
  have hsize : data.size > 0 := JsonCoder.size_pos_of_read hread
  have harchived : r.archivedValue coder = .blob data := by rw [archivedValue, JsonCoder.encodeData, hdata]
  rw [harchived, init?, Value.dataValue, if_pos hsize, hread, Option.bind_some, hdecode, Option.map_some,
    ofStrings_of_get hget]

/-- The codec gives a quoted message back exactly when its uid is nil and its
nickname is empty. -/
theorem init?_archivedValue_eq_some_iff (coder : JsonCoder) (r : RefMessage) :
    init? coder (r.archivedValue coder) = some r ↔ r.uid = none ∧ r.nickname = "" := by
  rw [init?_archivedValue, Option.some.injEq]
  obtain ⟨msgId, content, type, uid, nickname⟩ := r
  simp [stored, eq_comm]

/-- A quoted message with a uid is not given back. -/
theorem archivedValue_loses_uid :
    init? .text (archivedValue .text { msgId := some 1, uid := some 5, nickname := "n" }) ≠
      some { msgId := some 1, uid := some 5, nickname := "n" } := by
  rw [init?_archivedValue]
  decide

end StudyDB.RefMessage

namespace StudyDB

/-! ### Codable -/

/-- The synthesised coding by the raw value. -/
instance : JSONCodable MessageType where
  encode t := .int t.rawValue.toInt
  portable t := Json.portable_int32 t.rawValue
  decode j := (j.whole?.bind int32?).bind MessageType.init?

instance : LosslessCoding MessageType := ⟨fun t => by
  simp [encode, decode, int32?_toInt, MessageType.init?_rawValue]⟩

namespace RefMessage

/-- The members that `encode(to:)` writes. -/
def codingMembers (r : RefMessage) : List (String × Option Json) :=
  [("msgId", some (encodeOptional r.msgId)), ("content", some (encodeOptional r.content)),
    ("type", some (encodeOptional r.type)), ("uid", some (encodeOptional r.uid)),
    ("nickname", some (encode r.nickname))]

/-- `init(from:)`, which decodes every field as one that is not optional. -/
def initFrom? (j : Json) : Option RefMessage := do
  some {
    msgId := some (← j.decodeKey Int64 "msgId")
    content := some (← j.decodeKey String "content")
    type := some (← j.decodeKey MessageType "type")
    uid := some (← j.decodeKey Int64 "uid")
    nickname := ← j.decodeKey String "nickname" }

theorem nodup_codingMembers (r : RefMessage) : (r.codingMembers.map Prod.fst).Nodup := by
  simp [codingMembers]

instance : JSONCodable RefMessage where
  encode r := .keyed r.codingMembers
  portable r := by
    refine Json.portable_keyed r.nodup_codingMembers ?_
    simp only [codingMembers, List.mem_cons, List.not_mem_nil, or_false, forall_eq_or_imp, forall_eq, Option.mem_def,
      Option.some.injEq, forall_eq']
    exact ⟨portable_encodeOptional _, portable_encodeOptional _, portable_encodeOptional _, portable_encodeOptional _,
      JSONEncodable.portable _⟩
  decode := initFrom?

/-- What was encoded is decoded if no field was nil. -/
theorem initFrom?_keyed (r : RefMessage) :
    initFrom? (.keyed r.codingMembers) =
      if r.msgId ≠ none ∧ r.content ≠ none ∧ r.type ≠ none ∧ r.uid ≠ none then some r else none := by
  have hnodup := r.nodup_codingMembers
  have hmsgId : (Json.keyed r.codingMembers).decodeKey Int64 "msgId" = r.msgId :=
    Json.decodeKey_keyed_optional hnodup rfl rfl
  have hcontent : (Json.keyed r.codingMembers).decodeKey String "content" = r.content :=
    Json.decodeKey_keyed_optional hnodup rfl rfl
  have htype : (Json.keyed r.codingMembers).decodeKey MessageType "type" = r.type :=
    Json.decodeKey_keyed_optional hnodup rfl rfl
  have huid : (Json.keyed r.codingMembers).decodeKey Int64 "uid" = r.uid :=
    Json.decodeKey_keyed_optional hnodup rfl rfl
  have hnickname : (Json.keyed r.codingMembers).decodeKey String "nickname" = some r.nickname :=
    Json.decodeKey_keyed_encode hnodup rfl
  rw [initFrom?, hmsgId, hcontent, htype, huid, hnickname]
  obtain ⟨msgId, content, type, uid, nickname⟩ := r
  cases msgId <;> cases content <;> cases type <;> cases uid <;> rfl

/-- Encoding and decoding with one coder gives a quoted message back exactly if none of
its four optional fields is nil. -/
theorem codable_roundTrip_iff (coder : JsonCoder) (r : RefMessage) :
    ((coder.encodeData r).bind fun data => (coder.decodeData data : Option RefMessage)) = some r ↔
      r.msgId ≠ none ∧ r.content ≠ none ∧ r.type ≠ none ∧ r.uid ≠ none := by
  obtain ⟨data, hdata, hdecode⟩ := coder.decodeData_encodeData (β := RefMessage) r rfl
  have hinit : (decode (encode r) : Option RefMessage) = initFrom? (.keyed r.codingMembers) := rfl
  rw [hdata, Option.bind_some, hdecode, hinit, initFrom?_keyed]
  by_cases hfull : r.msgId ≠ none ∧ r.content ≠ none ∧ r.type ≠ none ∧ r.uid ≠ none
  · exact iff_of_true (if_pos hfull) hfull
  · rw [if_neg hfull]
    exact iff_of_false (Option.some_ne_none r).symm hfull

/-- A quoted message without a type is encoded, but not decoded. -/
theorem codable_loses_untyped :
    let r : RefMessage := { msgId := some 1, content := some "c", uid := some 5, nickname := "n" }
    ((JsonCoder.text.encodeData r).bind fun data => (JsonCoder.text.decodeData data : Option RefMessage)) ≠ some r := by
  intro r
  obtain ⟨data, hdata, hdecode⟩ := JsonCoder.text.decodeData_encodeData (β := RefMessage) r rfl
  have hinit : (decode (encode r) : Option RefMessage) = initFrom? (.keyed r.codingMembers) := rfl
  rw [hdata, Option.bind_some, hdecode, hinit, initFrom?_keyed, if_neg fun h => h.2.2.1 rfl]
  exact (Option.some_ne_none r).symm

end RefMessage

end StudyDB
