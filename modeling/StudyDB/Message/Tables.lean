import StudyDB.Message.Conversion
import StudyDB.Message.RefMessage
import StudyDB.WCDB.Table

/-! How the three database models of messages are bound to the columns of their
tables and read back. None of the tables declares a constraint. -/

namespace StudyDB

open WCDB (Value Column TableCodable)

/-! ### Column types -/

/-- The synthesised coding of `FriendRelation`. -/
instance : JSONCodable FriendRelation where
  encode r := .keyed [("bfFriend", some (encode r.bfFriend)), ("remarkName", some (encode r.remarkName))]
  portable r := Json.portable_keyed (by simp) (by simp [JSONEncodable.portable])
  decode j := do
    some { bfFriend := ← j.decodeKey Bool "bfFriend", remarkName := ← j.decodeKey String "remarkName" }

instance : LosslessCoding FriendRelation := ⟨fun r => by
  simp only [encode, decode]
  rw [Json.decodeKey_keyed (by simp) rfl, Json.decodeKey_keyed (by simp) rfl]
  rfl⟩

/-- The synthesised coding of `AtUser`. -/
instance : JSONCodable AtUser where
  encode u := .keyed [("uid", some (encode u.uid)), ("nickName", some (encode u.nickName)),
    ("friendRelation", u.friendRelation.map encode)]
  portable u := by
    refine Json.portable_keyed (by simp) ?_
    simp only [List.mem_cons, List.not_mem_nil, or_false, forall_eq_or_imp, forall_eq, Option.mem_def,
      Option.some.injEq, Option.map_eq_some_iff]
    exact ⟨fun _ h => h ▸ JSONEncodable.portable _, fun _ h => h ▸ JSONEncodable.portable _,
      fun _ ⟨r, _, h⟩ => h ▸ JSONEncodable.portable r⟩
  decode j := do
    some {
      uid := ← j.decodeKey Int64 "uid"
      nickName := ← j.decodeKey String "nickName"
      friendRelation := ← j.decodeKeyIfPresent FriendRelation "friendRelation" }

instance : LosslessCoding AtUser := ⟨fun u => by
  have huid : decode (encode u.uid) = some u.uid := LosslessCoding.decode_encode _
  simp only [encode, decode] at huid ⊢
  rw [Json.decodeKey_keyed (by simp) rfl, Json.decodeKey_keyed (by simp) rfl,
    Json.decodeKeyIfPresent_keyed (o := u.friendRelation) (by simp) rfl fun _ => rfl]
  simp only [decode, huid]
  rfl⟩

namespace ChatType

def archivedValue (c : ChatType) : Value := .integer32 c.rawValue

def column : Column ChatType := .ofValue archivedValue fun v => init? v.int32Value

end ChatType

namespace MessageType

def archivedValue (t : MessageType) : Value := .integer32 t.rawValue

def column : Column MessageType := .ofValue archivedValue fun v => init? v.int32Value

end MessageType

namespace CallType

def archivedValue (c : CallType) : Value := .integer64 c.rawValue

def column : Column CallType := .ofValue archivedValue fun v => init? v.intValue

end CallType

namespace CallStatus

def archivedValue (c : CallStatus) : Value := .integer64 c.rawValue

def column : Column CallStatus := .ofValue archivedValue fun v => init? v.intValue

end CallStatus

def RefMessage.column (coder : JsonCoder) : Column RefMessage := .ofValue (archivedValue coder) (init? coder)

/-! ### Tables -/

section Tables
variable (coder : JsonCoder)

/-- The columns that stand first in the three tables. -/
def MessageDBFields.encode (m : MessageDBFields) : List (String × SQLValue) :=
  [("msgId", Column.int64.bindIfPresent m.msgId),
    ("flag", Column.int64.bindIfPresent m.flag),
    ("chatType", ChatType.column.bindIfPresent m.chatType),
    ("messageType", MessageType.column.bindIfPresent m.messageType),
    ("content", Column.string.bindIfPresent m.content),
    ("refMsg", (RefMessage.column coder).bindIfPresent m.refMsg),
    ("atUids", (Column.json coder).bindIfPresent m.atUids),
    ("atUsers", (Column.json coder).bindIfPresent m.atUsers),
    ("atMe", Column.bool.bind m.atMe)]

def MessageDBFields.decode (r : Sqlite.Row SQLValue) : Option MessageDBFields := do
  some {
    msgId := Column.int64.readIfPresent (r "msgId")
    flag := Column.int64.readIfPresent (r "flag")
    chatType := ChatType.column.readIfPresent (r "chatType")
    messageType := MessageType.column.readIfPresent (r "messageType")
    content := Column.string.readIfPresent (r "content")
    refMsg := (RefMessage.column coder).readIfPresent (r "refMsg")
    atUids := (Column.json coder).readIfPresent (r "atUids")
    atUsers := (Column.json coder).readIfPresent (r "atUsers")
    atMe := ← Column.bool.read (r "atMe")
    extra := (Column.strings coder).readIfPresent (r "extra") }

def MessageDBModel.ofRow (r : Sqlite.Row SQLValue) : Option MessageDBModel :=
  (MessageDBFields.decode coder r).map fun fields =>
    { toMessageDBFields := fields, subInfo := Column.data.readIfPresent (r "subInfo") }

def MessageDBModel.table : TableCodable MessageDBModel where
  tableName := "chats"
  keys := ["msgId", "flag", "chatType", "messageType", "content", "refMsg", "atUids", "atUsers", "atMe",
    "subInfo", "extra"]
  unique := []
  encode m := m.toMessageDBFields.encode coder ++
    [("subInfo", Column.data.bindIfPresent m.subInfo), ("extra", (Column.strings coder).bindIfPresent m.extra)]
  decode := ofRow coder
  encode_keys _ := rfl

def MessageDBModel2.ofRow (r : Sqlite.Row SQLValue) : Option MessageDBModel2 :=
  (MessageDBFields.decode coder r).map fun fields =>
    { toMessageDBFields := fields, subInfo := Column.string.readIfPresent (r "subInfo") }

def MessageDBModel2.table : TableCodable MessageDBModel2 where
  tableName := "chats2"
  keys := ["msgId", "flag", "chatType", "messageType", "content", "refMsg", "atUids", "atUsers", "atMe",
    "subInfo", "extra"]
  unique := []
  encode m := m.toMessageDBFields.encode coder ++
    [("subInfo", Column.string.bindIfPresent m.subInfo), ("extra", (Column.strings coder).bindIfPresent m.extra)]
  decode := ofRow coder
  encode_keys _ := rfl

def MessageDBModel3.ofRow (r : Sqlite.Row SQLValue) : Option MessageDBModel3 :=
  (MessageDBFields.decode coder r).map fun fields =>
    { toMessageDBFields := fields
      fileSize := Column.int64.readIfPresent (r "fileSize")
      fileName := Column.string.readIfPresent (r "fileName")
      url := Column.string.readIfPresent (r "url")
      width := Column.int64.readIfPresent (r "width")
      height := Column.int64.readIfPresent (r "height")
      thumbFileName := Column.string.readIfPresent (r "thumbFileName")
      thumbUrl := Column.string.readIfPresent (r "thumbUrl")
      compressed := Column.bool.readIfPresent (r "compressed")
      cardUid := Column.int64.readIfPresent (r "cardUid")
      cardName := Column.string.readIfPresent (r "cardName")
      cardIcon := Column.string.readIfPresent (r "cardIcon")
      cardId := Column.string.readIfPresent (r "cardId")
      lat := Column.int32.readIfPresent (r "lat")
      lng := Column.int32.readIfPresent (r "lng")
      address := Column.string.readIfPresent (r "address")
      noticeId := Column.int64.readIfPresent (r "noticeId")
      showNotify := Column.bool.readIfPresent (r "showNotify")
      mimeType := Column.string.readIfPresent (r "mimeType")
      localFileName := Column.string.readIfPresent (r "localFileName")
      callType := CallType.column.readIfPresent (r "callType")
      callStatus := CallStatus.column.readIfPresent (r "callStatus")
      duration := Column.int64.readIfPresent (r "duration")
      channelName := Column.string.readIfPresent (r "channelName") }

def MessageDBModel3.table : TableCodable MessageDBModel3 where
  tableName := "chats3"
  keys := ["msgId", "flag", "chatType", "messageType", "content", "refMsg", "atUids", "atUsers", "atMe", "extra",
    "fileSize", "fileName", "url", "width", "height", "thumbFileName", "thumbUrl", "compressed",
    "cardUid", "cardName", "cardIcon", "cardId", "lat", "lng", "address", "noticeId", "showNotify",
    "mimeType", "localFileName", "callType", "callStatus", "duration", "channelName"]
  unique := []
  encode m := m.toMessageDBFields.encode coder ++
    [("extra", (Column.strings coder).bindIfPresent m.extra),
      ("fileSize", Column.int64.bindIfPresent m.fileSize),
      ("fileName", Column.string.bindIfPresent m.fileName),
      ("url", Column.string.bindIfPresent m.url),
      ("width", Column.int64.bindIfPresent m.width),
      ("height", Column.int64.bindIfPresent m.height),
      ("thumbFileName", Column.string.bindIfPresent m.thumbFileName),
      ("thumbUrl", Column.string.bindIfPresent m.thumbUrl),
      ("compressed", Column.bool.bindIfPresent m.compressed),
      ("cardUid", Column.int64.bindIfPresent m.cardUid),
      ("cardName", Column.string.bindIfPresent m.cardName),
      ("cardIcon", Column.string.bindIfPresent m.cardIcon),
      ("cardId", Column.string.bindIfPresent m.cardId),
      ("lat", Column.int32.bindIfPresent m.lat),
      ("lng", Column.int32.bindIfPresent m.lng),
      ("address", Column.string.bindIfPresent m.address),
      ("noticeId", Column.int64.bindIfPresent m.noticeId),
      ("showNotify", Column.bool.bindIfPresent m.showNotify),
      ("mimeType", Column.string.bindIfPresent m.mimeType),
      ("localFileName", Column.string.bindIfPresent m.localFileName),
      ("callType", CallType.column.bindIfPresent m.callType),
      ("callStatus", CallStatus.column.bindIfPresent m.callStatus),
      ("duration", Column.int64.bindIfPresent m.duration),
      ("channelName", Column.string.bindIfPresent m.channelName)]
  decode := ofRow coder
  encode_keys _ := rfl

end Tables

end StudyDB
