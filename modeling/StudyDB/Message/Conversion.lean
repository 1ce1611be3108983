import StudyDB.Message.SubInfo

/-! From messages to the three database models and back. The first two carry the
fields of the subclasses as a JSON dictionary, as data and as a string; the third
carries them as columns. Proved: each gives the message back. -/

namespace StudyDB

open KeyMap (get_set get_assign)

/-! ### The code -/

/-- The common fields, copied to a database model. -/
def MessageModel.toDBFields (m : MessageModel) : MessageDBFields where
  msgId := m.msgId
  flag := m.flag
  chatType := m.chatType
  messageType := m.messageType
  content := m.content
  refMsg := m.refMsg
  atUids := m.atUids
  atUsers := m.atUsers
  atMe := m.atMe
  extra := m.extra

/-- The common fields, copied from a database model. -/
def MessageDBFields.toMessageModel (dbModel : MessageDBFields) : MessageModel where
  msgId := dbModel.msgId
  flag := dbModel.flag
  chatType := dbModel.chatType
  messageType := dbModel.messageType
  content := dbModel.content
  refMsg := dbModel.refMsg
  atUids := dbModel.atUids
  atUsers := dbModel.atUsers
  atMe := dbModel.atMe
  extra := dbModel.extra

/-- A new object of the class of the message type, with the common fields. -/
def MessageDBFields.newModel (dbModel : MessageDBFields) : AnyMessage :=
  (AnyMessage.model dbModel.messageType).setBase dbModel.toMessageModel

section Code
variable (serialization : JsonCoder)

/-- `Dictionary.jsonData()`. -/
def Dictionary.jsonData (dict : Dictionary Json) : Option Data := serialization.write dict.toJson

/-- `Dictionary.jsonString()`. -/
def Dictionary.jsonString (dict : Dictionary Json) : Option String :=
  (serialization.write dict.toJson).bind Data.utf8String?

/-- `Data.jsonValue()`. -/
def Data.jsonValue (d : Data) : Option Json := serialization.read d

/-- `String.jsonValue()`. -/
def stringJsonValue (s : String) : Option Json := serialization.read (utf8Data s)

namespace AnyMessage

def dbModel (m : AnyMessage) : MessageDBModel where
  toMessageDBFields := m.base.toDBFields
  subInfo := Dictionary.jsonData serialization m.encodeSubInfoDict

def dbModel2 (m : AnyMessage) : MessageDBModel2 where
  toMessageDBFields := m.base.toDBFields
  subInfo := Dictionary.jsonString serialization m.encodeSubInfoDict

def dbModel3 (m : AnyMessage) : MessageDBModel3 :=
  m.encodeSubInfoModel { toMessageDBFields := m.base.toDBFields }

end AnyMessage

/-- `if let subInfoDict = json as? [String: Any] { model.decodeSubInfoDict(subInfoDict) }`. -/
def AnyMessage.decodeSubInfo (model : AnyMessage) (json : Option Json) : AnyMessage :=
  match json.bind Json.asDictionary? with
  | some subInfoDict => model.decodeSubInfoDict subInfoDict
  | none => model

def MessageDBModel.model (dbModel : MessageDBModel) : AnyMessage :=
  dbModel.newModel.decodeSubInfo (dbModel.subInfo.bind (Data.jsonValue serialization))

def MessageDBModel2.model (dbModel : MessageDBModel2) : AnyMessage :=
  dbModel.newModel.decodeSubInfo (dbModel.subInfo.bind (stringJsonValue serialization))

end Code

def MessageDBModel3.model (dbModel : MessageDBModel3) : AnyMessage :=
  dbModel.newModel.decodeSubInfoModel dbModel

/-! ### Each class reads what it writes -/

@[simp] theorem toMessageModel_toDBFields (m : MessageModel) : m.toDBFields.toMessageModel = m := rfl

/-- A new object of a class, with the given common fields. -/
def MessageClass.new (b : MessageModel) : MessageClass → AnyMessage
  | .message => .message b
  | .text => .text { toMessageModel := b }
  | .image => .image { toMessageModel := b }
  | .video => .video { toMessageModel := b }
  | .file => .file { toMessageModel := b }
  | .card => .card { toMessageModel := b }
  | .location => .location { toMessageModel := b }
  | .notice => .notice { toMessageModel := b }
  | .call => .call { toMessageModel := b }

theorem setBase_model (t : Option MessageType) (b : MessageModel) :
    (AnyMessage.model t).setBase b = (AnyMessage.model t).cls.new b := by
  obtain _ | t := t
  · rfl
  · cases t <;> rfl

section Dictionaries
variable {dict : Dictionary Json}

/-- The media fields are read from their three entries, whatever else there is. -/
theorem MediaMessageModel.decodeSubInfoDict_of_get (m : MediaMessageModel)
    (hsize : dict.get "fileSize" = some (.int64 m.fileSize)) (hname : dict.get "fileName" = m.fileName.map .string)
    (hurl : dict.get "url" = m.url.map .string) :
    decodeSubInfoDict { toMessageModel := m.toMessageModel } dict = m := by
  simp [decodeSubInfoDict, MessageModel.decodeSubInfoDict, Dictionary.load, hsize, hname, hurl]

theorem ImageMessageModel.decodeSubInfoDict_encode (m : ImageMessageModel)
    (h : ∀ k, dict.get k = m.encodeSubInfoDict.get k) :
    decodeSubInfoDict { toMessageModel := m.toMessageModel } dict = m := by
  simp [decodeSubInfoDict, encodeSubInfoDict, MediaMessageModel.encodeSubInfoDict,
    MediaMessageModel.decodeSubInfoDict_of_get, Dictionary.load, h, get_set, get_assign]

theorem VideoMessageModel.decodeSubInfoDict_encode (m : VideoMessageModel)
    (h : ∀ k, dict.get k = m.encodeSubInfoDict.get k) :
    decodeSubInfoDict { toMessageModel := m.toMessageModel } dict = m := by
  simp [decodeSubInfoDict, encodeSubInfoDict, MediaMessageModel.encodeSubInfoDict,
    MediaMessageModel.decodeSubInfoDict_of_get, Dictionary.load, h, get_set, get_assign]

theorem FileMessageModel.decodeSubInfoDict_encode (m : FileMessageModel)
    (h : ∀ k, dict.get k = m.encodeSubInfoDict.get k) :
    decodeSubInfoDict { toMessageModel := m.toMessageModel } dict = m := by
  simp [decodeSubInfoDict, encodeSubInfoDict, MediaMessageModel.encodeSubInfoDict,
    MediaMessageModel.decodeSubInfoDict_of_get, Dictionary.load, h, get_set, get_assign]

theorem CardMessageModel.decodeSubInfoDict_encode (m : CardMessageModel)
    (h : ∀ k, dict.get k = m.encodeSubInfoDict.get k) :
    decodeSubInfoDict { toMessageModel := m.toMessageModel } dict = m := by
  simp [decodeSubInfoDict, encodeSubInfoDict, MessageModel.decodeSubInfoDict, Dictionary.load, h, get_set]

theorem LocationMessageModel.decodeSubInfoDict_encode (m : LocationMessageModel)
    (h : ∀ k, dict.get k = m.encodeSubInfoDict.get k) :
    decodeSubInfoDict { toMessageModel := m.toMessageModel } dict = m := by
  simp [decodeSubInfoDict, encodeSubInfoDict, MessageModel.decodeSubInfoDict, Dictionary.load, h, get_set]

theorem NoticeMessageModel.decodeSubInfoDict_encode (m : NoticeMessageModel)
    (h : ∀ k, dict.get k = m.encodeSubInfoDict.get k) :
    decodeSubInfoDict { toMessageModel := m.toMessageModel } dict = m := by
  simp [decodeSubInfoDict, encodeSubInfoDict, MessageModel.decodeSubInfoDict, Dictionary.load, h, get_set]

theorem CallMessageModel.decodeSubInfoDict_encode (m : CallMessageModel)
    (h : ∀ k, dict.get k = m.encodeSubInfoDict.get k) :
    decodeSubInfoDict { toMessageModel := m.toMessageModel } dict = m := by
  simp [decodeSubInfoDict, encodeSubInfoDict, MessageModel.decodeSubInfoDict, Dictionary.load, h, get_set]

namespace AnyMessage

/-- A new object of a message's class becomes the message, when it is given the
message's common fields and a dictionary with the entries that the message writes. -/
theorem decodeSubInfoDict_encode (m : AnyMessage) (h : ∀ k, dict.get k = m.encodeSubInfoDict.get k) :
    (m.cls.new m.base).decodeSubInfoDict dict = m := by
  cases m with
  | message m => rfl
  | text m => rfl
  | image m => exact congrArg image (m.decodeSubInfoDict_encode h)
  | video m => exact congrArg video (m.decodeSubInfoDict_encode h)
  | file m => exact congrArg file (m.decodeSubInfoDict_encode h)
  | card m => exact congrArg card (m.decodeSubInfoDict_encode h)
  | location m => exact congrArg location (m.decodeSubInfoDict_encode h)
  | notice m => exact congrArg notice (m.decodeSubInfoDict_encode h)
  | call m => exact congrArg call (m.decodeSubInfoDict_encode h)

/-- The columns do the same. -/
theorem decodeSubInfoModel_encode (m : AnyMessage) (fields : MessageDBFields) :
    (m.cls.new m.base).decodeSubInfoModel (m.encodeSubInfoModel { toMessageDBFields := fields }) = m := by
  cases m <;> rfl

end AnyMessage

end Dictionaries

/-! ### What is written is portable -/

private theorem portable_strings (o : Option String) : ∀ v ∈ o.map Json.string, v.Portable := by
  intro v hv
  obtain ⟨s, _, rfl⟩ := Option.map_eq_some_iff.mp hv
  exact .string s

theorem MediaMessageModel.portable_encodeSubInfoDict (m : MediaMessageModel) :
    m.encodeSubInfoDict.All Json.Portable :=
  ((KeyMap.All.empty.set (Json.portable_int64 _) _).assign (portable_strings _) _).assign (portable_strings _) _

theorem AnyMessage.portable_encodeSubInfoDict (m : AnyMessage) : m.encodeSubInfoDict.All Json.Portable := by
  cases m with
  | message m => exact KeyMap.All.empty
  | text m => exact KeyMap.All.empty
  | image m =>
    exact (((m.portable_encodeSubInfoDict.set (Json.portable_int64 _) _).set (Json.portable_int64 _) _).assign
      (portable_strings _) _).assign (portable_strings _) _
  | video m => exact m.portable_encodeSubInfoDict.set (.bool _) _
  | file m => exact (m.portable_encodeSubInfoDict.set (.string _) _).assign (portable_strings _) _
  | card m =>
    exact (((KeyMap.All.empty.set (Json.portable_int64 _) _).set (.string _) _).set (.string _) _).set (.string _) _
  | location m =>
    exact ((KeyMap.All.empty.set (Json.portable_int32 _) _).set (Json.portable_int32 _) _).set (.string _) _
  | notice m => exact (KeyMap.All.empty.set (Json.portable_int64 _) _).set (.bool _) _
  | call m =>
    exact (((KeyMap.All.empty.set (Json.portable_int64 _) _).set (Json.portable_int64 _) _).set
      (Json.portable_int64 _) _).set (.string _) _

/-! ### The three representations -/

namespace AnyMessage
variable {serialization : JsonCoder} {t : MessageType} {m : AnyMessage}

/-- The stored message type makes an object of the message's class again. -/
theorem newModel_toDBFields (h : m.MadeFor t) : m.base.toDBFields.newModel = m.cls.new m.base := by
  have htype : m.base.toDBFields.messageType = some t := h.2
  rw [MessageDBFields.newModel, htype, setBase_model, toMessageModel_toDBFields, h.1]

theorem decodeSubInfo_toJson (m : AnyMessage) :
    (m.cls.new m.base).decodeSubInfo (some m.encodeSubInfoDict.toJson) = m := by
  obtain ⟨dict, hdict, hget⟩ := asDictionary?_toJson m.encodeSubInfoDict
  rw [decodeSubInfo, Option.bind_some, hdict]
  exact m.decodeSubInfoDict_encode hget

/-- The dictionary's text is written, as data and as a string, and read back. -/
theorem write_encodeSubInfoDict (serialization : JsonCoder) (m : AnyMessage) :
    ∃ d s, serialization.write m.encodeSubInfoDict.toJson = some d ∧ d.utf8String? = some s ∧ utf8Data s = d ∧
      serialization.read d = some m.encodeSubInfoDict.toJson :=
  serialization.exists_string (Dictionary.portable_toJson m.portable_encodeSubInfoDict) rfl

theorem model_dbModel (h : m.MadeFor t) : (m.dbModel serialization).model serialization = m := by
  obtain ⟨d, _, hd, _, _, hr⟩ := write_encodeSubInfoDict serialization m
  have hread : (m.dbModel serialization).subInfo.bind (Data.jsonValue serialization) =
      some m.encodeSubInfoDict.toJson := by
    simp [dbModel, Dictionary.jsonData, hd, Data.jsonValue, hr]
  rw [MessageDBModel.model, hread, dbModel, newModel_toDBFields h, decodeSubInfo_toJson]

theorem model_dbModel2 (h : m.MadeFor t) : (m.dbModel2 serialization).model serialization = m := by
  obtain ⟨d, s, hd, hs, hsd, hr⟩ := write_encodeSubInfoDict serialization m
  have hread : (m.dbModel2 serialization).subInfo.bind (stringJsonValue serialization) =
      some m.encodeSubInfoDict.toJson := by
    simp [dbModel2, Dictionary.jsonString, hd, hs, stringJsonValue, hsd, hr]
  rw [MessageDBModel2.model, hread, dbModel2, newModel_toDBFields h, decodeSubInfo_toJson]

/-- Encoding the fields of a subclass leaves the common columns alone. -/
@[simp] theorem toMessageDBFields_encodeSubInfoModel (m : AnyMessage) (dbModel : MessageDBModel3) :
    (m.encodeSubInfoModel dbModel).toMessageDBFields = dbModel.toMessageDBFields := by cases m <;> rfl

theorem model_dbModel3 (h : m.MadeFor t) : m.dbModel3.model = m := by
  rw [MessageDBModel3.model, dbModel3, toMessageDBFields_encodeSubInfoModel, newModel_toDBFields h,
    decodeSubInfoModel_encode]

/-- Each of the three representations gives back every message, with its class and
all its fields. -/
theorem model_of_dbModels (serialization : JsonCoder) (t : MessageType) (m : AnyMessage) (h : m.MadeFor t) :
    (m.dbModel serialization).model serialization = m ∧
      (m.dbModel2 serialization).model serialization = m ∧ m.dbModel3.model = m :=
  ⟨model_dbModel h, model_dbModel2 h, model_dbModel3 h⟩

/-- A picture with nil and non-nil fields and a limit of the 64-bit integers. -/
theorem model_of_dbModels_image :
    let m : AnyMessage := .image {
      msgId := some 5, messageType := some .image, content := some "hi", atUids := some [3],
      fileSize := Int64.maxValue, url := some "u", width := -1 }
    (m.dbModel .text).model .text = m ∧ (m.dbModel2 .text).model .text = m ∧ m.dbModel3.model = m :=
  model_of_dbModels .text .image _ ⟨rfl, rfl⟩

end AnyMessage

end StudyDB
