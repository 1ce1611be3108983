import StudyDB.Message.Tables

/-! Fields of the subclasses that are stored in part, as an older version may have left
them. Proved: a new message reads them from a dictionary as it does from columns. -/

namespace StudyDB

open WCDB (Column)

/-- Some of the fields of the subclasses, with values of their declared types; the types
and states of calls are raw values, which need not name a case. -/
structure PartialSubInfo where
  fileSize : Option Int64 := none
  fileName : Option String := none
  url : Option String := none
  width : Option Int64 := none
  height : Option Int64 := none
  thumbFileName : Option String := none
  thumbUrl : Option String := none
  compressed : Option Bool := none
  cardUid : Option Int64 := none
  cardName : Option String := none
  cardIcon : Option String := none
  cardId : Option String := none
  lat : Option Int32 := none
  lng : Option Int32 := none
  address : Option String := none
  noticeId : Option Int64 := none
  showNotify : Option Bool := none
  mimeType : Option String := none
  localFileName : Option String := none
  callType : Option Int64 := none
  callStatus : Option Int64 := none
  duration : Option Int64 := none
  channelName : Option String := none

namespace PartialSubInfo
variable (a : PartialSubInfo)

/-- The fields as members of a dictionary. -/
def members : List (String × Option Json) :=
  [("fileSize", a.fileSize.map .int64), ("fileName", a.fileName.map .string), ("url", a.url.map .string),
    ("width", a.width.map .int64), ("height", a.height.map .int64),
    ("thumbFileName", a.thumbFileName.map .string), ("thumbUrl", a.thumbUrl.map .string),
    ("compressed", a.compressed.map .bool),
    ("cardUid", a.cardUid.map .int64), ("cardName", a.cardName.map .string), ("cardIcon", a.cardIcon.map .string),
    ("cardId", a.cardId.map .string),
    ("lat", a.lat.map .int32), ("lng", a.lng.map .int32), ("address", a.address.map .string),
    ("noticeId", a.noticeId.map .int64), ("showNotify", a.showNotify.map .bool),
    ("mimeType", a.mimeType.map .string), ("localFileName", a.localFileName.map .string),
    ("callType", a.callType.map .int64), ("callStatus", a.callStatus.map .int64),
    ("duration", a.duration.map .int64), ("channelName", a.channelName.map .string)]

/-- The dictionary of the fields that are there. -/
def dictionary : Dictionary Json := a.members.foldl (fun dict e => dict.assign e.1 e.2) .empty

/-- The columns of the fields, NULL where they are not there. -/
def columns : MessageDBModel3 where
  fileSize := a.fileSize
  fileName := a.fileName
  url := a.url
  width := a.width
  height := a.height
  thumbFileName := a.thumbFileName
  thumbUrl := a.thumbUrl
  compressed := a.compressed
  cardUid := a.cardUid
  cardName := a.cardName
  cardIcon := a.cardIcon
  cardId := a.cardId
  lat := a.lat
  lng := a.lng
  address := a.address
  noticeId := a.noticeId
  showNotify := a.showNotify
  mimeType := a.mimeType
  localFileName := a.localFileName
  callType := CallType.column.readIfPresent (Column.int64.bindIfPresent a.callType)
  callStatus := CallStatus.column.readIfPresent (Column.int64.bindIfPresent a.callStatus)
  duration := a.duration
  channelName := a.channelName

end PartialSubInfo

/-! ### Reading a field that may be missing -/

namespace Dictionary

/-- Assigned under distinct keys, each key has what it was assigned. -/
theorem get_foldl_assign {ms : List (String × Option Json)} (h : (ms.map Prod.fst).Nodup) (dict : Dictionary Json)
    (k : String) : (ms.foldl (fun dict e => dict.assign e.1 e.2) dict).get k = (ms.lookup k).getD (dict.get k) := by
  induction ms generalizing dict with
  | nil => rfl
  | cons e ms ih =>
    obtain ⟨k', v⟩ := e
    rw [List.map_cons, List.nodup_cons] at h
    rw [List.foldl_cons, ih h.2, KeyMap.get_assign, List.lookup_cons]
    by_cases hk : k = k'
    · subst hk
      have hnone : ms.lookup k = none := by
        rw [List.lookup_eq_none_iff]
        intro e he
        rw [bne_iff_ne]
        rintro rfl
        exact h.1 (List.mem_map.mpr ⟨e, he, rfl⟩)
      simp [hnone]
    · have hne : (k == k') = false := beq_eq_false_iff_ne.mpr hk
      simp [hne, Ne.symm hk]

/-- A field is read if it is there, and kept as it is otherwise. -/
theorem load_of_get {α β : Type} {dict : Dictionary Json} {key : String} {json : α → Json} {cast : Json → Option α}
    (hcast : ∀ a, cast (json a) = some a) {o : Option α} (h : dict.get key = o.map json) (f : α → β) (field : β) :
    dict.load key cast f field = (o.map f).getD field := by
  cases o with
  | none => simp [load, h]
  | some a => simp [load, h, hcast]

end Dictionary

namespace PartialSubInfo
variable (a : PartialSubInfo)

theorem get_dictionary {k : String} {o : Option Json} (h : a.members.lookup k = some o) :
    a.dictionary.get k = o := by
  have hnodup : (a.members.map Prod.fst).Nodup := by simp [members]
  rw [dictionary, Dictionary.get_foldl_assign hnodup, h, Option.getD_some]

section Load
variable {β : Type} {k : String}

theorem load_int64 {o : Option Int64} (h : a.members.lookup k = some (o.map .int64)) (f : Int64 → β) (field : β) :
    a.dictionary.load k Json.asInt64? f field = (o.map f).getD field :=
  Dictionary.load_of_get Json.asInt64?_int64 (a.get_dictionary h) f field

theorem load_int32 {o : Option Int32} (h : a.members.lookup k = some (o.map .int32)) (f : Int32 → β) (field : β) :
    a.dictionary.load k Json.asInt32? f field = (o.map f).getD field :=
  Dictionary.load_of_get Json.asInt32?_int32 (a.get_dictionary h) f field

theorem load_bool {o : Option Bool} (h : a.members.lookup k = some (o.map .bool)) (f : Bool → β) (field : β) :
    a.dictionary.load k Json.asBool? f field = (o.map f).getD field :=
  Dictionary.load_of_get Json.asBool?_bool (a.get_dictionary h) f field

theorem load_string {o : Option String} (h : a.members.lookup k = some (o.map .string)) (f : String → β) (field : β) :
    a.dictionary.load k Json.asString? f field = (o.map f).getD field :=
  Dictionary.load_of_get Json.asString?_string (a.get_dictionary h) f field

end Load

/-- A raw value that names no case reads as nil. -/
theorem callType_columns : a.columns.callType = a.callType.bind CallType.init? := by
  rw [columns]
  cases a.callType <;> rfl

theorem callStatus_columns : a.columns.callStatus = a.callStatus.bind CallStatus.init? := by
  rw [columns]
  cases a.callStatus <;> rfl

/-! ### The classes -/

variable (b : MessageModel)

theorem decode_media :
    MediaMessageModel.decodeSubInfoDict { toMessageModel := b } a.dictionary =
      MediaMessageModel.decodeSubInfoModel { toMessageModel := b } a.columns := by
  rw [MediaMessageModel.decodeSubInfoDict, a.load_int64 rfl, a.load_string rfl, a.load_string rfl]
  simp [MediaMessageModel.decodeSubInfoModel, columns, MessageModel.decodeSubInfoDict, MessageModel.decodeSubInfoModel]

theorem decode_image :
    ImageMessageModel.decodeSubInfoDict { toMessageModel := b } a.dictionary =
      ImageMessageModel.decodeSubInfoModel { toMessageModel := b } a.columns := by
  rw [ImageMessageModel.decodeSubInfoDict, a.load_int64 rfl, a.load_int64 rfl, a.load_string rfl, a.load_string rfl,
    decode_media]
  simp [ImageMessageModel.decodeSubInfoModel, columns]

theorem decode_video :
    VideoMessageModel.decodeSubInfoDict { toMessageModel := b } a.dictionary =
      VideoMessageModel.decodeSubInfoModel { toMessageModel := b } a.columns := by
  rw [VideoMessageModel.decodeSubInfoDict, a.load_bool rfl, decode_media]
  simp [VideoMessageModel.decodeSubInfoModel, columns]

theorem decode_file :
    FileMessageModel.decodeSubInfoDict { toMessageModel := b } a.dictionary =
      FileMessageModel.decodeSubInfoModel { toMessageModel := b } a.columns := by
  rw [FileMessageModel.decodeSubInfoDict, a.load_string rfl, a.load_string rfl, decode_media]
  simp [FileMessageModel.decodeSubInfoModel, columns]

theorem decode_card :
    CardMessageModel.decodeSubInfoDict { toMessageModel := b } a.dictionary =
      CardMessageModel.decodeSubInfoModel { toMessageModel := b } a.columns := by
  rw [CardMessageModel.decodeSubInfoDict, a.load_int64 rfl, a.load_string rfl, a.load_string rfl, a.load_string rfl]
  simp [CardMessageModel.decodeSubInfoModel, columns, MessageModel.decodeSubInfoDict, MessageModel.decodeSubInfoModel]

theorem decode_location :
    LocationMessageModel.decodeSubInfoDict { toMessageModel := b } a.dictionary =
      LocationMessageModel.decodeSubInfoModel { toMessageModel := b } a.columns := by
  rw [LocationMessageModel.decodeSubInfoDict, a.load_int32 rfl, a.load_int32 rfl, a.load_string rfl]
  simp [LocationMessageModel.decodeSubInfoModel, columns, MessageModel.decodeSubInfoDict,
    MessageModel.decodeSubInfoModel]

theorem decode_notice :
    NoticeMessageModel.decodeSubInfoDict { toMessageModel := b } a.dictionary =
      NoticeMessageModel.decodeSubInfoModel { toMessageModel := b } a.columns := by
  rw [NoticeMessageModel.decodeSubInfoDict, a.load_int64 rfl, a.load_bool rfl]
  simp [NoticeMessageModel.decodeSubInfoModel, columns, MessageModel.decodeSubInfoDict, MessageModel.decodeSubInfoModel]

/-- A raw value that names no case becomes the default on both ways. -/
theorem decode_call :
    CallMessageModel.decodeSubInfoDict { toMessageModel := b } a.dictionary =
      CallMessageModel.decodeSubInfoModel { toMessageModel := b } a.columns := by
  have htype : (a.callType.map fun val => (CallType.init? val).getD .audio).getD .audio =
      a.columns.callType.getD .audio := by
    rw [callType_columns]
    cases a.callType <;> rfl
  have hstatus : (a.callStatus.map fun val => (CallStatus.init? val).getD .none).getD .none =
      a.columns.callStatus.getD .none := by
    rw [callStatus_columns]
    cases a.callStatus <;> rfl
  rw [CallMessageModel.decodeSubInfoDict, a.load_int64 rfl, a.load_int64 rfl, a.load_int64 rfl, a.load_string rfl, htype,
    hstatus, CallMessageModel.decodeSubInfoModel]
  simp [columns, MessageModel.decodeSubInfoDict, MessageModel.decodeSubInfoModel]

/-- A new message of any type reads the fields from a dictionary as it does from
columns, whichever of them are there. -/
theorem decodeSubInfoDict_eq_decodeSubInfoModel (t : Option MessageType) :
    (AnyMessage.model t).decodeSubInfoDict a.dictionary = (AnyMessage.model t).decodeSubInfoModel a.columns := by
  have hnew := setBase_model t (AnyMessage.model t).base
  rw [AnyMessage.setBase_base] at hnew
  rw [hnew]
  cases (AnyMessage.model t).cls with
  | message => rfl
  | text => rfl
  | image => exact congrArg _ (a.decode_image _)
  | video => exact congrArg _ (a.decode_video _)
  | file => exact congrArg _ (a.decode_file _)
  | card => exact congrArg _ (a.decode_card _)
  | location => exact congrArg _ (a.decode_location _)
  | notice => exact congrArg _ (a.decode_notice _)
  | call => exact congrArg _ (a.decode_call _)

end PartialSubInfo

end StudyDB
