import StudyDB.Message.Model

/-! The fields of the subclasses on their way to storage and back: as a
dictionary, and as columns of `MessageDBModel3`. Each class first does what its
superclass does. -/

namespace StudyDB

/-! ### The three database models -/

/-- The columns that the three tables of messages share. -/
structure MessageDBFields where
  msgId : Option Int64 := none
  flag : Option Int64 := none
  chatType : Option ChatType := none
  messageType : Option MessageType := none
  content : Option String := none
  refMsg : Option RefMessage := none
  atUids : Option (List Int64) := none
  atUsers : Option (List AtUser) := none
  atMe : Bool := false
  extra : Option (Dictionary String) := none

structure MessageDBModel extends MessageDBFields where
  subInfo : Option Data := none

structure MessageDBModel2 extends MessageDBFields where
  subInfo : Option String := none

structure MessageDBModel3 extends MessageDBFields where
  fileSize : Option Int64 := none
  fileName : Option String := none
  url : Option String := none
  width : Option Int64 := none
  height : Option Int64 := none
  thumbFileName : Option String := none
  thumbUrl : Option String := none
  compressed : Option Bool := none
  cardUid : Option Int64 := none
  cardName : Option String := none
  cardIcon : Option String := none
  cardId : Option String := none
  lat : Option Int32 := none
  lng : Option Int32 := none
  address : Option String := none
  noticeId : Option Int64 := none
  showNotify : Option Bool := none
  mimeType : Option String := none
  localFileName : Option String := none
  callType : Option CallType := none
  callStatus : Option CallStatus := none
  duration : Option Int64 := none
  channelName : Option String := none

/-! ### Values of a `[String: Any]` -/

namespace Json

def int64 (n : Int64) : Json := .int n.toInt

def int32 (n : Int32) : Json := .int n.toInt

@[simp] theorem asInt64?_int64 (n : Int64) : (int64 n).asInt64? = some n := asInt64?_int n

@[simp] theorem asInt32?_int32 (n : Int32) : (int32 n).asInt32? = some n := asInt32?_int n

end Json

/-- `if let val = dict[key] as? T { field = f(val) }`. -/
def Dictionary.load {α β : Type} (dict : Dictionary Json) (key : String) (cast : Json → Option α) (f : α → β)
    (field : β) : β :=
  (((dict.get key).bind cast).map f).getD field

@[simp] theorem Json.map_string_bind_asString? (o : Option String) : (o.map Json.string).bind Json.asString? = o := by
  cases o <;> rfl

@[simp] theorem Option.map_some_getD_none {α : Type} (o : Option α) : (o.map some).getD none = o := by
  cases o <;> rfl

/-! ### Dictionaries -/

namespace MessageModel

def encodeSubInfoDict (_ : MessageModel) : Dictionary Json := .empty

def decodeSubInfoDict (m : MessageModel) (_ : Dictionary Json) : MessageModel := m

def encodeSubInfoModel (_ : MessageModel) (dbModel : MessageDBModel3) : MessageDBModel3 := dbModel

def decodeSubInfoModel (m : MessageModel) (_ : MessageDBModel3) : MessageModel := m

end MessageModel

namespace MediaMessageModel

def encodeSubInfoDict (m : MediaMessageModel) : Dictionary Json :=
  m.toMessageModel.encodeSubInfoDict
    |>.set "fileSize" (.int64 m.fileSize)
    |>.assign "fileName" (m.fileName.map .string)
    |>.assign "url" (m.url.map .string)

def decodeSubInfoDict (m : MediaMessageModel) (dict : Dictionary Json) : MediaMessageModel where
  toMessageModel := m.toMessageModel.decodeSubInfoDict dict
  fileSize := dict.load "fileSize" Json.asInt64? id m.fileSize
  fileName := dict.load "fileName" Json.asString? some m.fileName
  url := dict.load "url" Json.asString? some m.url

def encodeSubInfoModel (m : MediaMessageModel) (dbModel : MessageDBModel3) : MessageDBModel3 :=
  { m.toMessageModel.encodeSubInfoModel dbModel with
    fileSize := some m.fileSize
    fileName := m.fileName
    url := m.url }

def decodeSubInfoModel (m : MediaMessageModel) (dbModel : MessageDBModel3) : MediaMessageModel where
  toMessageModel := m.toMessageModel.decodeSubInfoModel dbModel
  fileSize := dbModel.fileSize.getD 0
  fileName := dbModel.fileName
  url := dbModel.url

end MediaMessageModel

namespace ImageMessageModel

def encodeSubInfoDict (m : ImageMessageModel) : Dictionary Json :=
  m.toMediaMessageModel.encodeSubInfoDict
    |>.set "width" (.int64 m.width)
    |>.set "height" (.int64 m.height)
    |>.assign "thumbFileName" (m.thumbFileName.map .string)
    |>.assign "thumbUrl" (m.thumbUrl.map .string)

def decodeSubInfoDict (m : ImageMessageModel) (dict : Dictionary Json) : ImageMessageModel where
  toMediaMessageModel := m.toMediaMessageModel.decodeSubInfoDict dict
  width := dict.load "width" Json.asInt64? id m.width
  height := dict.load "height" Json.asInt64? id m.height
  thumbFileName := dict.load "thumbFileName" Json.asString? some m.thumbFileName
  thumbUrl := dict.load "thumbUrl" Json.asString? some m.thumbUrl

def encodeSubInfoModel (m : ImageMessageModel) (dbModel : MessageDBModel3) : MessageDBModel3 :=
  { m.toMediaMessageModel.encodeSubInfoModel dbModel with
    width := some m.width
    height := some m.height
    thumbFileName := m.thumbFileName
    thumbUrl := m.thumbUrl }

def decodeSubInfoModel (m : ImageMessageModel) (dbModel : MessageDBModel3) : ImageMessageModel where
  toMediaMessageModel := m.toMediaMessageModel.decodeSubInfoModel dbModel
  width := dbModel.width.getD 0
  height := dbModel.height.getD 0
  thumbFileName := dbModel.thumbFileName
  thumbUrl := dbModel.thumbUrl

end ImageMessageModel

namespace VideoMessageModel

def encodeSubInfoDict (m : VideoMessageModel) : Dictionary Json :=
  m.toMediaMessageModel.encodeSubInfoDict
    |>.set "compressed" (.bool m.compressed)

def decodeSubInfoDict (m : VideoMessageModel) (dict : Dictionary Json) : VideoMessageModel where
  toMediaMessageModel := m.toMediaMessageModel.decodeSubInfoDict dict
  compressed := dict.load "compressed" Json.asBool? id m.compressed

def encodeSubInfoModel (m : VideoMessageModel) (dbModel : MessageDBModel3) : MessageDBModel3 :=
  { m.toMediaMessageModel.encodeSubInfoModel dbModel with compressed := some m.compressed }

def decodeSubInfoModel (m : VideoMessageModel) (dbModel : MessageDBModel3) : VideoMessageModel where
  toMediaMessageModel := m.toMediaMessageModel.decodeSubInfoModel dbModel
  compressed := dbModel.compressed.getD true

end VideoMessageModel

namespace FileMessageModel

def encodeSubInfoDict (m : FileMessageModel) : Dictionary Json :=
  m.toMediaMessageModel.encodeSubInfoDict
    |>.set "mimeType" (.string m.mimeType)
    |>.assign "localFileName" (m.localFileName.map .string)

def decodeSubInfoDict (m : FileMessageModel) (dict : Dictionary Json) : FileMessageModel where
  toMediaMessageModel := m.toMediaMessageModel.decodeSubInfoDict dict
  mimeType := dict.load "mimeType" Json.asString? id m.mimeType
  localFileName := dict.load "localFileName" Json.asString? some m.localFileName

def encodeSubInfoModel (m : FileMessageModel) (dbModel : MessageDBModel3) : MessageDBModel3 :=
  { m.toMediaMessageModel.encodeSubInfoModel dbModel with
    mimeType := some m.mimeType
    localFileName := m.localFileName }

def decodeSubInfoModel (m : FileMessageModel) (dbModel : MessageDBModel3) : FileMessageModel where
  toMediaMessageModel := m.toMediaMessageModel.decodeSubInfoModel dbModel
  mimeType := dbModel.mimeType.getD ""
  localFileName := dbModel.localFileName

end FileMessageModel

namespace CardMessageModel

def encodeSubInfoDict (m : CardMessageModel) : Dictionary Json :=
  m.toMessageModel.encodeSubInfoDict
    |>.set "cardUid" (.int64 m.cardUid)
    |>.set "cardName" (.string m.cardName)
    |>.set "cardIcon" (.string m.cardIcon)
    |>.set "cardId" (.string m.cardId)

def decodeSubInfoDict (m : CardMessageModel) (dict : Dictionary Json) : CardMessageModel where
  toMessageModel := m.toMessageModel.decodeSubInfoDict dict
  cardUid := dict.load "cardUid" Json.asInt64? id m.cardUid
  cardName := dict.load "cardName" Json.asString? id m.cardName
  cardIcon := dict.load "cardIcon" Json.asString? id m.cardIcon
  cardId := dict.load "cardId" Json.asString? id m.cardId

def encodeSubInfoModel (m : CardMessageModel) (dbModel : MessageDBModel3) : MessageDBModel3 :=
  { m.toMessageModel.encodeSubInfoModel dbModel with
    cardUid := some m.cardUid
    cardName := some m.cardName
    cardIcon := some m.cardIcon
    cardId := some m.cardId }

def decodeSubInfoModel (m : CardMessageModel) (dbModel : MessageDBModel3) : CardMessageModel where
  toMessageModel := m.toMessageModel.decodeSubInfoModel dbModel
  cardUid := dbModel.cardUid.getD 0
  cardName := dbModel.cardName.getD ""
  cardIcon := dbModel.cardIcon.getD ""
  cardId := dbModel.cardId.getD ""

end CardMessageModel

namespace LocationMessageModel

def encodeSubInfoDict (m : LocationMessageModel) : Dictionary Json :=
  m.toMessageModel.encodeSubInfoDict
    |>.set "lat" (.int32 m.lat)
    |>.set "lng" (.int32 m.lng)
    |>.set "address" (.string m.address)

def decodeSubInfoDict (m : LocationMessageModel) (dict : Dictionary Json) : LocationMessageModel where
  toMessageModel := m.toMessageModel.decodeSubInfoDict dict
  lat := dict.load "lat" Json.asInt32? id m.lat
  lng := dict.load "lng" Json.asInt32? id m.lng
  address := dict.load "address" Json.asString? id m.address

def encodeSubInfoModel (m : LocationMessageModel) (dbModel : MessageDBModel3) : MessageDBModel3 :=
  { m.toMessageModel.encodeSubInfoModel dbModel with
    lat := some m.lat
    lng := some m.lng
    address := some m.address }

def decodeSubInfoModel (m : LocationMessageModel) (dbModel : MessageDBModel3) : LocationMessageModel where
  toMessageModel := m.toMessageModel.decodeSubInfoModel dbModel
  lat := dbModel.lat.getD 0
  lng := dbModel.lng.getD 0
  address := dbModel.address.getD ""

end LocationMessageModel

namespace NoticeMessageModel

def encodeSubInfoDict (m : NoticeMessageModel) : Dictionary Json :=
  m.toMessageModel.encodeSubInfoDict
    |>.set "noticeId" (.int64 m.noticeId)
    |>.set "showNotify" (.bool m.showNotify)

def decodeSubInfoDict (m : NoticeMessageModel) (dict : Dictionary Json) : NoticeMessageModel where
  toMessageModel := m.toMessageModel.decodeSubInfoDict dict
  noticeId := dict.load "noticeId" Json.asInt64? id m.noticeId
  showNotify := dict.load "showNotify" Json.asBool? id m.showNotify

def encodeSubInfoModel (m : NoticeMessageModel) (dbModel : MessageDBModel3) : MessageDBModel3 :=
  { m.toMessageModel.encodeSubInfoModel dbModel with
    noticeId := some m.noticeId
    showNotify := some m.showNotify }

def decodeSubInfoModel (m : NoticeMessageModel) (dbModel : MessageDBModel3) : NoticeMessageModel where
  toMessageModel := m.toMessageModel.decodeSubInfoModel dbModel
  noticeId := dbModel.noticeId.getD 0
  showNotify := dbModel.showNotify.getD false

end NoticeMessageModel

namespace CallMessageModel

def encodeSubInfoDict (m : CallMessageModel) : Dictionary Json :=
  m.toMessageModel.encodeSubInfoDict
    |>.set "callType" (.int64 m.callType.rawValue)
    |>.set "callStatus" (.int64 m.callStatus.rawValue)
    |>.set "duration" (.int64 m.duration)
    |>.set "channelName" (.string m.channelName)

def decodeSubInfoDict (m : CallMessageModel) (dict : Dictionary Json) : CallMessageModel where
  toMessageModel := m.toMessageModel.decodeSubInfoDict dict
  callType := dict.load "callType" Json.asInt64? (fun val => (CallType.init? val).getD .audio) m.callType
  callStatus := dict.load "callStatus" Json.asInt64? (fun val => (CallStatus.init? val).getD .none) m.callStatus
  duration := dict.load "duration" Json.asInt64? id m.duration
  channelName := dict.load "channelName" Json.asString? id m.channelName

def encodeSubInfoModel (m : CallMessageModel) (dbModel : MessageDBModel3) : MessageDBModel3 :=
  { m.toMessageModel.encodeSubInfoModel dbModel with
    callType := some m.callType
    callStatus := some m.callStatus
    duration := some m.duration
    channelName := some m.channelName }

def decodeSubInfoModel (m : CallMessageModel) (dbModel : MessageDBModel3) : CallMessageModel where
  toMessageModel := m.toMessageModel.decodeSubInfoModel dbModel
  callType := dbModel.callType.getD .audio
  callStatus := dbModel.callStatus.getD .none
  duration := dbModel.duration.getD 0
  channelName := dbModel.channelName.getD ""

end CallMessageModel

/-! ### Dynamic dispatch -/

namespace AnyMessage

def encodeSubInfoDict : AnyMessage → Dictionary Json
  | message m => m.encodeSubInfoDict
  | text m => m.toMessageModel.encodeSubInfoDict
  | image m => m.encodeSubInfoDict
  | video m => m.encodeSubInfoDict
  | file m => m.encodeSubInfoDict
  | card m => m.encodeSubInfoDict
  | location m => m.encodeSubInfoDict
  | notice m => m.encodeSubInfoDict
  | call m => m.encodeSubInfoDict

def decodeSubInfoDict (dict : Dictionary Json) : AnyMessage → AnyMessage
  | message m => message (m.decodeSubInfoDict dict)
  | text m => text { toMessageModel := m.toMessageModel.decodeSubInfoDict dict }
  | image m => image (m.decodeSubInfoDict dict)
  | video m => video (m.decodeSubInfoDict dict)
  | file m => file (m.decodeSubInfoDict dict)
  | card m => card (m.decodeSubInfoDict dict)
  | location m => location (m.decodeSubInfoDict dict)
  | notice m => notice (m.decodeSubInfoDict dict)
  | call m => call (m.decodeSubInfoDict dict)

def encodeSubInfoModel (dbModel : MessageDBModel3) : AnyMessage → MessageDBModel3
  | message m => m.encodeSubInfoModel dbModel
  | text m => m.toMessageModel.encodeSubInfoModel dbModel
  | image m => m.encodeSubInfoModel dbModel
  | video m => m.encodeSubInfoModel dbModel
  | file m => m.encodeSubInfoModel dbModel
  | card m => m.encodeSubInfoModel dbModel
  | location m => m.encodeSubInfoModel dbModel
  | notice m => m.encodeSubInfoModel dbModel
  | call m => m.encodeSubInfoModel dbModel

def decodeSubInfoModel (dbModel : MessageDBModel3) : AnyMessage → AnyMessage
  | message m => message (m.decodeSubInfoModel dbModel)
  | text m => text { toMessageModel := m.toMessageModel.decodeSubInfoModel dbModel }
  | image m => image (m.decodeSubInfoModel dbModel)
  | video m => video (m.decodeSubInfoModel dbModel)
  | file m => file (m.decodeSubInfoModel dbModel)
  | card m => card (m.decodeSubInfoModel dbModel)
  | location m => location (m.decodeSubInfoModel dbModel)
  | notice m => notice (m.decodeSubInfoModel dbModel)
  | call m => call (m.decodeSubInfoModel dbModel)

end AnyMessage

end StudyDB
