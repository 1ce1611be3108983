import StudyDB.Foundation.Codable

/-! Messages. A message type decides the class of a message; the classes share the
fields of `MessageModel`, and some the fields of `MediaMessageModel`. An object of
one of the classes is a value of `AnyMessage`, whose constructor is its dynamic
class. -/

namespace StudyDB

/-! ### Enumerations -/

inductive ChatType where
  | p2p | group
  deriving DecidableEq, Repr

namespace ChatType

def rawValue : ChatType → Int32
  | p2p => 0
  | group => 1

def init? (rawValue : Int32) : Option ChatType := [p2p, group].find? fun c => c.rawValue = rawValue

theorem init?_rawValue (c : ChatType) : init? c.rawValue = some c := by cases c <;> decide

end ChatType

inductive MessageType where
  | text | image | audio | video | location | card | system | file | notice | dynamicImage | call
  deriving DecidableEq, Repr

namespace MessageType

def rawValue : MessageType → Int32
  | text => 0
  | image => 1
  | audio => 2
  | video => 3
  | location => 4
  | card => 5
  | system => 6
  | file => 7
  | notice => 8
  | dynamicImage => 9
  | call => 10

def init? (rawValue : Int32) : Option MessageType :=
  [text, image, audio, video, location, card, system, file, notice, dynamicImage, call].find?
    fun t => t.rawValue = rawValue

theorem init?_rawValue (t : MessageType) : init? t.rawValue = some t := by cases t <;> decide

end MessageType

inductive CallType where
  | audio | video
  deriving DecidableEq, Repr

namespace CallType

def rawValue : CallType → Int64
  | audio => 0
  | video => 1

def init? (rawValue : Int64) : Option CallType := [audio, video].find? fun c => c.rawValue = rawValue

@[simp] theorem init?_rawValue (c : CallType) : init? c.rawValue = some c := by cases c <;> decide

end CallType

inductive CallStatus where
  | none | agree | refuse | cancel | noResp | finish
  deriving DecidableEq, Repr

namespace CallStatus

def rawValue : CallStatus → Int64
  | none => 0
  | agree => 1
  | refuse => 2
  | cancel => 3
  | noResp => 4
  | finish => 5

def init? (rawValue : Int64) : Option CallStatus :=
  [none, agree, refuse, cancel, noResp, finish].find? fun c => c.rawValue = rawValue

@[simp] theorem init?_rawValue (c : CallStatus) : init? c.rawValue = some c := by cases c <;> decide

end CallStatus

/-! ### Parts of a message -/

/-- A quoted message. -/
structure RefMessage where
  msgId : Option Int64 := none
  content : Option String := none
  type : Option MessageType := none
  uid : Option Int64 := none
  nickname : String := ""
  deriving DecidableEq

structure FriendRelation where
  bfFriend : Bool := false
  remarkName : String := ""
  deriving DecidableEq

structure AtUser where
  uid : Int64 := 0
  nickName : String := ""
  friendRelation : Option FriendRelation := none
  deriving DecidableEq

/-! ### The classes -/

structure MessageModel where
  msgId : Option Int64 := none
  flag : Option Int64 := none
  chatType : Option ChatType := none
  messageType : Option MessageType := none
  content : Option String := none
  refMsg : Option RefMessage := none
  atUids : Option (List Int64) := none
  atUsers : Option (List AtUser) := none
  atMe : Bool := false
  extra : Option (Dictionary String) := none

structure TextMessageModel extends MessageModel

structure MediaMessageModel extends MessageModel where
  fileSize : Int64 := 0
  fileName : Option String := none
  url : Option String := none

structure ImageMessageModel extends MediaMessageModel where
  width : Int64 := 0
  height : Int64 := 0
  thumbFileName : Option String := none
  thumbUrl : Option String := none

structure VideoMessageModel extends MediaMessageModel where
  compressed : Bool := true

structure FileMessageModel extends MediaMessageModel where
  mimeType : String := ""
  localFileName : Option String := none

structure CardMessageModel extends MessageModel where
  cardUid : Int64 := 0
  cardName : String := ""
  cardIcon : String := ""
  cardId : String := ""

structure LocationMessageModel extends MessageModel where
  lat : Int32 := 0
  lng : Int32 := 0
  address : String := ""

structure NoticeMessageModel extends MessageModel where
  noticeId : Int64 := 0
  showNotify : Bool := false

structure CallMessageModel extends MessageModel where
  callType : CallType := .audio
  callStatus : CallStatus := .none
  duration : Int64 := 0
  channelName : String := ""

inductive MessageClass where
  | message | text | image | video | file | card | location | notice | call
  deriving DecidableEq, Repr

/-- An object of one of the classes. -/
inductive AnyMessage where
  | message (m : MessageModel)
  | text (m : TextMessageModel)
  | image (m : ImageMessageModel)
  | video (m : VideoMessageModel)
  | file (m : FileMessageModel)
  | card (m : CardMessageModel)
  | location (m : LocationMessageModel)
  | notice (m : NoticeMessageModel)
  | call (m : CallMessageModel)

namespace AnyMessage

/-- The dynamic class. -/
def cls : AnyMessage → MessageClass
  | message _ => .message
  | text _ => .text
  | image _ => .image
  | video _ => .video
  | file _ => .file
  | card _ => .card
  | location _ => .location
  | notice _ => .notice
  | call _ => .call

/-- The fields of `MessageModel`. -/
def base : AnyMessage → MessageModel
  | message m => m
  | text m => m.toMessageModel
  | image m => m.toMessageModel
  | video m => m.toMessageModel
  | file m => m.toMessageModel
  | card m => m.toMessageModel
  | location m => m.toMessageModel
  | notice m => m.toMessageModel
  | call m => m.toMessageModel

/-- Assign the fields of `MessageModel`. -/
def setBase (b : MessageModel) : AnyMessage → AnyMessage
  | message _ => message b
  | text m => text { m with toMessageModel := b }
  | image m => image { m with toMessageModel := b }
  | video m => video { m with toMessageModel := b }
  | file m => file { m with toMessageModel := b }
  | card m => card { m with toMessageModel := b }
  | location m => location { m with toMessageModel := b }
  | notice m => notice { m with toMessageModel := b }
  | call m => call { m with toMessageModel := b }

@[simp] theorem base_setBase (b : MessageModel) (m : AnyMessage) : (m.setBase b).base = b := by cases m <;> rfl

@[simp] theorem setBase_base (m : AnyMessage) : m.setBase m.base = m := by cases m <;> rfl

/-- `MessageModel.model(messageType:)`. -/
def model (messageType : Option MessageType) : AnyMessage :=
  let type := messageType.getD .text
  let model := match messageType with
    | some .text => text {}
    | some .image => image {}
    | some .video => video {}
    | some .card => card {}
    | some .location => location {}
    | some .notice => notice {}
    | some .file => file {}
    | some .call => call {}
    | _ => message {}
  model.setBase { model.base with messageType := type }

/-- The message could have been made by `model` for type `t`, its fields set
afterwards, its type left as it was. -/
def MadeFor (t : MessageType) (m : AnyMessage) : Prop :=
  m.cls = (model (some t)).cls ∧ m.base.messageType = some t

end AnyMessage

end StudyDB
