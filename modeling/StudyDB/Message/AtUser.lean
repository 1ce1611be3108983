import StudyDB.Message.Conversion
import StudyDB.WCDB.Value

/-! The column codecs of a user that a message is at, and of the relation to a friend.
The relation is JSON text made by JSONSerialization; it stands as a string in the
dictionary of strings that JSONEncoder makes of the user. Proved: each comes back. -/

namespace StudyDB

open WCDB (Value)

/-! ### The relation to a friend -/

namespace FriendRelation

/-- The dictionary that `archivedValue` fills. -/
def dictionary (r : FriendRelation) : Dictionary Json :=
  let dict : Dictionary Json := .empty
  let dict := dict.set "bfFriend" (.bool r.bfFriend)
  dict.set "remarkName" (.string r.remarkName)

def archivedValue (serialization : JsonCoder) (r : FriendRelation) : Value :=
  match Dictionary.jsonString serialization r.dictionary with
  | some data => .text data
  | none => .null

/-- What `init?(with:)` makes of the parsed dictionary. -/
def ofDictionary (dictionary : Dictionary Json) : FriendRelation :=
  let r : FriendRelation := {}
  { bfFriend := dictionary.load "bfFriend" Json.asBool? id r.bfFriend
    remarkName := dictionary.load "remarkName" Json.asString? id r.remarkName }

def init? (serialization : JsonCoder) (value : Value) : Option FriendRelation :=
  if value.stringValue ≠ "" then
    ((stringJsonValue serialization value.stringValue).bind Json.asDictionary?).map ofDictionary
  else none

theorem portable_dictionary (r : FriendRelation) : r.dictionary.All Json.Portable :=
  (KeyMap.All.empty.set (.bool _) _).set (.string _) _

theorem ofDictionary_of_get {r : FriendRelation} {dictionary : Dictionary Json}
    (h : ∀ k, dictionary.get k = r.dictionary.get k) : ofDictionary dictionary = r := by
  simp [ofDictionary, Dictionary.load, h, FriendRelation.dictionary, KeyMap.get_set]

theorem init?_archivedValue (serialization : JsonCoder) (r : FriendRelation) :
    init? serialization (r.archivedValue serialization) = some r := by
  obtain ⟨d, s, hd, hs, hsd, hr⟩ :=
    serialization.exists_string (Dictionary.portable_toJson r.portable_dictionary) rfl
  obtain ⟨dictionary, hdictionary, hget⟩ := asDictionary?_toJson r.dictionary
  have harchived : r.archivedValue serialization = .text s := by
    rw [archivedValue, Dictionary.jsonString, hd, Option.bind_some, hs]
  have hnonempty : s ≠ "" := by
    rintro rfl
    have hsize := JsonCoder.size_pos_of_read hr
    rw [← hsd] at hsize
    exact absurd hsize (by decide)
  rw [harchived, init?, Value.stringValue, if_pos hnonempty, stringJsonValue, hsd, hr, Option.bind_some, hdictionary,
    Option.map_some, ofDictionary_of_get hget]

end FriendRelation

/-! ### The user -/

namespace AtUser
variable (serialization coder : JsonCoder)

/-- The dictionary that `archivedValue` fills. -/
def strings (u : AtUser) : Dictionary String :=
  let dict : Dictionary String := .empty
  let dict := dict.set "uid" (intDescription u.uid.toInt)
  let dict := dict.set "nickName" u.nickName
  match u.friendRelation with
  | some friendRelation => dict.set "friendRelation" (friendRelation.archivedValue serialization).stringValue
  | none => dict

def archivedValue (u : AtUser) : Value :=
  match coder.encodeData (u.strings serialization) with
  | some data => .blob data
  | none => .null

/-- What `init?(with:)` makes of the decoded dictionary. -/
def ofStrings (dictionary : Dictionary String) : AtUser :=
  let u : AtUser := {}
  let u := match dictionary.get "uid" with
    | some val => { u with uid := (int64OfString? val).getD 0 }
    | none => u
  let u := match dictionary.get "friendRelation" with
    | some val => { u with friendRelation := FriendRelation.init? serialization (.text val) }
    | none => u
  { u with nickName := (dictionary.get "nickName").getD "" }

def init? (value : Value) : Option AtUser :=
  if value.dataValue.size > 0 then
    ((coder.read value.dataValue).bind Json.decodeStrings?).map (ofStrings serialization)
  else none

variable {serialization coder}

/-- The text of the relation is the one that its own codec writes. -/
theorem text_stringValue_archivedValue (serialization : JsonCoder) (r : FriendRelation) :
    FriendRelation.init? serialization (.text (r.archivedValue serialization).stringValue) = some r := by
  have hinit := r.init?_archivedValue serialization
  rwa [FriendRelation.init?] at hinit ⊢

theorem ofStrings_of_get {u : AtUser} {dictionary : Dictionary String}
    (h : ∀ k, dictionary.get k = (u.strings serialization).get k) : ofStrings serialization dictionary = u := by
  obtain ⟨uid, nickName, friendRelation⟩ := u
  cases friendRelation with
  | none => simp [ofStrings, h, strings, KeyMap.get_set]
  | some r => simp [ofStrings, h, strings, KeyMap.get_set, text_stringValue_archivedValue]

/-- Every user comes back, and with a relation to a friend exactly if there was one. -/
theorem init?_archivedValue_eq_some (serialization coder : JsonCoder) (u : AtUser) :
    init? serialization coder (u.archivedValue serialization coder) = some u := by
  obtain ⟨data, hdata, _, hread⟩ := coder.faithful (JSONEncodable.portable (u.strings serialization)) rfl
  obtain ⟨dictionary, hdecode, hget⟩ := decodeStrings?_encode (u.strings serialization)
  have hsize : data.size > 0 := JsonCoder.size_pos_of_read hread
  have harchived : u.archivedValue serialization coder = .blob data := by
    rw [archivedValue, JsonCoder.encodeData, hdata]
  rw [harchived, init?, Value.dataValue, if_pos hsize, hread, Option.bind_some, hdecode, Option.map_some,
    ofStrings_of_get hget]

end AtUser

end StudyDB
