import StudyDB.WCDB.Value

/-! Group members, and their JSON coding. A member's type and gender are open
enumerations: a raw value that names no case is kept as it is. -/

namespace StudyDB

open WCDB (Value Column)

/-! ### Open enumerations -/

inductive MemberType where
  | ower | admin | member
  | other (val : Int64)
  deriving DecidableEq

namespace MemberType

def rawValue : MemberType → Int64
  | ower => 0
  | admin => 1
  | member => 2
  | other val => val

def init? (rawValue : Int64) : Option MemberType :=
  some (if rawValue = 0 then ower else if rawValue = 1 then admin else if rawValue = 2 then member
    else other rawValue)

/-- The case that is made of a case's raw value. -/
def stored (t : MemberType) : MemberType := (init? t.rawValue).getD t

theorem init?_rawValue (t : MemberType) : init? t.rawValue = some t.stored := rfl

/-- A case made of a raw value is made of its own raw value again. -/
theorem stored_of_init {n : Int64} {t : MemberType} (h : init? n = some t) : t.stored = t := by
  have hraw : t.rawValue = n := by
    obtain rfl := Option.some.inj h
    split_ifs with h0 h1 h2
    · exact h0.symm
    · exact h1.symm
    · exact h2.symm
    · rfl
  exact Option.some.inj ((init?_rawValue t).symm.trans (hraw ▸ h))

/-- The column of member types. -/
def column : Column MemberType := .ofValue (fun t => .integer64 t.rawValue) fun v => init? v.intValue

theorem column_reads : column.Reads stored := fun _ => ⟨SQLValue.noConfusion, rfl⟩

end MemberType

inductive MemberGender where
  | secrecy | male | female
  | other (val : Int64)
  deriving DecidableEq

namespace MemberGender

def rawValue : MemberGender → Int64
  | secrecy => 0
  | male => 1
  | female => 2
  | other val => val

def init? (rawValue : Int64) : Option MemberGender :=
  some (if rawValue = 0 then secrecy else if rawValue = 1 then male else if rawValue = 2 then female else
    other rawValue)

/-- The case that is made of a case's raw value. -/
def stored (g : MemberGender) : MemberGender := (init? g.rawValue).getD g

theorem init?_rawValue (g : MemberGender) : init? g.rawValue = some g.stored := rfl

/-- A case made of a raw value is made of its own raw value again. -/
theorem stored_of_init {n : Int64} {g : MemberGender} (h : init? n = some g) : g.stored = g := by
  have hraw : g.rawValue = n := by
    obtain rfl := Option.some.inj h
    split_ifs with h0 h1 h2
    · exact h0.symm
    · exact h1.symm
    · exact h2.symm
    · rfl
  exact Option.some.inj ((init?_rawValue g).symm.trans (hraw ▸ h))

end MemberGender

/-! ### Members -/

structure MemberRelation where
  isFriend : Bool := false
  remarkName : String := ""
  deriving DecidableEq

structure UserOnOrOffLine where
  uid : Int64 := 0
  isOnline : Bool := false
  onlineOrOfflineTime : Int64 := 0
  isShowOnLineStatus : Bool := false
  deriving DecidableEq

structure UserInfo where
  uid : Int64 := 0
  name : String := ""
  pic : String := ""
  gender : MemberGender := .secrecy
  friendRelation : MemberRelation := {}
  userOnOrOffline : UserOnOrOffLine := {}
  deriving DecidableEq

structure GroupMemberInfo where
  user : UserInfo := {}
  groupID : Int64 := 0
  type : MemberType := .ower
  deriving DecidableEq

/-! ### JSON coding -/

/-- A single-value container of the raw value; also for `MemberGender`. -/
instance : JSONCodable MemberType where
  encode t := encode t.rawValue
  portable t := JSONEncodable.portable t.rawValue
  decode j := (decode j).bind MemberType.init?

instance : JSONCodable MemberGender where
  encode g := encode g.rawValue
  portable g := JSONEncodable.portable g.rawValue
  decode j := (decode j).bind MemberGender.init?

theorem MemberGender.decode_encode (g : MemberGender) : decode (encode g) = some g.stored := by
  have h : decode (encode g.rawValue) = some g.rawValue := LosslessCoding.decode_encode _
  rw [← MemberGender.init?_rawValue]
  exact congrArg (Option.bind · MemberGender.init?) h

instance : JSONCodable MemberRelation where
  encode r := .keyed [("isFriend", some (encode r.isFriend)), ("remarkName", some (encode r.remarkName))]
  portable r := Json.portable_keyed (by simp) (by simp [JSONEncodable.portable])
  decode j := do
    some { isFriend := ← j.decodeKey Bool "isFriend", remarkName := ← j.decodeKey String "remarkName" }

instance : LosslessCoding MemberRelation := ⟨fun r => by
  simp only [encode, decode]
  rw [Json.decodeKey_keyed (by simp) rfl, Json.decodeKey_keyed (by simp) rfl]
  rfl⟩

instance : JSONCodable UserOnOrOffLine where
  encode o := .keyed [("uid", some (encode o.uid)), ("isOnline", some (encode o.isOnline)),
    ("onlineOrOfflineTime", some (encode o.onlineOrOfflineTime)),
    ("isShowOnLineStatus", some (encode o.isShowOnLineStatus))]
  portable o := Json.portable_keyed (by simp) (by simp [JSONEncodable.portable])
  decode j := do
    some {
      uid := ← j.decodeKey Int64 "uid"
      isOnline := ← j.decodeKey Bool "isOnline"
      onlineOrOfflineTime := ← j.decodeKey Int64 "onlineOrOfflineTime"
      isShowOnLineStatus := ← j.decodeKey Bool "isShowOnLineStatus" }

instance : LosslessCoding UserOnOrOffLine := ⟨fun o => by
  have h : ∀ n : Int64, decode (encode n) = some n := LosslessCoding.decode_encode
  simp only [encode, decode] at h ⊢
  rw [Json.decodeKey_keyed (by simp) rfl, Json.decodeKey_keyed (by simp) rfl, Json.decodeKey_keyed (by simp) rfl,
    Json.decodeKey_keyed (by simp) rfl]
  simp only [decode, h]
  rfl⟩

namespace UserInfo

/-- `encode(to:)`. -/
def encodeTo (u : UserInfo) : Json :=
  .keyed [("uid", some (encode u.uid)), ("name", some (encode u.name)), ("pic", some (encode u.pic)),
    ("gender", some (encode u.gender)), ("friendRelation", some (encode u.friendRelation)),
    ("userOnOrOffline", some (encode u.userOnOrOffline))]

/-- `init(from:)`. -/
def initFrom? (j : Json) : Option UserInfo := do
  some {
    uid := ← j.decodeKey Int64 "uid"
    name := ← j.decodeKey String "name"
    pic := ← j.decodeKey String "pic"
    gender := ← j.decodeKey MemberGender "gender"
    friendRelation := ← j.decodeKey MemberRelation "friendRelation"
    userOnOrOffline := ← j.decodeKey UserOnOrOffLine "userOnOrOffline" }

instance : JSONCodable UserInfo where
  encode := encodeTo
  portable u := Json.portable_keyed (by simp) (by simp [JSONEncodable.portable])
  decode := initFrom?

/-- What storage keeps of a user. -/
def stored (u : UserInfo) : UserInfo := { u with gender := u.gender.stored }

/-- Only the gender can come back changed. -/
theorem decode_encode (u : UserInfo) : decode (encode u) = some u.stored := by
  have h : initFrom? u.encodeTo = some u.stored := by
    rw [initFrom?, encodeTo, Json.decodeKey_keyed (by simp) rfl, Json.decodeKey_keyed (by simp) rfl,
      Json.decodeKey_keyed (by simp) rfl, Json.decodeKey_keyed (by simp) rfl, Json.decodeKey_keyed (by simp) rfl,
      Json.decodeKey_keyed (by simp) rfl, MemberGender.decode_encode]
    simp only [LosslessCoding.decode_encode]
    rfl
  exact h

/-- The column of users. -/
def column (coder : JsonCoder) : Column UserInfo := .json coder

theorem column_reads (coder : JsonCoder) : (column coder).Reads stored :=
  Column.json_reads coder (fun _ => rfl) decode_encode

end UserInfo

end StudyDB
