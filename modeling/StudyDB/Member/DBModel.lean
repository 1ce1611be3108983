import StudyDB.Member.Member
import StudyDB.WCDB.Table

/-! The database model of a group member. Three of its columns repeat parts of the
user for queries; an observer of the user keeps them in step, which decoding does
not run. -/

namespace StudyDB

open WCDB (Value Column TableCodable)

structure GroupMemberDBModel where
  user : Option UserInfo := none
  isFriend : Option Bool := none
  remarkName : Option String := none
  isOnline : Option Bool := none
  groupID : Option Int64 := none
  type : Option MemberType := none

namespace GroupMemberDBModel

/-- Assign the user; the observer then copies the repeated parts. -/
def setUser (m : GroupMemberDBModel) (user : Option UserInfo) : GroupMemberDBModel :=
  { m with
    user := user
    isFriend := user.map fun u => u.friendRelation.isFriend
    remarkName := user.map fun u => u.friendRelation.remarkName
    isOnline := user.map fun u => u.userOnOrOffline.isOnline }

/-- The repeated parts agree with the user. -/
structure Consistent (m : GroupMemberDBModel) : Prop where
  isFriend : m.isFriend = m.user.map fun u => u.friendRelation.isFriend
  remarkName : m.remarkName = m.user.map fun u => u.friendRelation.remarkName
  isOnline : m.isOnline = m.user.map fun u => u.userOnOrOffline.isOnline

theorem consistent_setUser (m : GroupMemberDBModel) (user : Option UserInfo) : (m.setUser user).Consistent :=
  ⟨rfl, rfl, rfl⟩

/-! ### Changes to the user of a model -/

/-- An assignment to `user`, or a mutation in place through `user?`. -/
inductive UserEdit where
  | assign (user : Option UserInfo)
  | mutate (f : UserInfo → UserInfo)

/-- Optional chaining on nil changes nothing, and then the observer does not run. -/
def edit (m : GroupMemberDBModel) : UserEdit → GroupMemberDBModel
  | .assign user => m.setUser user
  | .mutate f => match m.user with
    | some u => m.setUser (some (f u))
    | none => m

theorem Consistent.edit {m : GroupMemberDBModel} (h : m.Consistent) (e : UserEdit) : (m.edit e).Consistent := by
  cases e with
  | assign user => exact consistent_setUser m user
  | mutate f =>
    cases hu : m.user with
    | none =>
      simp only [GroupMemberDBModel.edit, hu]
      exact h
    | some u =>
      simp only [GroupMemberDBModel.edit, hu]
      exact consistent_setUser m _

theorem Consistent.edits {m : GroupMemberDBModel} (h : m.Consistent) (es : List UserEdit) :
    (es.foldl GroupMemberDBModel.edit m).Consistent := by
  induction es generalizing m with
  | nil => exact h
  | cons e es ih => exact ih (h.edit e)

/-! ### Coding -/

/-- The synthesised `encode(to:)`, which takes the private fields along. -/
def encodeTo (m : GroupMemberDBModel) : Json :=
  .keyed [("user", m.user.map encode), ("groupID", m.groupID.map encode), ("type", m.type.map encode),
    ("isFriend", m.isFriend.map encode), ("remarkName", m.remarkName.map encode), ("isOnline", m.isOnline.map encode)]

private theorem portable_map {α : Type} [JSONEncodable α] {o : Option α} {j : Json} (h : o.map encode = some j) :
    j.Portable := by
  obtain ⟨a, _, rfl⟩ := Option.map_eq_some_iff.mp h
  exact JSONEncodable.portable a

instance : JSONEncodable GroupMemberDBModel where
  encode := encodeTo
  portable m := by
    refine Json.portable_keyed (by simp) ?_
    simp only [List.mem_cons, List.not_mem_nil, or_false, forall_eq_or_imp, forall_eq, Option.mem_def]
    exact ⟨fun _ => portable_map, fun _ => portable_map, fun _ => portable_map, fun _ => portable_map,
      fun _ => portable_map, fun _ => portable_map⟩

/-- The synthesised `init(from:)`, in which the observer does not run. -/
def ofRow (coder : JsonCoder) (r : Sqlite.Row SQLValue) : GroupMemberDBModel where
  user := (UserInfo.column coder).readIfPresent (r "user")
  groupID := Column.int64.readIfPresent (r "groupID")
  type := MemberType.column.readIfPresent (r "type")
  isFriend := Column.bool.readIfPresent (r "isFriend")
  remarkName := Column.string.readIfPresent (r "remarkName")
  isOnline := Column.bool.readIfPresent (r "isOnline")

def table (coder : JsonCoder) : TableCodable GroupMemberDBModel where
  tableName := "groupMembers"
  keys := ["user", "groupID", "type", "isFriend", "remarkName", "isOnline"]
  unique := []
  encode m := [("user", (UserInfo.column coder).bindIfPresent m.user),
    ("groupID", Column.int64.bindIfPresent m.groupID),
    ("type", MemberType.column.bindIfPresent m.type),
    ("isFriend", Column.bool.bindIfPresent m.isFriend),
    ("remarkName", Column.string.bindIfPresent m.remarkName),
    ("isOnline", Column.bool.bindIfPresent m.isOnline)]
  decode r := some (ofRow coder r)
  encode_keys _ := rfl

/-- What storage keeps of a model. -/
def stored (m : GroupMemberDBModel) : GroupMemberDBModel :=
  { m with
    user := m.user.map UserInfo.stored
    remarkName := m.remarkName.map cString
    type := m.type.map MemberType.stored }

theorem ofRow_row (coder : JsonCoder) (m : GroupMemberDBModel) : ofRow coder ((table coder).row m) = m.stored := by
  rw [TableCodable.row_eq]
  have huser := (UserInfo.column_reads coder).ifPresent m.user
  have hgroup := Column.int64_lossless.ifPresent m.groupID
  have htype := MemberType.column_reads.ifPresent m.type
  have hfriend := Column.bool_lossless.ifPresent m.isFriend
  have hremark := Column.string_reads.ifPresent m.remarkName
  have honline := Column.bool_lossless.ifPresent m.isOnline
  simp [ofRow, table, stored, List.lookup_cons, huser, hgroup, htype, hfriend, hremark, honline]

/-- A stored consistent model is consistent, if its remark name is free of U+0000. -/
theorem Consistent.stored {m : GroupMemberDBModel} (h : m.Consistent) (hnul : ∀ s ∈ m.remarkName, NulFree s) :
    m.stored.Consistent := by
  have hremark : m.remarkName.map cString = m.remarkName := by
    cases hm : m.remarkName with
    | none => rfl
    | some s => rw [Option.map_some, cString_eq_self_iff.mpr (hnul s hm)]
  refine ⟨?_, ?_, ?_⟩
  · simp [GroupMemberDBModel.stored, h.isFriend, UserInfo.stored, Function.comp_def]
  · rw [GroupMemberDBModel.stored, hremark, h.remarkName]
    simp [UserInfo.stored, Function.comp_def]
  · simp [GroupMemberDBModel.stored, h.isOnline, UserInfo.stored, Function.comp_def]

end GroupMemberDBModel

/-! ### Conversions -/

namespace GroupMemberInfo

def dbModel (info : GroupMemberInfo) : GroupMemberDBModel :=
  let dbInfo : GroupMemberDBModel := {}
  let dbInfo := dbInfo.setUser (some info.user)
  { dbInfo with groupID := some info.groupID, type := some info.type }

/-- Overwrite the fields that the database model has. -/
def merge (info : GroupMemberInfo) (dbModel : GroupMemberDBModel) : GroupMemberInfo where
  user := dbModel.user.getD info.user
  groupID := dbModel.groupID.getD info.groupID
  type := dbModel.type.getD info.type

/-- What storage keeps of a member. -/
def stored (info : GroupMemberInfo) : GroupMemberInfo :=
  { info with user := info.user.stored, type := info.type.stored }

theorem consistent_dbModel (info : GroupMemberInfo) : info.dbModel.Consistent := ⟨rfl, rfl, rfl⟩

end GroupMemberInfo

namespace GroupMemberDBModel

def bizModel (dbModel : GroupMemberDBModel) : GroupMemberInfo := GroupMemberInfo.merge {} dbModel

theorem bizModel_stored_dbModel (info : GroupMemberInfo) : info.dbModel.stored.bizModel = info.stored := rfl

end GroupMemberDBModel

end StudyDB
