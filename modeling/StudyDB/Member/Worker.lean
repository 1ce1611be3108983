import StudyDB.Member.DBModel
import StudyDB.WCDB.Select

/-! `MemberDBWorker`: one table of group members. Adding appends; both updates hand
the converted members to the overload that takes a row of column values, where the
array is one value, and so overwrite every row. Proved: what adding keeps, when an
update replaces the members it names, and that the repeated columns agree with the
user in every row of every run. -/

namespace StudyDB

open WCDB (Value Column TableCodable)

namespace MemberDBWorker

abbrev Rows := List (Sqlite.Row SQLValue)

/-! ### The worker -/

/-- A call that throws returns false and leaves the rows. -/
def outcome (rows : Rows) : Option Rows → Bool × Rows
  | some rows' => (true, rows')
  | none => (false, rows)

section Calls
variable (coder : JsonCoder)

def addMembers (fault : Bool) (list : List GroupMemberInfo) (rows : Rows) : Bool × Rows :=
  outcome rows ((GroupMemberDBModel.table coder).insert fault (list.map GroupMemberInfo.dbModel) rows)

def allMembers (fault : Bool) (rows : Rows) : Option (List GroupMemberInfo) :=
  ((GroupMemberDBModel.table coder).getObjects fault rows).map fun list => list.map GroupMemberDBModel.bizModel

def searchMember (fault : Bool) (remarkName : String) (rows : Rows) : Option (List GroupMemberInfo) :=
  ((GroupMemberDBModel.table coder).select none fault (some (WCDB.like "remarkName" ("%" ++ remarkName ++ "%"))) id none
    none rows).map fun list => list.map GroupMemberDBModel.bizModel

def deleteAll (fault : Bool) (rows : Rows) : Bool × Rows :=
  outcome rows ((GroupMemberDBModel.table coder).delete fault rows)

/-- `update(infos:)`: the array is a single `ColumnEncodable` value. -/
def updateInfos (fault : Bool) (infos : List GroupMemberInfo) (rows : Rows) : Bool × Rows :=
  let row := [Column.jsonArchivedValue coder (infos.map GroupMemberInfo.dbModel)]
  outcome rows ((GroupMemberDBModel.table coder).update fault row rows)

/-- `update(info:)`. -/
def updateInfo (fault : Bool) (info : GroupMemberInfo) (rows : Rows) : Bool × Rows :=
  let row := [Column.jsonArchivedValue coder [info.dbModel]]
  outcome rows ((GroupMemberDBModel.table coder).update fault row rows)

end Calls

variable {coder : JsonCoder} {rows rows' : Rows}

theorem outcome_eq_true {result : Option Rows} (h : outcome rows result = (true, rows')) :
    result = some rows' := by
  cases result with
  | none => cases h
  | some r => exact congrArg some (Prod.mk.inj h).2

theorem outcome_eq_false {result : Option Rows} (h : outcome rows result = (false, rows')) : rows' = rows := by
  cases result with
  | none => exact (Prod.mk.inj h).2.symm
  | some r => cases h

/-! ### Adding -/

/-- Every row can be read. -/
theorem allMembers_eq (coder : JsonCoder) (rows : Rows) :
    allMembers coder false rows = some (rows.map fun r => (GroupMemberDBModel.ofRow coder r).bizModel) := by
  have hobjects : (GroupMemberDBModel.table coder).getObjects false rows =
      some (rows.map (GroupMemberDBModel.ofRow coder)) := by
    rw [TableCodable.getObjects, if_neg Bool.false_ne_true]
    simpa using mapM_map_eq_some (f := id) (h := GroupMemberDBModel.ofRow coder) (fun _ => rfl) rows
  rw [allMembers, hobjects, Option.map_some, List.map_map]
  rfl

theorem addMembers_eq_true {fault : Bool} {list : List GroupMemberInfo}
    (h : addMembers coder fault list rows = (true, rows')) :
    rows' = rows ++ list.map fun info => (GroupMemberDBModel.table coder).row info.dbModel := by
  rw [TableCodable.insert_eq_some rfl (outcome_eq_true h), List.map_map]
  rfl

/-- The members of a list that was added come last, as storage keeps them. -/
theorem allMembers_of_addMembers {fault : Bool} {list : List GroupMemberInfo}
    (h : addMembers coder fault list rows = (true, rows')) :
    allMembers coder false rows' =
      (allMembers coder false rows).map fun old => old ++ list.map GroupMemberInfo.stored := by
  rw [addMembers_eq_true h, allMembers_eq, allMembers_eq, Option.map_some, List.map_append, List.map_map]
  congr 2
  refine List.map_congr_left fun info _ => ?_
  rw [Function.comp_apply, GroupMemberDBModel.ofRow_row, GroupMemberDBModel.bizModel_stored_dbModel]

/-- Members whose type and gender were made of raw values survive storage: they come after
those that were there. -/
theorem allMembers_addMembers {fault : Bool} {list : List GroupMemberInfo}
    (hlist : ∀ info ∈ list, (∃ n, MemberType.init? n = some info.type) ∧
      ∃ n, MemberGender.init? n = some info.user.gender)
    (h : addMembers coder fault list rows = (true, rows')) :
    ∃ old, allMembers coder false rows = some old ∧ allMembers coder false rows' = some (old ++ list) := by
  have hstored : list.map GroupMemberInfo.stored = list := by
    refine (List.map_congr_left fun info hinfo => ?_).trans (List.map_id' list)
    obtain ⟨⟨_, htype⟩, ⟨_, hgender⟩⟩ := hlist info hinfo
    simp [GroupMemberInfo.stored, UserInfo.stored, MemberType.stored_of_init htype,
      MemberGender.stored_of_init hgender]
  refine ⟨_, allMembers_eq coder rows, ?_⟩
  rw [allMembers_of_addMembers h, hstored, allMembers_eq, Option.map_some]

/-- A member of unknown type and gender, and a friend who is online, into a table that has
two members. -/
theorem allMembers_addMembers_two :
    let rows := (addMembers .text false [{ user := { uid := 1 } }, { user := { uid := 2 }, groupID := 3 }] []).2
    let list : List GroupMemberInfo :=
      [{ user := { uid := 4, name := "m", gender := .other 9 }, groupID := 2, type := .other (-1) },
        { user := { uid := 5, friendRelation := { isFriend := true, remarkName := "n" },
                    userOnOrOffline := { uid := 5, isOnline := true, onlineOrOfflineTime := 7 } }
          groupID := 2 }]
    rows.length = 2 ∧ ∃ rows', addMembers .text false list rows = (true, rows') ∧
      ∃ old, allMembers .text false rows = some old ∧ allMembers .text false rows' = some (old ++ list) := by
  intro rows list
  have hlist : ∀ info ∈ list, (∃ n, MemberType.init? n = some info.type) ∧
      ∃ n, MemberGender.init? n = some info.user.gender := by
    intro info hinfo
    simp only [list, List.mem_cons, List.not_mem_nil, or_false] at hinfo
    rcases hinfo with rfl | rfl
    · exact ⟨⟨-1, by decide⟩, ⟨9, by decide⟩⟩
    · exact ⟨⟨0, by decide⟩, ⟨0, by decide⟩⟩
  have h : addMembers .text false list rows = (true, _) := rfl
  exact ⟨rfl, _, h, allMembers_addMembers hlist h⟩

/-! ### Updating -/

/-- An update leaves rows without a user, a group and a type. -/
theorem ofRow_updatedRow (coder : JsonCoder) (models : List GroupMemberDBModel) (r : Sqlite.Row SQLValue) :
    GroupMemberDBModel.ofRow coder (Sqlite.updatedRow
      (Sqlite.assignment .null (GroupMemberDBModel.table coder).keys
        ([Column.jsonArchivedValue coder models].map Value.bind)) r) = {} := by
  obtain ⟨d, hd, hr⟩ := coder.decodeData_encodeData (β := UserInfo) models rfl
  have huser : (UserInfo.column coder).read (.blob d) = none := hr
  simp [GroupMemberDBModel.ofRow, Sqlite.updatedRow, Sqlite.assignment, GroupMemberDBModel.table,
    List.idxOf?_cons, Column.jsonArchivedValue, hd, Value.bind, Column.readIfPresent, huser]

theorem updateInfo_eq (fault : Bool) (info : GroupMemberInfo) (rows : Rows) :
    updateInfo coder fault info rows = updateInfos coder fault [info] rows := rfl

/-- After an update every row decodes to a model without any value. -/
theorem ofRow_of_updateInfos {fault : Bool} {infos : List GroupMemberInfo}
    (h : updateInfos coder fault infos rows = (true, rows')) :
    rows'.map (GroupMemberDBModel.ofRow coder) = rows.map fun _ => {} := by
  rw [TableCodable.update_eq_some rfl (outcome_eq_true h), List.map_map]
  exact List.map_congr_left fun r _ => ofRow_updatedRow coder _ r

/-- An update makes every member the default one. -/
theorem allMembers_updateInfos {fault : Bool} {infos : List GroupMemberInfo}
    (h : updateInfos coder fault infos rows = (true, rows')) :
    allMembers coder false rows' = (allMembers coder false rows).map fun old => old.map fun _ => {} := by
  have hrows := congrArg (List.map GroupMemberDBModel.bizModel) (ofRow_of_updateInfos h)
  rw [List.map_map, List.map_map] at hrows
  rw [allMembers_eq, allMembers_eq, Option.map_some, List.map_map]
  exact congrArg some hrows

/-- What identifies a member. -/
def pair (m : GroupMemberInfo) : Int64 × Int64 := (m.groupID, m.user.uid)

/-- What an update should make of a member: the info with its pair, if there is one. -/
def replacement (infos : List GroupMemberInfo) (m : GroupMemberInfo) : GroupMemberInfo :=
  (infos.find? fun info => pair info = pair m).getD m

/-- The tables that an update treats as it should: the empty one, and the one whose
only member has the pair (0, 0) and is to be replaced by the default member. -/
def Harmless (infos old : List GroupMemberInfo) : Prop :=
  old = [] ∨ ∃ m, old = [m] ∧ pair m = (0, 0) ∧ replacement infos m = {}

theorem pair_replacement (infos : List GroupMemberInfo) (m : GroupMemberInfo) :
    pair (replacement infos m) = pair m := by
  unfold replacement
  cases h : infos.find? fun info => pair info = pair m with
  | none => rfl
  | some info => simpa using List.find?_some h

/-- Every replacement is the default member only in harmless tables. -/
theorem replacements_eq_default_iff {old : List GroupMemberInfo} (hold : (old.map pair).Nodup)
    (infos : List GroupMemberInfo) :
    (old.map fun _ => ({} : GroupMemberInfo)) = old.map (replacement infos) ↔ Harmless infos old := by
  rw [List.map_inj_left]
  constructor
  · intro h
    have hpair : ∀ m ∈ old, pair m = (0, 0) := fun m hm => by
      rw [← pair_replacement infos m, ← h m hm]
      rfl
    match old with
    | [] => exact .inl rfl
    | [m] =>
      have hm : m ∈ [m] := List.mem_singleton_self m
      exact .inr ⟨m, rfl, hpair m hm, (h m hm).symm⟩
    | m :: m' :: ms =>
      refine absurd ((hpair m ?_).trans (hpair m' ?_).symm) ?_
      · simp
      · simp
      · simp only [List.map_cons, List.nodup_cons, List.mem_cons, not_or] at hold
        exact hold.1.1
  · rintro (rfl | ⟨m, rfl, _, hm⟩)
    · simp
    · simpa using hm.symm

/-- Updating with the members themselves should change nothing. -/
theorem map_replacement_self {old : List GroupMemberInfo} (hold : (old.map pair).Nodup) :
    old.map (replacement old) = old := by
  refine (List.map_congr_left fun m hm => ?_).trans (List.map_id' old)
  cases h : old.find? fun info => pair info = pair m with
  | none => simp [replacement, h]
  | some info =>
    have hpair : pair info = pair m := by simpa using List.find?_some h
    have heq : info = m := List.inj_on_of_nodup_map hold (List.mem_of_find?_eq_some h) hm hpair
    simp [replacement, h, heq]

/-- An update that returns true replaces the members it names, and leaves the
others, exactly in harmless tables. -/
theorem update_replaces_iff {old : List GroupMemberInfo} (hold : allMembers coder false rows = some old)
    (hpairs : (old.map pair).Nodup) :
    (∀ fault infos rows', updateInfos coder fault infos rows = (true, rows') →
      (allMembers coder false rows' = some (old.map (replacement infos)) ↔ Harmless infos old)) ∧
    (∀ fault info rows', updateInfo coder fault info rows = (true, rows') →
      (allMembers coder false rows' = some (old.map (replacement [info])) ↔ Harmless [info] old)) ∧
    ∀ fault rows', updateInfos coder fault old rows = (true, rows') →
      (allMembers coder false rows' = some old ↔ Harmless old old) := by
  have key : ∀ fault infos rows', updateInfos coder fault infos rows = (true, rows') →
      (allMembers coder false rows' = some (old.map (replacement infos)) ↔ Harmless infos old) := by
    intro fault infos rows' h
    rw [allMembers_updateInfos h, hold, Option.map_some, Option.some.injEq]
    exact replacements_eq_default_iff hpairs infos
  refine ⟨key, fun fault info rows' h => ?_, fun fault rows' h => ?_⟩
  · rw [updateInfo_eq] at h
    exact key fault [info] rows' h
  · have hself := key fault old rows' h
    rwa [map_replacement_self hpairs] at hself

/-- What an empty table holds after an insertion. -/
theorem allMembers_added (coder : JsonCoder) (list : List GroupMemberInfo) :
    allMembers coder false (addMembers coder false list []).2 = some (list.map GroupMemberInfo.stored) := by
  have h : addMembers coder false list [] = (true, (addMembers coder false list []).2) := by
    cases list with
    | nil => rfl
    | cons info list =>
      simp [addMembers, TableCodable.insert, Sqlite.insertAll_of_unique_nil SQLValue.null
        (S := (GroupMemberDBModel.table coder).schema) rfl, outcome]
  rw [allMembers_of_addMembers h, allMembers_eq]
  rfl

/-- Two members of one group. -/
def twoMembers : List GroupMemberInfo :=
  [{ user := { uid := 1 }, groupID := 3 }, { user := { uid := 2 }, groupID := 3 }]

/-- A table of two members. -/
theorem update_replaces_iff_two :
    let rows := (addMembers .text false twoMembers []).2
    ∀ fault rows',
      updateInfo .text fault { user := { uid := 1, name := "n" }, groupID := 3 } rows = (true, rows') →
      (allMembers .text false rows' =
          some (twoMembers.map (replacement [{ user := { uid := 1, name := "n" }, groupID := 3 }])) ↔
        Harmless [{ user := { uid := 1, name := "n" }, groupID := 3 }] twoMembers) := by
  intro rows fault rows'
  exact (update_replaces_iff (allMembers_added .text twoMembers) (by decide)).2.1 fault _ rows'

/-- Updating two stored members with themselves loses them. -/
theorem update_with_stored_loses_members :
    let rows := (addMembers .text false twoMembers []).2
    allMembers .text false rows = some twoMembers ∧ (twoMembers.map pair).Nodup ∧
      ∃ rows', updateInfos .text false twoMembers rows = (true, rows') ∧
        allMembers .text false rows' ≠ some (twoMembers.map (replacement twoMembers)) := by
  intro rows
  have hrows : allMembers .text false rows = some twoMembers := allMembers_added .text twoMembers
  obtain ⟨rows', hupdate⟩ : ∃ rows', updateInfos .text false twoMembers rows = (true, rows') := ⟨_, rfl⟩
  refine ⟨hrows, by decide, rows', hupdate, ?_⟩
  rw [allMembers_updateInfos hupdate, hrows]
  decide

/-! ### The repeated columns over runs -/

/-- A call that changes the table. -/
inductive Call where
  | addMembers (list : List GroupMemberInfo)
  | updateInfo (info : GroupMemberInfo)
  | updateInfos (infos : List GroupMemberInfo)
  | deleteAll

/-- The remark names that a call adds are free of U+0000. -/
def Call.NulFree : Call → Prop
  | .addMembers list => ∀ info ∈ list, StudyDB.NulFree info.user.friendRelation.remarkName
  | _ => True

def call (coder : JsonCoder) (c : Call) (fault : Bool) (rows : Rows) : Bool × Rows :=
  match c with
  | .addMembers list => addMembers coder fault list rows
  | .updateInfo info => updateInfo coder fault info rows
  | .updateInfos infos => updateInfos coder fault infos rows
  | .deleteAll => deleteAll coder fault rows

/-- The rows after calls, each with its fault if it has one. -/
def run (coder : JsonCoder) (calls : List (Call × Bool)) (rows : Rows) : Rows :=
  calls.foldl (fun rows c => (call coder c.1 c.2 rows).2) rows

/-- Every row decodes to a consistent model. -/
def Consistent (coder : JsonCoder) (rows : Rows) : Prop :=
  ∀ r ∈ rows, (GroupMemberDBModel.ofRow coder r).Consistent

theorem Consistent.addMembers {fault : Bool} {list : List GroupMemberInfo} (h : Consistent coder rows)
    (hnul : (Call.addMembers list).NulFree) (ha : addMembers coder fault list rows = (true, rows')) :
    Consistent coder rows' := by
  intro r hr
  rw [addMembers_eq_true ha] at hr
  rcases List.mem_append.mp hr with hr | hr
  · exact h r hr
  · obtain ⟨info, hinfo, rfl⟩ := List.mem_map.mp hr
    rw [GroupMemberDBModel.ofRow_row]
    refine info.consistent_dbModel.stored fun s hs => ?_
    obtain rfl := Option.some.inj hs
    exact hnul info hinfo

theorem Consistent.updateInfos {fault : Bool} {infos : List GroupMemberInfo}
    (hu : updateInfos coder fault infos rows = (true, rows')) : Consistent coder rows' := by
  intro r hr
  have hmem : GroupMemberDBModel.ofRow coder r ∈ rows'.map (GroupMemberDBModel.ofRow coder) :=
    List.mem_map_of_mem hr
  rw [ofRow_of_updateInfos hu] at hmem
  obtain ⟨_, _, hempty⟩ := List.mem_map.mp hmem
  rw [← hempty]
  exact ⟨rfl, rfl, rfl⟩

/-- Every call keeps the rows consistent. -/
theorem Consistent.call (h : Consistent coder rows) {c : Call} (hnul : c.NulFree) (fault : Bool) :
    Consistent coder (call coder c fault rows).2 := by
  obtain ⟨returned, rows', hcall⟩ :
      ∃ returned rows', MemberDBWorker.call coder c fault rows = (returned, rows') := ⟨_, _, rfl⟩
  rw [hcall]
  cases returned with
  | false =>
    have : rows' = rows := by
      cases c <;> exact outcome_eq_false hcall
    rwa [this]
  | true =>
    cases c with
    | addMembers list => exact h.addMembers hnul hcall
    | updateInfo info =>
      have hcall' : MemberDBWorker.updateInfos coder fault [info] rows = (true, rows') := hcall
      exact Consistent.updateInfos hcall'
    | updateInfos infos => exact Consistent.updateInfos hcall
    | deleteAll =>
      have hrows := outcome_eq_true hcall
      unfold TableCodable.delete at hrows
      split_ifs at hrows
      obtain rfl := Option.some.inj hrows
      exact fun r hr => absurd hr List.not_mem_nil

theorem Consistent.run (h : Consistent coder rows) {calls : List (Call × Bool)}
    (hnul : ∀ c ∈ calls, c.1.NulFree) : Consistent coder (run coder calls rows) := by
  induction calls generalizing rows with
  | nil => exact h
  | cons c calls ih =>
    exact ih (h.call (hnul c List.mem_cons_self) c.2) fun c' hc' => hnul c' (List.mem_cons_of_mem c hc')

/-- In every state that is reached from the empty table, every row decodes to a
model whose repeated parts agree with its user, and keep agreeing under any changes
to the user. -/
theorem decoded_consistent {calls : List (Call × Bool)} (hnul : ∀ c ∈ calls, c.1.NulFree)
    {r : Sqlite.Row SQLValue} (hr : r ∈ run coder calls []) {m : GroupMemberDBModel}
    (hm : (GroupMemberDBModel.table coder).decode r = some m) (es : List GroupMemberDBModel.UserEdit) :
    (es.foldl GroupMemberDBModel.edit m).Consistent := by
  have hrows : Consistent coder (run coder calls []) :=
    Consistent.run (fun r hr => absurd hr List.not_mem_nil) hnul
  obtain rfl : GroupMemberDBModel.ofRow coder r = m := Option.some.inj hm
  exact (hrows r hr).edits es

/-- A friend, stored, decoded, renamed and removed. -/
theorem decoded_consistent_friend :
    let info : GroupMemberInfo := { user := { friendRelation := { isFriend := true, remarkName := "n" } } }
    let r := (GroupMemberDBModel.table .text).row info.dbModel
    r ∈ run .text [(.addMembers [info], false)] [] ∧
      (([.mutate fun u => { u with friendRelation := { u.friendRelation with remarkName := "m" } }, .assign none] :
        List GroupMemberDBModel.UserEdit).foldl GroupMemberDBModel.edit
          (GroupMemberDBModel.ofRow .text r)).Consistent := by
  intro info r
  have hr : r ∈ run .text [(.addMembers [info], false)] [] := List.mem_singleton_self r
  refine ⟨hr, decoded_consistent (fun c hc => ?_) hr rfl _⟩
  rw [List.mem_singleton.mp hc]
  simp [Call.NulFree, StudyDB.NulFree, info]

end MemberDBWorker

end StudyDB
