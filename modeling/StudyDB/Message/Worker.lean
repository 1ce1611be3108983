import StudyDB.Message.Tables

/-! `MessageDBWorker`: three tables of messages, each with a call that stores
messages and one that returns all. Storing is an insertion with replacement, in
tables where nothing is unique. Proved: over any run of the three calls, exactly
when each table behaves as an upsert on the message's number. -/

namespace StudyDB

open WCDB (Value Column TableCodable)

/-! ### The worker -/

/-- The table of messages that a call works on. -/
inductive ChatTable where
  | chats | chats2 | chats3
  deriving DecidableEq, Repr

/-- The rows of the three tables. -/
abbrev MessageDB := ChatTable → List (Sqlite.Row SQLValue)

def MessageDB.empty : MessageDB := fun _ => []

namespace MessageDBWorker

section Calls
variable {α : Type} (T : TableCodable α) (table : ChatTable)

/-- `insertOrReplace` of converted messages, and whether it went through. -/
def add (dbModel : AnyMessage → α) (fault : Bool) (msgs : List AnyMessage) (db : MessageDB) : Bool × MessageDB :=
  match T.insertOrReplace fault (msgs.map dbModel) (db table) with
  | some rows => (true, Function.update db table rows)
  | none => (false, db)

/-- `getObjects` of the whole table, converted; no messages where it throws. -/
def get (model : α → AnyMessage) (fault : Bool) (db : MessageDB) : List AnyMessage :=
  match T.getObjects fault (db table) with
  | some list => list.map model
  | none => []

/-- `COUNT(msgId)`, which passes over NULL. -/
def count (fault : Bool) (db : MessageDB) : Option Int64 :=
  if fault then none else some (Int64.ofNat ((db table).countP fun r => r "msgId" ≠ .null))

end Calls

def getMsgCount : Bool → MessageDB → Option Int64 := count .chats

def getMsgCount2 : Bool → MessageDB → Option Int64 := count .chats2

def getMsgCount3 : Bool → MessageDB → Option Int64 := count .chats3

variable (serialization coder : JsonCoder)

def addMessages : Bool → List AnyMessage → MessageDB → Bool × MessageDB :=
  add (MessageDBModel.table coder) .chats (AnyMessage.dbModel serialization)

def getMessages : Bool → MessageDB → List AnyMessage :=
  get (MessageDBModel.table coder) .chats (MessageDBModel.model serialization)

def addMessages2 : Bool → List AnyMessage → MessageDB → Bool × MessageDB :=
  add (MessageDBModel2.table coder) .chats2 (AnyMessage.dbModel2 serialization)

def getMessages2 : Bool → MessageDB → List AnyMessage :=
  get (MessageDBModel2.table coder) .chats2 (MessageDBModel2.model serialization)

def addMessages3 : Bool → List AnyMessage → MessageDB → Bool × MessageDB :=
  add (MessageDBModel3.table coder) .chats3 AnyMessage.dbModel3

def getMessages3 : Bool → MessageDB → List AnyMessage :=
  get (MessageDBModel3.table coder) .chats3 MessageDBModel3.model

/-- The call that stores messages in a table. -/
def addTo : ChatTable → Bool → List AnyMessage → MessageDB → Bool × MessageDB
  | .chats => addMessages serialization coder
  | .chats2 => addMessages2 serialization coder
  | .chats3 => addMessages3 coder

/-- The call that returns a table's messages. -/
def getFrom : ChatTable → Bool → MessageDB → List AnyMessage
  | .chats => getMessages serialization coder
  | .chats2 => getMessages2 serialization coder
  | .chats3 => getMessages3 coder

/-- Calls that store messages, one after the other and each returning true, lead
from one state to another. -/
inductive Run : MessageDB → List (ChatTable × List AnyMessage) → MessageDB → Prop
  | nil (db : MessageDB) : Run db [] db
  | snoc {db db' db'' : MessageDB} {calls : List (ChatTable × List AnyMessage)} {table : ChatTable}
      {msgs : List AnyMessage} (fault : Bool) (run : Run db calls db')
      (call : addTo serialization coder table fault msgs db' = (true, db'')) :
      Run db (calls ++ [(table, msgs)]) db''

end MessageDBWorker

/-! ### Upserts -/

/-- The messages with a given number. -/
def numbered (id : Int64) (ms : List AnyMessage) : List AnyMessage := ms.filter fun m => m.base.msgId = some id

/-- What storing should be: of all messages added with a number one is there, with
the content of the last. -/
def Upserts (added stored : List AnyMessage) : Prop :=
  ∀ id last, (numbered id added).getLast? = some last →
    ∃ m, numbered id stored = [m] ∧ m.base.content = last.base.content

/-- The numbers of the messages that have one. -/
def numbers (ms : List AnyMessage) : List Int64 := ms.filterMap fun m => m.base.msgId

/-- No number occurs twice, and no numbered message has U+0000 in its content. -/
def Clean (ms : List AnyMessage) : Prop :=
  (numbers ms).Nodup ∧ ∀ m ∈ ms, m.base.msgId ≠ none → ∀ s ∈ m.base.content, NulFree s

theorem map_cString_eq_self_iff {o : Option String} : o.map cString = o ↔ ∀ s ∈ o, NulFree s := by
  cases o with
  | none => simp
  | some s => simp [cString_eq_self_iff]

theorem length_numbered (id : Int64) (ms : List AnyMessage) :
    (numbered id ms).length = (numbers ms).count id := by
  induction ms with
  | nil => rfl
  | cons m ms ih =>
    simp only [numbered, numbers] at ih ⊢
    rw [List.filter_cons, List.filterMap_cons]
    cases hm : m.base.msgId with
    | none => simpa using ih
    | some n =>
      by_cases hn : n = id
      · subst hn
        simpa using ih
      · simpa [hn] using ih

section Appended
variable {keep : AnyMessage → AnyMessage} (hid : ∀ m, (keep m).base.msgId = m.base.msgId)
include hid

theorem numbered_map (id : Int64) (ms : List AnyMessage) :
    numbered id (ms.map keep) = (numbered id ms).map keep := by
  simp [numbered, List.filter_map, Function.comp_def, hid]

variable (hcontent : ∀ m, (keep m).base.content = m.base.content.map cString)
include hcontent

/-- An appending store that is an upsert has one message for each number, and keeps
its content whole. -/
theorem numbered_of_upserts {added : List AnyMessage} (h : Upserts added (added.map keep)) {m : AnyMessage}
    {id : Int64} (hm : m ∈ added) (hmid : m.base.msgId = some id) :
    numbered id added = [m] ∧ m.base.content.map cString = m.base.content := by
  have hmem : m ∈ numbered id added := List.mem_filter.mpr ⟨hm, by simpa using hmid⟩
  obtain ⟨last, hlast⟩ : ∃ last, (numbered id added).getLast? = some last := by
    rw [← Option.isSome_iff_exists, List.getLast?_isSome]
    exact List.ne_nil_of_mem hmem
  obtain ⟨m', hm', hc⟩ := h id last hlast
  rw [numbered_map hid] at hm'
  obtain ⟨a, ha, rfl⟩ := List.map_eq_singleton_iff.mp hm'
  rw [ha] at hmem hlast
  obtain rfl := List.mem_singleton.mp hmem
  rw [List.getLast?_singleton] at hlast
  obtain rfl := Option.some.inj hlast
  exact ⟨ha, by rw [← hcontent, hc]⟩

theorem clean_of_upserts {added : List AnyMessage} (h : Upserts added (added.map keep)) : Clean added := by
  constructor
  · rw [numbers, List.nodup_iff_count_le_one]
    intro id
    rw [← numbers, ← length_numbered]
    cases hl : numbered id added with
    | nil => exact Nat.zero_le 1
    | cons m ms =>
      have hmem : m ∈ numbered id added := hl ▸ List.mem_cons_self
      obtain ⟨hm, hmid⟩ := List.mem_filter.mp hmem
      rw [← hl, (numbered_of_upserts hid hcontent h hm (by simpa using hmid)).1]
      exact le_rfl
  · intro m hm hne
    obtain ⟨id, hmid⟩ := Option.ne_none_iff_exists'.mp hne
    exact map_cString_eq_self_iff.mp (numbered_of_upserts hid hcontent h hm hmid).2

theorem upserts_of_clean {added : List AnyMessage} (h : Clean added) : Upserts added (added.map keep) := by
  obtain ⟨hnodup, hclean⟩ := h
  intro id last hlast
  have hlen : (numbered id added).length ≤ 1 := by
    rw [length_numbered]
    exact List.nodup_iff_count_le_one.mp hnodup id
  have hmem : last ∈ numbered id added := List.mem_of_getLast? hlast
  obtain ⟨hm, hmid⟩ := List.mem_filter.mp hmem
  obtain ⟨a, hsingle⟩ := List.length_eq_one_iff.mp (le_antisymm hlen (List.length_pos_of_mem hmem))
  obtain rfl : last = a := List.mem_singleton.mp (hsingle ▸ hmem)
  refine ⟨keep last, by rw [numbered_map hid, hsingle, List.map_singleton], ?_⟩
  rw [hcontent, map_cString_eq_self_iff.mpr (hclean last hm (by simp [of_decide_eq_true hmid]))]

/-- A store that appends every message, its text ending at the first U+0000, is an
upsert for exactly the clean histories. -/
theorem upserts_map_iff (added : List AnyMessage) : Upserts added (added.map keep) ↔ Clean added :=
  ⟨clean_of_upserts hid hcontent, upserts_of_clean hid hcontent⟩

end Appended

/-! ### What a table gives back of a message -/

/-- Reading the sub-info fields leaves the common fields alone. -/
@[simp] theorem base_decodeSubInfo (model : AnyMessage) (json : Option Json) :
    (model.decodeSubInfo json).base = model.base := by
  unfold AnyMessage.decodeSubInfo
  split
  · cases model <;> rfl
  · rfl

@[simp] theorem base_decodeSubInfoModel (model : AnyMessage) (dbModel : MessageDBModel3) :
    (model.decodeSubInfoModel dbModel).base = model.base := by cases model <;> rfl

@[simp] theorem base_newModel (fields : MessageDBFields) : fields.newModel.base = fields.toMessageModel :=
  AnyMessage.base_setBase _ _

/-- In a row that holds the common columns, the shared decoder finds the number
and, up to a U+0000, the content. -/
theorem decode_fields (coder : JsonCoder) {m : MessageDBFields} {r : Sqlite.Row SQLValue}
    (hid : r "msgId" = Column.int64.bindIfPresent m.msgId)
    (hcontent : r "content" = Column.string.bindIfPresent m.content) :
    ∃ m', MessageDBFields.decode coder r = some m' ∧ m'.msgId = m.msgId ∧ m'.content = m.content.map cString := by
  refine ⟨_, rfl, ?_, ?_⟩
  · rw [hid]
    exact Column.int64_lossless.ifPresent m.msgId
  · rw [hcontent]
    exact Column.string_reads.ifPresent m.content

/-- A table that never replaces a row, and gives back of each message the number
and, up to a U+0000, the content. -/
structure Appends {α : Type} (T : TableCodable α) (dbModel : AnyMessage → α) (model : α → AnyMessage) :
    Prop where
  unique : T.unique = []
  decode_row : ∀ m, ∃ a, T.decode (T.row (dbModel m)) = some a ∧ (model a).base.msgId = m.base.msgId ∧
    (model a).base.content = m.base.content.map cString

/-- So does a table whose rows hold the common columns and whose models are made of
the common fields that its rows decode to. -/
theorem appends_of_fields (coder : JsonCoder) {α : Type} {T : TableCodable α} {dbModel : AnyMessage → α}
    {model : α → AnyMessage} (unique : T.unique = [])
    (hrow : ∀ m, T.row (dbModel m) "msgId" = Column.int64.bindIfPresent m.base.msgId ∧
      T.row (dbModel m) "content" = Column.string.bindIfPresent m.base.content)
    (hdecode : ∀ r fields, MessageDBFields.decode coder r = some fields →
      ∃ a, T.decode r = some a ∧ (model a).base = fields.toMessageModel) : Appends T dbModel model where
  unique := unique
  decode_row := by
    intro m
    obtain ⟨hid, hcontent⟩ := hrow m
    obtain ⟨fields, hfields, hid', hcontent'⟩ := decode_fields coder (m := m.base.toDBFields) hid hcontent
    obtain ⟨a, ha, hbase⟩ := hdecode _ fields hfields
    refine ⟨a, ha, ?_, ?_⟩
    · rw [hbase]
      exact hid'
    · rw [hbase]
      exact hcontent'

section Tables
variable (serialization coder : JsonCoder)

theorem appends_chats :
    Appends (MessageDBModel.table coder) (AnyMessage.dbModel serialization)
      (MessageDBModel.model serialization) := by
  apply appends_of_fields coder rfl
  · intro m
    rw [TableCodable.row_eq]
    exact ⟨rfl, rfl⟩
  · intro r fields hfields
    refine ⟨_, (congrArg (Option.map _) hfields : MessageDBModel.ofRow coder _ = _), ?_⟩
    rw [MessageDBModel.model, base_decodeSubInfo, base_newModel]

theorem appends_chats2 :
    Appends (MessageDBModel2.table coder) (AnyMessage.dbModel2 serialization)
      (MessageDBModel2.model serialization) := by
  apply appends_of_fields coder rfl
  · intro m
    rw [TableCodable.row_eq]
    exact ⟨rfl, rfl⟩
  · intro r fields hfields
    refine ⟨_, (congrArg (Option.map _) hfields : MessageDBModel2.ofRow coder _ = _), ?_⟩
    rw [MessageDBModel2.model, base_decodeSubInfo, base_newModel]

theorem appends_chats3 : Appends (MessageDBModel3.table coder) AnyMessage.dbModel3 MessageDBModel3.model := by
  apply appends_of_fields coder rfl
  · intro m
    have hfields : m.dbModel3.toMessageDBFields = m.base.toDBFields := m.toMessageDBFields_encodeSubInfoModel _
    rw [TableCodable.row_eq]
    constructor
    · exact congrArg (fun f => Column.int64.bindIfPresent f.msgId) hfields
    · exact congrArg (fun f => Column.string.bindIfPresent f.content) hfields
  · intro r fields hfields
    refine ⟨_, (congrArg (Option.map _) hfields : MessageDBModel3.ofRow coder _ = _), ?_⟩
    rw [MessageDBModel3.model, base_decodeSubInfoModel, base_newModel]

end Tables

/-! ### Runs of the worker -/

namespace MessageDBWorker

section Calls
variable {α : Type} {T : TableCodable α} {dbModel : AnyMessage → α} {model : α → AnyMessage}
  (h : Appends T dbModel model) (table : ChatTable)
include h

theorem add_eq_true {fault : Bool} {msgs : List AnyMessage} {db db' : MessageDB}
    (ha : add T table dbModel fault msgs db = (true, db')) :
    db' = Function.update db table (db table ++ msgs.map fun m => T.row (dbModel m)) := by
  unfold add at ha
  split at ha
  · rename_i rows hrows
    rw [TableCodable.insertOrReplace_eq_some h.unique hrows] at ha
    rw [← (Prod.mk.inj ha).2, List.map_map]
    rfl
  · cases (Prod.mk.inj ha).1

theorem add_no_fault (msgs : List AnyMessage) (db : MessageDB) :
    add T table dbModel false msgs db =
      (true, Function.update db table (db table ++ msgs.map fun m => T.row (dbModel m))) := by
  rw [add, TableCodable.insertOrReplace_no_fault h.unique, List.map_map]
  rfl

/-- The messages of a table that holds stored messages are these, as the table
keeps them. -/
theorem get_of_rows {msgs : List AnyMessage} {db : MessageDB}
    (hdb : db table = msgs.map fun m => T.row (dbModel m)) :
    ∃ keep : AnyMessage → AnyMessage, get T table model false db = msgs.map keep ∧
      (∀ m, (keep m).base.msgId = m.base.msgId) ∧ ∀ m, (keep m).base.content = m.base.content.map cString := by
  choose a ha hid hcontent using h.decode_row
  refine ⟨fun m => model (a m), ?_, hid, hcontent⟩
  have hobjects : T.getObjects false (db table) = some (msgs.map a) := by
    rw [TableCodable.getObjects, if_neg Bool.false_ne_true, hdb]
    exact mapM_map_eq_some ha msgs
  rw [get, hobjects]
  exact List.map_map

end Calls

variable {serialization coder : JsonCoder}

/-- The row that a table holds of a message. -/
def rowOf (serialization coder : JsonCoder) : ChatTable → AnyMessage → Sqlite.Row SQLValue
  | .chats, m => (MessageDBModel.table coder).row (m.dbModel serialization)
  | .chats2, m => (MessageDBModel2.table coder).row (m.dbModel2 serialization)
  | .chats3, m => (MessageDBModel3.table coder).row m.dbModel3

/-- A call that returns true appends its messages to its table. -/
theorem addTo_eq_true {table : ChatTable} {fault : Bool} {msgs : List AnyMessage} {db db' : MessageDB}
    (h : addTo serialization coder table fault msgs db = (true, db')) :
    db' = Function.update db table (db table ++ msgs.map (rowOf serialization coder table)) := by
  cases table with
  | chats => exact add_eq_true (appends_chats serialization coder) _ h
  | chats2 => exact add_eq_true (appends_chats2 serialization coder) _ h
  | chats3 => exact add_eq_true (appends_chats3 coder) _ h

theorem addTo_no_fault (table : ChatTable) (msgs : List AnyMessage) (db : MessageDB) :
    addTo serialization coder table false msgs db =
      (true, Function.update db table (db table ++ msgs.map (rowOf serialization coder table))) := by
  cases table with
  | chats => exact add_no_fault (appends_chats serialization coder) _ msgs db
  | chats2 => exact add_no_fault (appends_chats2 serialization coder) _ msgs db
  | chats3 => exact add_no_fault (appends_chats3 coder) _ msgs db

theorem getFrom_of_rows {table : ChatTable} {msgs : List AnyMessage} {db : MessageDB}
    (hdb : db table = msgs.map (rowOf serialization coder table)) :
    ∃ keep : AnyMessage → AnyMessage, getFrom serialization coder table false db = msgs.map keep ∧
      (∀ m, (keep m).base.msgId = m.base.msgId) ∧ ∀ m, (keep m).base.content = m.base.content.map cString := by
  cases table with
  | chats => exact get_of_rows (appends_chats serialization coder) _ hdb
  | chats2 => exact get_of_rows (appends_chats2 serialization coder) _ hdb
  | chats3 => exact get_of_rows (appends_chats3 coder) _ hdb

/-- The messages that calls add to a table, in order. -/
def addedTo (table : ChatTable) (calls : List (ChatTable × List AnyMessage)) : List AnyMessage :=
  calls.flatMap fun c => if c.1 = table then c.2 else []

theorem addedTo_snoc (table : ChatTable) (calls : List (ChatTable × List AnyMessage))
    (c : ChatTable × List AnyMessage) :
    addedTo table (calls ++ [c]) = addedTo table calls ++ if c.1 = table then c.2 else [] := by
  simp [addedTo]

/-- A run leaves in each table what was added to it. -/
theorem Run.rows {db db' : MessageDB} {calls : List (ChatTable × List AnyMessage)}
    (run : Run serialization coder db calls db') (table : ChatTable) :
    db' table = db table ++ (addedTo table calls).map (rowOf serialization coder table) := by
  induction run with
  | nil => simp [addedTo]
  | @snoc db' db'' calls called msgs fault run call ih =>
    rw [addTo_eq_true call, addedTo_snoc]
    by_cases ht : called = table
    · subst ht
      rw [Function.update_self, ih, if_pos rfl, List.map_append, List.append_assoc]
    · rw [Function.update_of_ne (Ne.symm ht), ih, if_neg ht, List.append_nil]

/-- A table that holds its messages is an upsert of them if they are clean. -/
theorem upserts_getFrom_iff {table : ChatTable} {msgs : List AnyMessage} {db : MessageDB}
    (hdb : db table = msgs.map (rowOf serialization coder table)) :
    Upserts msgs (getFrom serialization coder table false db) ↔ Clean msgs := by
  obtain ⟨keep, hget, hid, hcontent⟩ := getFrom_of_rows hdb
  rw [hget]
  exact upserts_map_iff hid hcontent msgs

/-- After a run from empty tables, a table is an upsert of the messages that were
added to it exactly when their numbers are all different and their numbered
contents free of U+0000. -/
theorem Run.upserts_iff {calls : List (ChatTable × List AnyMessage)} {db : MessageDB}
    (run : Run serialization coder .empty calls db) (table : ChatTable) :
    Upserts (addedTo table calls) (getFrom serialization coder table false db) ↔ Clean (addedTo table calls) := by
  have hdb := run.rows table
  rw [MessageDB.empty, List.nil_append] at hdb
  exact upserts_getFrom_iff hdb

/-- One call to one table, without a fault, from empty tables. -/
theorem run_single (table : ChatTable) (msgs : List AnyMessage) :
    ∃ db, Run serialization coder .empty [(table, msgs)] db :=
  ⟨_, (Run.nil .empty).snoc false (addTo_no_fault table msgs .empty)⟩

/-- Two numbered messages, stored by one call. -/
theorem Run.upserts_iff_two :
    let msgs := [AnyMessage.text { msgId := some 1, content := some "a" },
      AnyMessage.text { msgId := some 2, content := some "b" }]
    ∃ db, Run .text .text .empty [(.chats, msgs)] db ∧
      (Upserts (addedTo .chats [(.chats, msgs)]) (getFrom .text .text .chats false db) ↔
        Clean (addedTo .chats [(.chats, msgs)])) := by
  intro msgs
  obtain ⟨db, run⟩ : ∃ db, Run .text .text .empty [(.chats, msgs)] db := run_single .chats msgs
  exact ⟨db, run, run.upserts_iff .chats⟩

/-- A message that is added again, with another content, is there twice. -/
theorem readded_message_not_upserted :
    let msgs := [AnyMessage.text { msgId := some 7, content := some "old" },
      AnyMessage.text { msgId := some 7, content := some "new" }]
    ∃ db, Run .text .text .empty [(.chats, msgs)] db ∧ ¬ Upserts msgs (getMessages .text .text false db) := by
  intro msgs
  have hrows : Function.update MessageDB.empty .chats (msgs.map (rowOf .text .text .chats)) .chats =
      msgs.map (rowOf .text .text .chats) := Function.update_self ..
  refine ⟨_, (Run.nil .empty).snoc false (addTo_no_fault .chats msgs .empty), fun h => ?_⟩
  have hclean := (upserts_getFrom_iff hrows).mp h
  simpa [msgs, numbers, AnyMessage.base] using hclean.1

end MessageDBWorker

end StudyDB
