import StudyDB.Foundation.JSONSerialization
import StudyDB.People.Model
import StudyDB.WCDB.RowId

/-! `PeopleDBWorker.addPeoples`, for people whose dictionary holds any values. Proved:
where the dictionaries are JSON objects it stores what the people are converted to, and it
returns exactly if they are. -/

namespace StudyDB

/-- A person whose dictionary holds any values; the other fields are those of a person
without one. -/
structure AnyPeople where
  base : PeopleModel
  base_extra : base.extra = none
  extra : Option AnyDictionary
  extra_keys : ∀ d ∈ extra, d.keys.all AnyKey.isString = true

namespace AnyPeople
variable (serialization : DoubleCoder)

/-- The getter of `extraData`. -/
def extraData (p : AnyPeople) : Except NSException (Option Data) :=
  match p.extra with
  | some jsonDict => jsonDict.object.serialized serialization some
  | none => return none

def dbModel (p : AnyPeople) : Except NSException PeopleDBModel := do
  return { p.base.dbModel serialization with extraData := ← p.extraData serialization }

/-- The dictionary, if there is one, is a valid JSON object. -/
def ExtraIsValid (p : AnyPeople) : Prop :=
  ∀ d, p.extra = some d → JSONSerialization.isValidJSONObject d.object = true

/-- The person whose dictionary holds the same JSON values. -/
def Represents (p : AnyPeople) (q : PeopleModel) : Prop :=
  q = { p.base with extra := q.extra } ∧ p.ExtraIsValid ∧
    p.extra.map (fun d => d.object.toJson) = q.extra.map Dictionary.toJson

variable {p : AnyPeople}

/-- Valid dictionaries become data, and nil is returned for none. -/
theorem extraData_of_valid (h : p.ExtraIsValid) :
    ∃ result, p.extraData serialization = .ok result ∧
      (result.isSome = true ↔ ∃ d, p.extra = some d ∧ JSONSerialization.isValidJSONObject d.object = true) := by
  cases hextra : p.extra with
  | none =>
    refine ⟨none, ?_, iff_of_false Bool.false_ne_true ?_⟩
    · rw [extraData, hextra]
      rfl
    · rintro ⟨d, hd, _⟩
      cases hd
  | some d =>
    obtain ⟨json, hjson⟩ := AnyValue.serialized_of_valid serialization (fun json _ => ⟨json, rfl⟩) (h d hextra)
    refine ⟨some json, ?_, iff_of_true rfl ⟨d, rfl, h d hextra⟩⟩
    rw [extraData, hextra]
    exact hjson

theorem extraData_of_not_valid (h : ¬p.ExtraIsValid) : p.extraData serialization = .error .invalidArgument := by
  rw [ExtraIsValid] at h
  push Not at h
  obtain ⟨d, hextra, hd⟩ := h
  rw [extraData, hextra]
  exact AnyValue.serialized_of_not_valid serialization hd

/-- The getter fails with nil where it ought to, as long as the dictionary is valid. -/
theorem extraData_nilUnlessValid_iff :
    NilUnlessValid (∃ d, p.extra = some d ∧ JSONSerialization.isValidJSONObject d.object = true)
        (p.extraData serialization) ↔ p.ExtraIsValid := by
  constructor
  · rintro ⟨result, hresult, _⟩
    by_contra h
    rw [extraData_of_not_valid serialization h] at hresult
    cases hresult
  · exact extraData_of_valid serialization

theorem dbModel_returns_iff : (∃ m, p.dbModel serialization = .ok m) ↔ p.ExtraIsValid := by
  constructor
  · rintro ⟨m, hm⟩
    by_contra h
    rw [dbModel, extraData_of_not_valid serialization h] at hm
    cases hm
  · intro h
    obtain ⟨result, hresult, _⟩ := extraData_of_valid serialization h
    exact ⟨_, by rw [dbModel, hresult]; rfl⟩

/-- A person with a JSON dictionary is converted like any other. -/
theorem dbModel_of_represents {q : PeopleModel} (h : p.Represents q) :
    p.dbModel serialization = .ok (q.dbModel serialization) := by
  obtain ⟨hq, hvalid, hextra⟩ := h
  have hdata : p.extraData serialization = .ok (q.extraData serialization) := by
    cases hp : p.extra with
    | none =>
      rw [hp, Option.map_none, eq_comm, Option.map_eq_none_iff] at hextra
      rw [extraData, hp, PeopleModel.extraData, hextra]
      rfl
    | some d =>
      rw [hp, Option.map_some, eq_comm, Option.map_eq_some_iff] at hextra
      obtain ⟨e, he, hjson⟩ := hextra
      have hwrite : d.object.serialized serialization some = .ok (serialization.write e.toJson) := by
        rw [AnyValue.serialized_eq serialization (hvalid d hp), hjson, Option.bind_fun_some]
      rw [extraData, hp, PeopleModel.extraData, he, Option.bind_some]
      exact hwrite
  rw [dbModel, hdata, hq]
  rfl

end AnyPeople

namespace PeopleDBWorker

abbrev Rows := List PeopleRow

/-- `insert(_:on:intoTable:)` into a table without constraints. -/
def insert (serialization : JsonCoder) (coder : DoubleCoder) (fault : Bool) (objects : List PeopleDBModel)
    (rows : Rows) : Option Rows :=
  if objects.isEmpty then some rows
  else if fault then none
  else some (rows ++ objects.map fun m => m.row serialization coder)

variable (serialization coder : DoubleCoder)

/-- Inserts converted people, and says whether it went through. -/
def addPeoples (fault : Bool) (list : List AnyPeople) (rows : Rows) : Except NSException (Bool × Rows) := do
  let objects ← list.mapM fun p => p.dbModel serialization
  return WCDB.report rows (insert serialization.toJsonCoder coder fault objects rows)

/-! ### When it returns -/

/-- A list is converted exactly if each of its members is. -/
theorem mapM_returns_iff {α β ε : Type} {f : α → Except ε β} {list : List α} :
    (∃ bs, list.mapM f = .ok bs) ↔ ∀ a ∈ list, ∃ b, f a = .ok b := by
  induction list with
  | nil => exact iff_of_true ⟨[], rfl⟩ fun a ha => absurd ha List.not_mem_nil
  | cons a rest ih =>
    rw [List.forall_mem_cons, ← ih, List.mapM_cons]
    constructor
    · rintro ⟨bs, hbs⟩
      cases ha : f a with
      | error e =>
        rw [ha] at hbs
        cases hbs
      | ok b =>
        cases hrest : rest.mapM f with
        | error e =>
          rw [ha, hrest] at hbs
          cases hbs
        | ok bs' => exact ⟨⟨b, rfl⟩, bs', rfl⟩
    · rintro ⟨⟨b, hb⟩, bs, hbs⟩
      exact ⟨b :: bs, by rw [hb, hbs]; rfl⟩

variable {serialization coder}

theorem addPeoples_returns_iff {fault : Bool} {list : List AnyPeople} {rows : Rows} :
    (∃ result, addPeoples serialization coder fault list rows = .ok result) ↔ ∀ p ∈ list, p.ExtraIsValid := by
  have hreturns : (∃ result, addPeoples serialization coder fault list rows = .ok result) ↔
      ∃ objects, (list.mapM fun p => p.dbModel serialization) = .ok objects := by
    rw [addPeoples]
    cases list.mapM fun p => p.dbModel serialization with
    | error e => exact iff_of_false (fun ⟨_, h⟩ => by cases h) fun ⟨_, h⟩ => by cases h
    | ok objects => exact iff_of_true ⟨_, rfl⟩ ⟨objects, rfl⟩
  rw [hreturns, mapM_returns_iff]
  exact forall₂_congr fun p _ => p.dbModel_returns_iff serialization

/-- People with JSON dictionaries are stored like any others. -/
theorem addPeoples_of_represents {fault : Bool} {list : List AnyPeople} {people : List PeopleModel} {rows : Rows}
    (h : List.Forall₂ AnyPeople.Represents list people) :
    addPeoples serialization coder fault list rows = .ok (WCDB.report rows
      (insert serialization.toJsonCoder coder fault (people.map (PeopleModel.dbModel serialization)) rows)) := by
  have hmap : (list.mapM fun p => p.dbModel serialization) = .ok (people.map (PeopleModel.dbModel serialization)) := by
    induction h with
    | nil => rfl
    | cons hp _ ih =>
      rw [List.mapM_cons, AnyPeople.dbModel_of_represents serialization hp, ih]
      rfl
  rw [addPeoples, hmap]
  rfl

/-- What cannot be written as JSON fails with nil, and adding people returns, exactly as
long as there is no such value: the exception is not caught. -/
theorem fails_with_nil_iff (serialization coder : DoubleCoder) (d : AnyDictionary) (items : List AnyValue)
    (p : AnyPeople) (fault : Bool) (list : List AnyPeople) (rows : Rows) :
    (NilUnlessValid (JSONSerialization.isValidJSONObject d.object = true) (d.jsonString serialization) ↔
        JSONSerialization.isValidJSONObject d.object = true) ∧
      (NilUnlessValid (JSONSerialization.isValidJSONObject d.object = true) (d.jsonData serialization) ↔
        JSONSerialization.isValidJSONObject d.object = true) ∧
      (NilUnlessValid (JSONSerialization.isValidJSONObject (AnyArray.object items) = true)
          (AnyArray.jsonString serialization items) ↔
        JSONSerialization.isValidJSONObject (AnyArray.object items) = true) ∧
      (NilUnlessValid (JSONSerialization.isValidJSONObject (AnyArray.object items) = true)
          (AnyArray.jsonData serialization items) ↔
        JSONSerialization.isValidJSONObject (AnyArray.object items) = true) ∧
      (NilUnlessValid (∃ d, p.extra = some d ∧ JSONSerialization.isValidJSONObject d.object = true)
          (p.extraData serialization) ↔ p.ExtraIsValid) ∧
      ((∃ result, addPeoples serialization coder fault list rows = .ok result) ↔ ∀ p ∈ list, p.ExtraIsValid) :=
  ⟨jsonString_nilUnlessValid_iff serialization, jsonData_nilUnlessValid_iff serialization,
    jsonString_nilUnlessValid_iff serialization, jsonData_nilUnlessValid_iff serialization,
    AnyPeople.extraData_nilUnlessValid_iff serialization, addPeoples_returns_iff⟩

/-- Adding a person whose dictionary has a date under a key, as all calls that write such
a dictionary, raises. -/
theorem date_raises :
    let d : AnyDictionary := ⟨[.string "birthday"], List.nodup_singleton _, fun _ => .date (.finite 0 trivial)⟩
    let p : AnyPeople := ⟨{}, rfl, some d, by decide⟩
    d.jsonString .text = .error .invalidArgument ∧ d.jsonData .text = .error .invalidArgument ∧
      p.extraData .text = .error .invalidArgument ∧ addPeoples .text .text false [p] [] = .error .invalidArgument := by
  intro d p
  have hd : ¬JSONSerialization.isValidJSONObject d.object = true := by decide
  have hp : ¬p.ExtraIsValid := fun h => hd (h d rfl)
  refine ⟨AnyValue.serialized_of_not_valid _ hd, AnyValue.serialized_of_not_valid _ hd,
    AnyPeople.extraData_of_not_valid _ hp, ?_⟩
  rw [addPeoples, List.mapM_cons, AnyPeople.dbModel, AnyPeople.extraData_of_not_valid _ hp]
  rfl

end PeopleDBWorker

end StudyDB
