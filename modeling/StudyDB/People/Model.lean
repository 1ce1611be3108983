import StudyDB.Message.SubInfo
import StudyDB.WCDB.Real

/-! People and their row, in which each column has a codec of its own: plain values,
two kinds of raw values, a JSON dictionary written by hand, a coded JSON object, and the
data that a property makes of a dictionary. Proved: what comes back. -/

namespace StudyDB

open WCDB (Value Column RealValue)

/-! ### The parts -/

inductive Gender where
  | male | femal | other
  deriving DecidableEq, Repr

namespace Gender

def rawValue : Gender → Int64
  | male => 0
  | femal => 1
  | other => 2

def init? (rawValue : Int64) : Option Gender := [male, femal, other].find? fun g => g.rawValue = rawValue

@[simp] theorem init?_rawValue (g : Gender) : init? g.rawValue = some g := by cases g <;> decide

end Gender

inductive SportType where
  | football | basketball
  | other (name : String)
  deriving DecidableEq

namespace SportType

def init? (rawValue : String) : Option SportType :=
  if rawValue = "football" then some football
  else if rawValue = "basketball" then some basketball
  else some (other rawValue)

def rawValue : SportType → String
  | football => "football"
  | basketball => "basketball"
  | other name => name

/-- A sport made of a raw value is made of its own one again. -/
theorem init?_rawValue {raw : String} {s : SportType} (h : init? raw = some s) : init? s.rawValue = some s := by
  unfold init? at h
  split_ifs at h with hfootball hbasketball
  · obtain rfl := Option.some.inj h
    rfl
  · obtain rfl := Option.some.inj h
    rfl
  · obtain rfl := Option.some.inj h
    rw [rawValue, init?, if_neg hfootball, if_neg hbasketball]

end SportType

inductive PetType where
  | cat | dog
  deriving DecidableEq, Repr

namespace PetType

def rawValue : PetType → Int64
  | cat => 0
  | dog => 1

def init? (rawValue : Int64) : Option PetType := [cat, dog].find? fun t => t.rawValue = rawValue

@[simp] theorem init?_rawValue (t : PetType) : init? t.rawValue = some t := by cases t <;> decide

end PetType

structure Pet where
  name : String
  age : Int64
  type : PetType
  deriving DecidableEq

structure Car where
  name : String
  price : Double
  isNew : Bool
  deriving DecidableEq

/-- The birth date is left out. -/
structure PeopleModel where
  name : Option String := none
  age : Option Int64 := none
  height : Option Double := none
  isMarried : Option Bool := none
  loveBooks : Option (List String) := none
  gender : Option Gender := none
  loveSport : Option SportType := none
  pet : Option Pet := none
  car : Option Car := none
  extra : Option (Dictionary Json) := none

structure PeopleDBModel where
  name : Option String := none
  age : Option Int64 := none
  height : Option Double := none
  isMarried : Option Bool := none
  loveBooks : Option (List String) := none
  gender : Option Gender := none
  loveSport : Option SportType := none
  pet : Option Pet := none
  car : Option Car := none
  extraData : Option Data := none

/-! ### Columns -/

namespace Gender

def archivedValue (g : Gender) : Value := .integer64 g.rawValue

def column : Column Gender := .ofValue archivedValue fun v => init? v.intValue

theorem column_lossless : column.Lossless := fun g => ⟨SQLValue.noConfusion, g.init?_rawValue⟩

end Gender

namespace SportType

def archivedValue (s : SportType) : Value := .text s.rawValue

def column : Column SportType := .ofValue archivedValue fun v => init? v.stringValue

/-- A sport that was made of a text without U+0000 comes back. -/
theorem readIfPresent_column {o : Option SportType}
    (h : ∀ s ∈ o, (∃ raw, init? raw = some s) ∧ NulFree s.rawValue) :
    column.readIfPresent (column.bindIfPresent o) = o := by
  cases o with
  | none => rfl
  | some s =>
    obtain ⟨⟨raw, hraw⟩, hfree⟩ := h s rfl
    have hbind : column.bind s = .text s.rawValue := congrArg SQLValue.text (cString_eq_self_iff.mpr hfree)
    have hscan : Value.scan (.text s.rawValue) = .text s.rawValue := congrArg Value.text (cString_eq_self_iff.mpr hfree)
    have hread : column.read (.text s.rawValue) = some s := by
      simp only [column, Column.ofValue, hscan, Value.stringValue, init?_rawValue hraw]
    rw [Column.bindIfPresent, hbind, Column.readIfPresent]
    · exact hread
    · exact SQLValue.noConfusion

end SportType

namespace Pet
variable (serialization : JsonCoder)

/-- The dictionary that `archivedValue` fills. -/
def dictionary (p : Pet) : Dictionary Json :=
  let jsonDict : Dictionary Json := .empty
  let jsonDict := jsonDict.set "name" (.string p.name)
  let jsonDict := jsonDict.set "age" (.int64 p.age)
  jsonDict.set "type" (.int64 p.type.rawValue)

def archivedValue (p : Pet) : Value :=
  match serialization.write p.dictionary.toJson with
  | some data => .blob data
  | none => .null

/-- What `init?(with:)` makes of the parsed dictionary. -/
def ofDictionary? (jsonDict : Dictionary Json) : Option Pet := do
  let name ← (jsonDict.get "name").bind Json.asString?
  let age ← (jsonDict.get "age").bind Json.asInt64?
  let typeVal ← (jsonDict.get "type").bind Json.asInt64?
  let type ← PetType.init? typeVal
  some { name := name, age := age, type := type }

def init? (value : Value) : Option Pet :=
  if value.dataValue.size > 0 then
    ((serialization.read value.dataValue).bind Json.asDictionary?).bind ofDictionary?
  else none

def column : Column Pet := .ofValue (archivedValue serialization) (init? serialization)

theorem portable_dictionary (p : Pet) : p.dictionary.All Json.Portable :=
  ((KeyMap.All.empty.set (.string _) _).set (Json.portable_int64 _) _).set (Json.portable_int64 _) _

theorem ofDictionary?_of_get {p : Pet} {jsonDict : Dictionary Json}
    (h : ∀ k, jsonDict.get k = p.dictionary.get k) : ofDictionary? jsonDict = some p := by
  simp [ofDictionary?, h, dictionary, KeyMap.get_set]

theorem column_lossless : (column serialization).Lossless := by
  intro p
  obtain ⟨data, hdata, _, hread⟩ := serialization.faithful (Dictionary.portable_toJson p.portable_dictionary) rfl
  obtain ⟨jsonDict, hdict, hget⟩ := asDictionary?_toJson p.dictionary
  have hbind : (column serialization).bind p = .blob data := by
    simp [column, Column.ofValue, archivedValue, hdata, Value.bind]
  rw [hbind]
  refine ⟨SQLValue.noConfusion, ?_⟩
  have hinit : init? serialization (.blob data) = some p := by
    rw [init?, Value.dataValue, if_pos (JsonCoder.size_pos_of_read hread), hread, Option.bind_some, hdict,
      Option.bind_some, ofDictionary?_of_get hget]
  exact hinit

end Pet

namespace Car

/-- `encode(to:)`, which throws on a price that is not finite. -/
def encode? (c : Car) : Option Json := do
  let price ← encodeDouble c.price
  some (.keyed [("name", some (encode c.name)), ("price", some price), ("isNew", some (encode c.isNew))])

/-- `init(from:)`. -/
def decode? (coder : DoubleCoder) (j : Json) : Option Car := do
  some {
    name := ← j.decodeKey String "name"
    price := ← (j.member? "price").bind coder.double
    isNew := ← j.decodeKey Bool "isNew" }

def column (coder : DoubleCoder) : Column Car := .jsonThrowing coder encode? (decode? coder)

/-- A car with a finite price comes back. -/
theorem readIfPresent_column (coder : DoubleCoder) {o : Option Car} (h : ∀ c ∈ o, c.price.isFinite = true) :
    (column coder).readIfPresent ((column coder).bindIfPresent o) = o := by
  cases o with
  | none => rfl
  | some c =>
    have hfinite := h c rfl
    obtain ⟨name, price, isNew⟩ := c
    cases price with
    | infinity => cases hfinite
    | nan => cases hfinite
    | finite x fits =>
      let ms : List (String × Option Json) :=
        [("name", some (encode name)), ("price", some (.dyadic x)), ("isNew", some (encode isNew))]
      have hnodup : (ms.map Prod.fst).Nodup := by simp [ms]
      have hencode : encode? ⟨name, .finite x fits, isNew⟩ = some (.keyed ms) := rfl
      refine Column.jsonThrowing_readIfPresent hencode hnodup (fun e he j hj => ?_) ?_
      · simp only [ms, List.mem_cons, List.not_mem_nil, or_false] at he
        rcases he with rfl | rfl | rfl
        · exact Option.some.inj hj ▸ (JSONEncodable.portable name).carried
        · exact Option.some.inj hj ▸ .double fits
        · exact Option.some.inj hj ▸ (JSONEncodable.portable isNew).carried
      · have hname : (Json.keyed ms).decodeKey String "name" = some name := Json.decodeKey_keyed_encode hnodup rfl
        have hnew : (Json.keyed ms).decodeKey Bool "isNew" = some isNew := Json.decodeKey_keyed_encode hnodup rfl
        have hprice := coder.double_keyed (k := "price") fits hnodup rfl
        rw [decode?, hname, hnew, hprice]
        rfl

end Car

/-! ### Rows -/

/-- A row of `peoples`, by its columns. -/
structure PeopleRow where
  name : SQLValue
  age : SQLValue
  height : RealValue
  isMarried : SQLValue
  loveBooks : SQLValue
  gender : SQLValue
  loveSport : SQLValue
  pet : SQLValue
  car : SQLValue
  extraData : SQLValue

namespace PeopleDBModel
variable (serialization : JsonCoder) (coder : DoubleCoder)

def row (m : PeopleDBModel) : PeopleRow where
  name := Column.string.bindIfPresent m.name
  age := Column.int64.bindIfPresent m.age
  height := WCDB.bindRealIfPresent m.height
  isMarried := Column.bool.bindIfPresent m.isMarried
  loveBooks := (Column.json coder.toJsonCoder).bindIfPresent m.loveBooks
  gender := Gender.column.bindIfPresent m.gender
  loveSport := SportType.column.bindIfPresent m.loveSport
  pet := (Pet.column serialization).bindIfPresent m.pet
  car := (Car.column coder).bindIfPresent m.car
  extraData := Column.data.bindIfPresent m.extraData

def ofRow (r : PeopleRow) : PeopleDBModel where
  name := Column.string.readIfPresent r.name
  age := Column.int64.readIfPresent r.age
  height := r.height
  isMarried := Column.bool.readIfPresent r.isMarried
  loveBooks := (Column.json coder.toJsonCoder).readIfPresent r.loveBooks
  gender := Gender.column.readIfPresent r.gender
  loveSport := SportType.column.readIfPresent r.loveSport
  pet := (Pet.column serialization).readIfPresent r.pet
  car := (Car.column coder).readIfPresent r.car
  extraData := Column.data.readIfPresent r.extraData

end PeopleDBModel

/-! ### Conversions -/

namespace PeopleModel
variable (serialization : DoubleCoder)

/-- The getter of `extraData`. -/
def extraData (p : PeopleModel) : Option Data := p.extra.bind fun jsonDict => serialization.write jsonDict.toJson

/-- The setter of `extraData`, which keeps the dictionary where it gets none. -/
def setExtraData (newValue : Option Data) (p : PeopleModel) : PeopleModel :=
  match (newValue.bind serialization.read).bind Json.asDictionary? with
  | some jsonDict => { p with extra := some jsonDict }
  | none => p

def dbModel (p : PeopleModel) : PeopleDBModel where
  name := p.name
  age := p.age
  height := p.height
  isMarried := p.isMarried
  loveBooks := p.loveBooks
  gender := p.gender
  loveSport := p.loveSport
  pet := p.pet
  car := p.car
  extraData := p.extraData serialization

end PeopleModel

def PeopleDBModel.bizModel (serialization : DoubleCoder) (m : PeopleDBModel) : PeopleModel :=
  let bizModel : PeopleModel :=
    { name := m.name
      age := m.age
      height := m.height
      isMarried := m.isMarried
      loveBooks := m.loveBooks
      gender := m.gender
      loveSport := m.loveSport
      pet := m.pet
      car := m.car }
  bizModel.setExtraData serialization m.extraData

/-! ### What comes back -/

namespace PeopleModel

/-- People whose Doubles are finite, whose texts have no U+0000, whose sport is made of
a raw value, and whose dictionary is a JSON object. -/
structure Storable (p : PeopleModel) : Prop where
  name : ∀ s ∈ p.name, NulFree s
  height : ∀ x ∈ p.height, x.isFinite = true
  loveSport : ∀ s ∈ p.loveSport, (∃ raw, SportType.init? raw = some s) ∧ NulFree s.rawValue
  price : ∀ c ∈ p.car, c.price.isFinite = true
  extra : ∀ d ∈ p.extra, d.All Json.Carried

theorem readIfPresent_name {o : Option String} (h : ∀ s ∈ o, NulFree s) :
    Column.string.readIfPresent (Column.string.bindIfPresent o) = o := by
  rw [Column.string_reads.ifPresent]
  cases o with
  | none => rfl
  | some s => rw [Option.map_some, cString_eq_self_iff.mpr (h s rfl)]

/-- Each column comes back, the dictionary as the data that is made of it. -/
theorem ofRow_row_dbModel (serialization coder : DoubleCoder) {p : PeopleModel} (h : p.Storable) :
    PeopleDBModel.ofRow serialization.toJsonCoder coder
        ((p.dbModel serialization).row serialization.toJsonCoder coder) = p.dbModel serialization := by
  have hname := readIfPresent_name h.name
  have hage := Column.int64_lossless.ifPresent p.age
  have hheight := WCDB.bindRealIfPresent_eq h.height
  have hmarried := Column.bool_lossless.ifPresent p.isMarried
  have hbooks := (Column.json_lossless coder.toJsonCoder fun _ => rfl).ifPresent p.loveBooks
  have hgender := Gender.column_lossless.ifPresent p.gender
  have hsport := SportType.readIfPresent_column h.loveSport
  have hpet := (Pet.column_lossless serialization.toJsonCoder).ifPresent p.pet
  have hcar := Car.readIfPresent_column coder h.price
  have hdata := Column.data_lossless.ifPresent (p.extraData serialization)
  simp only [PeopleDBModel.ofRow, PeopleDBModel.row, dbModel, hname, hage, hheight, hmarried, hbooks, hgender, hsport,
    hpet, hcar, hdata]

/-- A dictionary comes back with the same values under the same keys. -/
theorem exists_extraData (serialization : DoubleCoder) {p : PeopleModel} {d : Dictionary Json}
    (hextra : p.extra = some d) (h : d.All Json.Carried) :
    ∃ d', ((p.extraData serialization).bind serialization.read).bind Json.asDictionary? = some d' ∧
      ∀ k, d'.get k = d.get k := by
  obtain ⟨data, hdata, _, hread⟩ := serialization.carries (Json.carried_ofMembers d.nodup_keys h) rfl
  obtain ⟨d', hd', hget⟩ := asDictionary?_toJson d
  refine ⟨d', ?_, hget⟩
  rw [extraData, hextra, Option.bind_some, Dictionary.toJson, hdata, Option.bind_some, hread, Option.bind_some]
  exact hd'

/-- People come back from storage with all fields, the dictionary by its values. -/
theorem bizModel_stored (serialization coder : DoubleCoder) {p : PeopleModel} (h : p.Storable) :
    let p' := (PeopleDBModel.ofRow serialization.toJsonCoder coder
      ((p.dbModel serialization).row serialization.toJsonCoder coder)).bizModel serialization
    p'.name = p.name ∧ p'.age = p.age ∧ p'.height = p.height ∧ p'.isMarried = p.isMarried ∧
      p'.loveBooks = p.loveBooks ∧ p'.gender = p.gender ∧ p'.loveSport = p.loveSport ∧ p'.pet = p.pet ∧
      p'.car = p.car ∧ (p'.extra.map fun d => d.get) = p.extra.map fun d => d.get := by
  intro p'
  have hp' : p' = (p.dbModel serialization).bizModel serialization :=
    congrArg (PeopleDBModel.bizModel serialization) (ofRow_row_dbModel serialization coder h)
  rw [hp', PeopleDBModel.bizModel, setExtraData]
  cases hextra : p.extra with
  | none =>
    have hnone : (dbModel serialization p).extraData = none := by rw [dbModel, extraData, hextra, Option.bind_none]
    rw [hnone]
    exact ⟨rfl, rfl, rfl, rfl, rfl, rfl, rfl, rfl, rfl, rfl⟩
  | some d =>
    obtain ⟨d', hd', hget⟩ := exists_extraData serialization hextra (h.extra d hextra)
    have hsome : ((dbModel serialization p).extraData.bind serialization.read).bind Json.asDictionary? = some d' := hd'
    rw [hsome]
    exact ⟨rfl, rfl, rfl, rfl, rfl, rfl, rfl, rfl, rfl, congrArg some (funext hget)⟩

/-- One who plays chess, is 1.5 tall, and has a car and a dictionary. -/
def chessPlayer : PeopleModel where
  name := some "n"
  age := some 30
  height := some (.finite (.ofOdd 3 1 rfl) (fitsDouble_ofOdd (by decide) (by decide)))
  gender := some .femal
  loveSport := SportType.init? "chess"
  car := some { name := "c", price := .zero, isNew := true }
  extra := some (.ofList [("a", .array [.int 1, .null])])

theorem storable_chessPlayer : chessPlayer.Storable where
  name s hs := by
    obtain rfl := Option.some.inj hs
    simp [NulFree]
  height x hx := by
    obtain rfl := Option.some.inj hx
    rfl
  loveSport s hs := by
    obtain rfl : SportType.other "chess" = s := Option.some.inj hs
    exact ⟨⟨"chess", by decide⟩, by simp [NulFree, SportType.rawValue]⟩
  price c hc := by
    obtain rfl := Option.some.inj hc
    rfl
  extra d hd := by
    obtain rfl := Option.some.inj hd
    have hitems : ∀ j ∈ [Json.int 1, .null], j.Carried := by
      simp only [List.mem_cons, List.not_mem_nil, or_false, forall_eq_or_imp, forall_eq]
      exact ⟨.int (by decide), .null⟩
    exact KeyMap.All.empty.set (.array hitems) "a"

theorem bizModel_stored_chessPlayer :
    let p' := (PeopleDBModel.ofRow JsonCoder.text .text
      ((chessPlayer.dbModel .text).row JsonCoder.text .text)).bizModel .text
    p'.name = chessPlayer.name ∧ p'.age = chessPlayer.age ∧ p'.height = chessPlayer.height ∧
      p'.isMarried = chessPlayer.isMarried ∧ p'.loveBooks = chessPlayer.loveBooks ∧ p'.gender = chessPlayer.gender ∧
      p'.loveSport = chessPlayer.loveSport ∧ p'.pet = chessPlayer.pet ∧ p'.car = chessPlayer.car ∧
      (p'.extra.map fun d => d.get) = chessPlayer.extra.map fun d => d.get :=
  bizModel_stored .text .text storable_chessPlayer

end PeopleModel

end StudyDB
