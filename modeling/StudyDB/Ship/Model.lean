import StudyDB.WCDB.Real
import StudyDB.WCDB.Table

/-! Ships and their two database models. The engine is a JSON column, whose encoder
throws on a price that is not finite; the second model repeats the engine's brand in
a column of its own. Proved: what storage keeps of a ship. -/

namespace StudyDB

open WCDB (Column TableCodable)

structure EngineModel where
  brand : String := ""
  price : Double := .zero
  deriving DecidableEq

structure ShipModel where
  id : Int64 := 0
  name : String := ""
  color : String := ""
  engin : EngineModel := {}
  deriving DecidableEq

/-! ### The engine's column -/

namespace EngineModel

/-- `encode(to:)`, which throws on a price that is not finite. -/
def encode? (e : EngineModel) : Option Json := do
  let price ← encodeDouble e.price
  some (.keyed [("brand", some (encode e.brand)), ("price", some price)])

/-- `init(from:)`. -/
def decode? (coder : DoubleCoder) (j : Json) : Option EngineModel := do
  some { brand := ← j.decodeKey String "brand", price := ← (j.member? "price").bind coder.double }

def column (coder : DoubleCoder) : Column EngineModel := .jsonThrowing coder encode? (decode? coder)

/-- An engine with a finite price comes back; another one is NULL. -/
theorem readIfPresent_column (coder : DoubleCoder) (e : EngineModel) :
    (column coder).readIfPresent ((column coder).bind e) = if e.price.isFinite then some e else none := by
  obtain ⟨brand, price⟩ := e
  cases price with
  | finite x fits =>
    let ms : List (String × Option Json) := [("brand", some (encode brand)), ("price", some (.dyadic x))]
    have hnodup : (ms.map Prod.fst).Nodup := by simp [ms]
    have hencode : encode? ⟨brand, .finite x fits⟩ = some (.keyed ms) := rfl
    refine Column.jsonThrowing_readIfPresent hencode hnodup (fun e he j hj => ?_) ?_
    · simp only [ms, List.mem_cons, List.not_mem_nil, or_false] at he
      rcases he with rfl | rfl
      · exact Option.some.inj hj ▸ (JSONEncodable.portable brand).carried
      · exact Option.some.inj hj ▸ .double fits
    · have hbrand : (Json.keyed ms).decodeKey String "brand" = some brand := Json.decodeKey_keyed_encode hnodup rfl
      have hprice := coder.double_keyed (k := "price") fits hnodup rfl
      rw [decode?, hbrand, hprice]
      rfl
  | infinity negative => rw [column, Column.jsonThrowing_bind_none rfl]; rfl
  | nan => rw [column, Column.jsonThrowing_bind_none rfl]; rfl

end EngineModel

/-! ### Database models -/

structure ShipDBModel where
  id : Option Int64 := none
  name : Option String := none
  color : Option String := none
  engin : Option EngineModel := none

structure ShipDBModel2 where
  id : Option Int64 := none
  name : Option String := none
  color : Option String := none
  engin : Option EngineModel := none
  enginBrand : Option String := none

/-- The setter of `engin`, which `didSet` observes. -/
def ShipDBModel2.setEngin (m : ShipDBModel2) (engin : Option EngineModel) : ShipDBModel2 :=
  { m with engin := engin, enginBrand := engin.map EngineModel.brand }

namespace ShipModel

def dbModel (ship : ShipModel) : ShipDBModel where
  id := some ship.id
  name := some ship.name
  color := some ship.color
  engin := some ship.engin

def dbModel2 (ship : ShipModel) : ShipDBModel2 :=
  let dbModel : ShipDBModel2 := {}
  let dbModel := { dbModel with id := some ship.id, name := some ship.name, color := some ship.color }
  dbModel.setEngin (some ship.engin)

end ShipModel

def ShipDBModel.bizModel (dbModel : ShipDBModel) : ShipModel :=
  let model : ShipModel := {}
  { id := dbModel.id.getD model.id
    name := dbModel.name.getD model.name
    color := dbModel.color.getD model.color
    engin := dbModel.engin.getD model.engin }

def ShipDBModel2.bizModel (dbModel : ShipDBModel2) : ShipModel :=
  let model : ShipModel := {}
  { id := dbModel.id.getD model.id
    name := dbModel.name.getD model.name
    color := dbModel.color.getD model.color
    engin := dbModel.engin.getD model.engin }

section Tables
variable (coder : DoubleCoder)

def ShipDBModel.ofRow (r : Sqlite.Row SQLValue) : ShipDBModel where
  id := Column.int64.readIfPresent (r "id")
  name := Column.string.readIfPresent (r "name")
  color := Column.string.readIfPresent (r "color")
  engin := (EngineModel.column coder).readIfPresent (r "engin")

def ShipDBModel.table : TableCodable ShipDBModel where
  tableName := "ships"
  keys := ["id", "name", "color", "engin"]
  unique := []
  encode m := [("id", Column.int64.bindIfPresent m.id),
    ("name", Column.string.bindIfPresent m.name),
    ("color", Column.string.bindIfPresent m.color),
    ("engin", (EngineModel.column coder).bindIfPresent m.engin)]
  decode r := some (ofRow coder r)
  encode_keys _ := rfl

/-- An initialiser is not observed, so the brand is what its column has. -/
def ShipDBModel2.ofRow (r : Sqlite.Row SQLValue) : ShipDBModel2 where
  id := Column.int64.readIfPresent (r "id")
  name := Column.string.readIfPresent (r "name")
  color := Column.string.readIfPresent (r "color")
  engin := (EngineModel.column coder).readIfPresent (r "engin")
  enginBrand := Column.string.readIfPresent (r "enginBrand")

def ShipDBModel2.table : TableCodable ShipDBModel2 where
  tableName := "ships2"
  keys := ["id", "name", "color", "engin", "enginBrand"]
  unique := []
  encode m := [("id", Column.int64.bindIfPresent m.id),
    ("name", Column.string.bindIfPresent m.name),
    ("color", Column.string.bindIfPresent m.color),
    ("engin", (EngineModel.column coder).bindIfPresent m.engin),
    ("enginBrand", Column.string.bindIfPresent m.enginBrand)]
  decode r := some (ofRow coder r)
  encode_keys _ := rfl

end Tables

/-! ### What storage keeps -/

namespace ShipModel

/-- What storage keeps of a ship: the name and colour as C strings, and the engine
if its price is finite. -/
def stored (ship : ShipModel) : ShipModel :=
  { ship with
    name := cString ship.name
    color := cString ship.color
    engin := if ship.engin.price.isFinite then ship.engin else {} }

/-- Ships that are stored whole. -/
structure Storable (ship : ShipModel) : Prop where
  price : ship.engin.price.isFinite = true
  name : NulFree ship.name
  color : NulFree ship.color

theorem stored_eq_self_iff (ship : ShipModel) : ship.stored = ship ↔ ship.Storable := by
  obtain ⟨id, name, color, ⟨brand, price⟩⟩ := ship
  simp only [stored, ShipModel.mk.injEq, true_and, cString_eq_self_iff]
  constructor
  · rintro ⟨hname, hcolor, hengin⟩
    refine ⟨?_, hname, hcolor⟩
    by_contra hprice
    have hprice' : price.isFinite = false := Bool.eq_false_iff.mpr hprice
    rw [if_neg (Bool.eq_false_iff.mp hprice'), EngineModel.mk.injEq] at hengin
    rw [← hengin.2] at hprice
    exact hprice rfl
  · rintro ⟨hprice, hname, hcolor⟩
    exact ⟨hname, hcolor, if_pos hprice⟩

theorem ofRow_dbModel (coder : DoubleCoder) (ship : ShipModel) :
    ShipDBModel.ofRow coder ((ShipDBModel.table coder).row ship.dbModel) =
      { id := some ship.id
        name := some (cString ship.name)
        color := some (cString ship.color)
        engin := if ship.engin.price.isFinite then some ship.engin else none } := by
  have hid := Column.int64_lossless.present ship.id
  have hname := Column.string_reads.present ship.name
  have hcolor := Column.string_reads.present ship.color
  have hengin := EngineModel.readIfPresent_column coder ship.engin
  rw [TableCodable.row_eq]
  simp [ShipDBModel.ofRow, ShipDBModel.table, dbModel, List.lookup_cons, Column.bindIfPresent, hid, hname, hcolor,
    hengin]

theorem ofRow_dbModel2 (coder : DoubleCoder) (ship : ShipModel) :
    ShipDBModel2.ofRow coder ((ShipDBModel2.table coder).row ship.dbModel2) =
      { id := some ship.id
        name := some (cString ship.name)
        color := some (cString ship.color)
        engin := if ship.engin.price.isFinite then some ship.engin else none
        enginBrand := some (cString ship.engin.brand) } := by
  have hid := Column.int64_lossless.present ship.id
  have hname := Column.string_reads.present ship.name
  have hcolor := Column.string_reads.present ship.color
  have hengin := EngineModel.readIfPresent_column coder ship.engin
  have hbrand := Column.string_reads.present ship.engin.brand
  rw [TableCodable.row_eq]
  simp [ShipDBModel2.ofRow, ShipDBModel2.table, dbModel2, ShipDBModel2.setEngin, List.lookup_cons,
    Column.bindIfPresent, hid, hname, hcolor, hengin, hbrand]

/-- Both tables keep the same of a ship. -/
theorem bizModel_ofRow (coder : DoubleCoder) (ship : ShipModel) :
    (ShipDBModel.ofRow coder ((ShipDBModel.table coder).row ship.dbModel)).bizModel = ship.stored := by
  rw [ofRow_dbModel, ShipDBModel.bizModel, stored]
  split_ifs <;> rfl

theorem bizModel_ofRow2 (coder : DoubleCoder) (ship : ShipModel) :
    (ShipDBModel2.ofRow coder ((ShipDBModel2.table coder).row ship.dbModel2)).bizModel = ship.stored := by
  rw [ofRow_dbModel2, ShipDBModel2.bizModel, stored]
  split_ifs <;> rfl

/-- The brand's column agrees with the engine of the same row. -/
def BrandAgrees (coder : DoubleCoder) (r : Sqlite.Row SQLValue) : Prop :=
  (ShipDBModel2.ofRow coder r).enginBrand = (ShipDBModel2.ofRow coder r).engin.map EngineModel.brand

theorem brandAgrees_row_iff (coder : DoubleCoder) (ship : ShipModel) :
    BrandAgrees coder ((ShipDBModel2.table coder).row ship.dbModel2) ↔
      ship.engin.price.isFinite = true ∧ NulFree ship.engin.brand := by
  rw [BrandAgrees, ofRow_dbModel2, ← cString_eq_self_iff]
  split_ifs with hprice
  · simp [hprice]
  · simp [hprice]

end ShipModel

end StudyDB
