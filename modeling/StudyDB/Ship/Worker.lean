import StudyDB.Ship.Model
import StudyDB.WCDB.Select

/-! `ShipDBWorker`: two tables of ships, each with a call that adds a list and one
that returns all. Proved: over any run of calls that return true, exactly which
ships come back whole, with a brand column that agrees with the engine. -/

namespace StudyDB

open WCDB (TableCodable)

namespace ShipDBWorker

abbrev Rows := List (Sqlite.Row SQLValue)

/-! ### The worker -/

section Calls
variable {α : Type} (T : TableCodable α)

/-- `insert` of converted ships, and whether it went through. -/
def add (dbModel : ShipModel → α) (fault : Bool) (list : List ShipModel) (rows : Rows) : Bool × Rows :=
  match T.insert fault (list.map dbModel) rows with
  | some rows' => (true, rows')
  | none => (false, rows)

/-- `getObjects` of the whole table, converted. -/
def all (bizModel : α → ShipModel) (fault : Bool) (rows : Rows) : Option (List ShipModel) :=
  (T.getObjects fault rows).map fun list => list.map bizModel

end Calls

variable (coder : DoubleCoder)

def addList : Bool → List ShipModel → Rows → Bool × Rows := add (ShipDBModel.table coder) ShipModel.dbModel

def allList : Bool → Rows → Option (List ShipModel) := all (ShipDBModel.table coder) ShipDBModel.bizModel

def addList2 : Bool → List ShipModel → Rows → Bool × Rows := add (ShipDBModel2.table coder) ShipModel.dbModel2

def allList2 : Bool → Rows → Option (List ShipModel) := all (ShipDBModel2.table coder) ShipDBModel2.bizModel

def searchModel2 (fault : Bool) (brand : String) (rows : Rows) : Option (List ShipModel) :=
  ((ShipDBModel2.table coder).select none fault (some (WCDB.like "enginBrand" ("%" ++ brand ++ "%"))) id none none
    rows).map fun list => list.map ShipDBModel2.bizModel

/-- Calls that add lists to one table, one after the other and each returning true,
lead from one state of it to another. -/
inductive Run (add : Bool → List ShipModel → Rows → Bool × Rows) : Rows → List (List ShipModel) → Rows → Prop
  | nil (rows : Rows) : Run add rows [] rows
  | snoc {rows rows' rows'' : Rows} {lists : List (List ShipModel)} {list : List ShipModel} (fault : Bool)
      (run : Run add rows lists rows') (call : add fault list rows' = (true, rows'')) :
      Run add rows (lists ++ [list]) rows''

/-! ### Runs -/

section Table
variable {α : Type} {T : TableCodable α} {dbModel : ShipModel → α} {bizModel : α → ShipModel} {rows rows' : Rows}
  {lists : List (List ShipModel)}

theorem add_eq_true (hT : T.unique = []) {fault : Bool} {list : List ShipModel}
    (h : add T dbModel fault list rows = (true, rows')) : rows' = rows ++ list.map fun ship => T.row (dbModel ship) := by
  unfold add at h
  split at h
  · rename_i rows'' hinsert
    obtain rfl : rows'' = rows' := (Prod.mk.inj h).2
    rw [TableCodable.insert_eq_some hT hinsert, List.map_map]
    rfl
  · cases h

/-- A run appends the rows of its lists. -/
theorem Run.rows_eq (hT : T.unique = []) (h : Run (add T dbModel) rows lists rows') :
    rows' = rows ++ lists.flatten.map fun ship => T.row (dbModel ship) := by
  induction h with
  | nil => simp
  | snoc fault run call ih => rw [add_eq_true hT call, ih, List.flatten_append, List.map_append]; simp

/-- What is read after a run is what storage keeps of its ships. -/
theorem Run.all_eq (hT : T.unique = []) {ofRow : Sqlite.Row SQLValue → α} (hdecode : ∀ r, T.decode r = some (ofRow r))
    (hrow : ∀ ship, bizModel (ofRow (T.row (dbModel ship))) = ship.stored) (h : Run (add T dbModel) [] lists rows) :
    all T bizModel false rows = some (lists.flatten.map ShipModel.stored) := by
  rw [all, TableCodable.getObjects, if_neg Bool.false_ne_true, WCDB.mapM_decode hdecode, Option.map_some, h.rows_eq hT,
    List.nil_append, List.map_map, List.map_map]
  congr 1
  exact List.map_congr_left fun ship _ => hrow ship

end Table

/-- All ships are kept as they are exactly if each can be stored whole. -/
theorem map_stored_eq_self_iff (list : List ShipModel) :
    list.map ShipModel.stored = list ↔ ∀ ship ∈ list, ship.Storable := by
  conv_lhs => rhs; rw [← List.map_id list]
  rw [List.map_inj_left]
  exact forall₂_congr fun ship _ => ship.stored_eq_self_iff

/-- After any run of `addList2` the ships come back as they were added, with brand
columns that agree with the engines, exactly if all prices are finite and names,
colours and brands are free of U+0000; after a run of `addList` exactly if prices are
finite and names and colours are. -/
theorem all_after_run_iff (coder : DoubleCoder) (lists : List (List ShipModel)) (rows : Rows) :
    (Run (addList2 coder) [] lists rows →
      ((allList2 coder false rows = some lists.flatten ∧ ∀ r ∈ rows, ShipModel.BrandAgrees coder r) ↔
        ∀ ship ∈ lists.flatten, ship.Storable ∧ NulFree ship.engin.brand)) ∧
    (Run (addList coder) [] lists rows →
      (allList coder false rows = some lists.flatten ↔ ∀ ship ∈ lists.flatten, ship.Storable)) := by
  constructor
  · intro h
    have hall : allList2 coder false rows = some (lists.flatten.map ShipModel.stored) :=
      Run.all_eq rfl (fun _ => rfl) (ShipModel.bizModel_ofRow2 coder) h
    have hrows : rows = lists.flatten.map fun ship => (ShipDBModel2.table coder).row ship.dbModel2 :=
      Run.rows_eq rfl h
    rw [hall, Option.some.injEq, map_stored_eq_self_iff, hrows, List.forall_mem_map]
    simp only [ShipModel.brandAgrees_row_iff]
    constructor
    · rintro ⟨hstorable, hbrand⟩ ship hship
      exact ⟨hstorable ship hship, (hbrand ship hship).2⟩
    · intro hships
      exact ⟨fun ship hship => (hships ship hship).1,
        fun ship hship => ⟨(hships ship hship).1.price, (hships ship hship).2⟩⟩
  · intro h
    have hall : allList coder false rows = some (lists.flatten.map ShipModel.stored) :=
      Run.all_eq rfl (fun _ => rfl) (ShipModel.bizModel_ofRow coder) h
    rw [hall, Option.some.injEq, map_stored_eq_self_iff]

/-- A run of one call. -/
theorem Run.single (coder : DoubleCoder) (list : List ShipModel) :
    Run (addList2 coder) [] [list] (addList2 coder false list []).2 := by
  have hcall : addList2 coder false list [] = (true, (addList2 coder false list []).2) := by
    cases list with
    | nil => rfl
    | cons ship list =>
      simp [addList2, add, TableCodable.insert, Sqlite.insertAll_of_unique_nil SQLValue.null
        (S := (ShipDBModel2.table coder).schema) rfl]
  exact .snoc false (.nil []) hcall

/-- A ship whose price is 1.75. -/
def pricedShip : ShipModel :=
  let price := .finite (.ofOdd 7 2 rfl) (fitsDouble_ofOdd (by decide) (by decide))
  { id := 1, name := "n", color := "c", engin := { brand := "b", price := price } }

theorem all_after_run_iff_priced :
    let rows := (addList2 .text false [pricedShip] []).2
    Run (addList2 .text) [] [[pricedShip]] rows ∧
      ((allList2 .text false rows = some [pricedShip] ∧ ∀ r ∈ rows, ShipModel.BrandAgrees .text r) ↔
        ∀ ship ∈ [pricedShip], ship.Storable ∧ NulFree ship.engin.brand) := by
  intro rows
  have hrun := Run.single .text [pricedShip]
  exact ⟨hrun, (all_after_run_iff .text [[pricedShip]] rows).1 hrun⟩

/-- A ship whose price is infinite. -/
def pricelessShip : ShipModel := { engin := { brand := "b", price := .infinity false } }

/-- A ship with an infinite price is added, but comes back without its engine, and
with a brand column that agrees with no engine. -/
theorem infinite_price_is_lost :
    ∃ rows, Run (addList2 .text) [] [[pricelessShip]] rows ∧
      ¬(allList2 .text false rows = some [pricelessShip] ∧ ∀ r ∈ rows, ShipModel.BrandAgrees .text r) := by
  have hrun := Run.single .text [pricelessShip]
  refine ⟨_, hrun, fun ⟨hall, _⟩ => ?_⟩
  have hstored : allList2 .text false (addList2 .text false [pricelessShip] []).2 = some ([pricelessShip].map ShipModel.stored) :=
    Run.all_eq rfl (fun _ => rfl) (ShipModel.bizModel_ofRow2 .text) hrun
  rw [hstored, Option.some.injEq, map_stored_eq_self_iff] at hall
  exact absurd (hall pricelessShip (List.mem_singleton_self _)).price Bool.false_ne_true

end ShipDBWorker

end StudyDB
