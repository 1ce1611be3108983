import StudyDB.WebSite.Model

/-! `WebSiteDBWorker`: adding sites, reading a page of the table, and the search that
combines filters. -/

namespace StudyDB

open Sqlite (Expr Sorter containsPattern)

namespace WebSiteDBWorker

/-! ### The worker -/

/-- What a search is given beside its page. -/
structure Filters where
  keywords : Option String := none
  inUids : Option (List Int64) := none
  idStart : Option Int64 := none
  idEnd : Option Int64 := none
  notInIds : Option (List Int64) := none

namespace Filters
variable (f : Filters)

/-- A keyword that is not empty. -/
def words : Option String := f.keywords.filter (· ≠ "")

/-- Lists that are not empty. -/
def ins : Option (List Int64) := f.inUids.filter (· ≠ [])

def notIns : Option (List Int64) := f.notInIds.filter (· ≠ [])

def keywordExps : List Expr :=
  match f.words with
  | some words =>
    let exp1 := WCDB.like "name" ("%" ++ words ++ "%")
    match f.ins with
    | some inUids => [.or exp1 (.isIn "identifier" inUids)]
    | none => [exp1]
  | none => []

def rangeExps : List Expr :=
  match f.idStart, f.idEnd with
  | some start, some «end» => [.between "identifier" start «end»]
  | _, _ => []

def notInExps : List Expr :=
  match f.notIns with
  | some notInIds => [.notIn "identifier" notInIds]
  | none => []

def exps : List Expr := f.keywordExps ++ f.rangeExps ++ f.notInExps

end Filters

/-- The expressions joined by `&&`. -/
def conditions (exps : List Expr) : Option Expr :=
  exps.foldl (fun conditions exp =>
    match conditions with
    | some preExp => some (.and preExp exp)
    | none => some exp) none

/-- The offset of a page; the outer `none` is the trap of an overflow. -/
def offset? (pageSize pageNum : Option Int64) : Option (Option Int64) :=
  match pageNum, pageSize with
  | some pageNum, some pageSize =>
    if 0 < pageNum ∧ 0 < pageSize then (int64? (pageNum.toInt * pageSize.toInt)).map some else some none
  | _, _ => some none

@[simp] theorem offset?_none (pageNum : Option Int64) : offset? none pageNum = some none := by
  cases pageNum <;> rfl

/-- By name, and where names are equal by rank with the largest first. -/
def orderKey (r : Sqlite.Row SQLValue) : (ℕ ×ₗ ℤ ×ₗ List ℕ) ×ₗ (ℕ ×ₗ ℤ ×ₗ List ℕ)ᵒᵈ :=
  toLex (Sqlite.sortKey (r "name"), OrderDual.toDual (Sqlite.sortKey (r "alexa")))

section Calls
variable (coder : JsonCoder)

def addWebSites (fault : Bool) (sites : List WebSiteDBModel) (T : WebSites) : Bool × WebSites :=
  WCDB.report T (WCDB.insertOrReplaceRows (fun site => some (site.id, (WebSiteDBModel.table coder).row site)) fault sites T)

def getWebSitesCount (fault : Bool) (T : WebSites) : Option Int64 :=
  if fault then none else some (Int64.ofNat T.rows.length)

/-- The limit that the call is given is not the one it uses. -/
def getWebSites (fault : Bool) (offset : Int64) (_limit : Option Int64) (T : WebSites) : List WebSiteDBModel :=
  ((WebSiteDBModel.table coder).select (some "identifier") fault none id (some 10) (some offset) T.rows).getD []

/-- The outer `none` is a trap, the inner one a failure. -/
def searchWebsites (sorter : Sorter orderKey) (fault : Bool) (f : Filters) (pageSize pageNum : Option Int64)
    (T : WebSites) : Option (Option (List WebSiteDBModel)) := do
  let offset ← offset? pageSize pageNum
  some ((WebSiteDBModel.table coder).select (some "identifier") fault (conditions f.exps) sorter.sort pageSize offset
    T.rows)

end Calls

end WebSiteDBWorker

end StudyDB
