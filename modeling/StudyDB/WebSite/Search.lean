import StudyDB.WebSite.Worker

/-! The search for web sites. Proved: exactly for which filters it returns, from every
table, the rows that satisfy each of them. -/

namespace StudyDB

open Sqlite (Expr Sorter containsPattern)

namespace WebSiteDBWorker

/-! ### The condition of a search -/

theorem conjuncts_foldl (exps : List Expr) (e : Expr) :
    (exps.foldl (fun conditions exp =>
      match conditions with
      | some preExp => some (.and preExp exp)
      | none => some exp) (some e)).elim [] Expr.conjuncts = e.conjuncts ++ exps.flatMap Expr.conjuncts := by
  induction exps generalizing e with
  | nil => simp
  | cons e' exps ih => rw [List.foldl_cons, ih, Expr.conjuncts, List.flatMap_cons, List.append_assoc]

/-- The joined expressions are a conjunction of all. -/
theorem conjuncts_conditions (exps : List Expr) :
    (conditions exps).elim [] Expr.conjuncts = exps.flatMap Expr.conjuncts := by
  cases exps with
  | nil => rfl
  | cons e exps => exact conjuncts_foldl exps e

/-- The range bounds the scan, and the rest is tried on its rows. -/
theorem scanOrder_exps (f : Filters) :
    Sqlite.scanOrder (some "identifier") ((conditions f.exps).elim [] Expr.conjuncts) =
      f.rangeExps ++ (f.keywordExps ++ f.notInExps) := by
  rw [conjuncts_conditions, Filters.exps, Filters.keywordExps, Filters.rangeExps, Filters.notInExps]
  rcases f.words with _ | words <;> rcases f.ins with _ | ins <;> rcases f.idStart with _ | start <;>
    rcases f.idEnd with _ | last <;> rcases f.notIns with _ | notIns <;> rfl

namespace Filters

/-- What a filter asks for, where it is supplied. -/
def Supplied {α : Type} (o : Option α) (p : α → Prop) : Prop := ∀ a ∈ o, p a

instance {α : Type} (o : Option α) (p : α → Prop) [DecidablePred p] : Decidable (Supplied o p) :=
  Option.decidableForallMem o

@[simp] theorem supplied_none {α : Type} {p : α → Prop} : Supplied none p := nofun

@[simp] theorem supplied_some {α : Type} {a : α} {p : α → Prop} : Supplied (some a) p ↔ p a :=
  ⟨fun h => h a rfl, fun h _ heq => Option.some.inj heq ▸ h⟩

/-- The texts that a keyword is `LIKE`. -/
def Like (words : String) (r : Sqlite.Row SQLValue) : Prop :=
  Sqlite.likeFunc (containsPattern words) (r "name") = some (some true)

instance (words : String) (r : Sqlite.Row SQLValue) : Decidable (Like words r) := inferInstanceAs (Decidable (_ = _))

/-- Each filter that is supplied is true on the row. -/
structure Satisfies (f : Filters) (r : Sqlite.Row SQLValue) : Prop where
  idStart : Supplied f.idStart fun start => Sqlite.atLeast (r "identifier") start = some true
  idEnd : Supplied f.idEnd fun last => Sqlite.atMost (r "identifier") last = some true
  notInIds : Supplied f.notIns fun ids => (Sqlite.isIn (r "identifier") ids).not = some true
  keywords : Supplied f.words fun words =>
    Like words r ∨ ∃ ids ∈ f.ins, Sqlite.isIn (r "identifier") ids = some true
  inUids : f.words = none → Supplied f.ins fun ids => Sqlite.isIn (r "identifier") ids = some true

instance (f : Filters) (r : Sqlite.Row SQLValue) : Decidable (f.Satisfies r) :=
  decidable_of_iff ((Supplied f.idStart fun start => Sqlite.atLeast (r "identifier") start = some true) ∧
      (Supplied f.idEnd fun last => Sqlite.atMost (r "identifier") last = some true) ∧
      (Supplied f.notIns fun ids => (Sqlite.isIn (r "identifier") ids).not = some true) ∧
      (Supplied f.words fun words => Like words r ∨ ∃ ids ∈ f.ins, Sqlite.isIn (r "identifier") ids = some true) ∧
      (f.words = none → Supplied f.ins fun ids => Sqlite.isIn (r "identifier") ids = some true))
    ⟨fun ⟨h₁, h₂, h₃, h₄, h₅⟩ => ⟨h₁, h₂, h₃, h₄, h₅⟩, fun ⟨h₁, h₂, h₃, h₄, h₅⟩ => ⟨h₁, h₂, h₃, h₄, h₅⟩⟩

/-- Between both ends of the range, if both are supplied. -/
def InRange (f : Filters) (id : Int64) : Prop :=
  Supplied f.idStart fun start => Supplied f.idEnd fun last => start ≤ id ∧ id ≤ last

instance (f : Filters) (id : Int64) : Decidable (f.InRange id) := inferInstanceAs (Decidable (Supplied _ _))

def NotExcluded (f : Filters) (id : Int64) : Prop := Supplied f.notIns fun ids => id ∉ ids

instance (f : Filters) (id : Int64) : Decidable (f.NotExcluded id) := inferInstanceAs (Decidable (Supplied _ _))

/-- The keyword and the list of ids that stands beside it. -/
def Found (f : Filters) (id : Int64) (r : Sqlite.Row SQLValue) : Prop :=
  Supplied f.words fun words => Like words r ∨ ∃ ids ∈ f.ins, id ∈ ids

instance (f : Filters) (id : Int64) (r : Sqlite.Row SQLValue) : Decidable (f.Found id r) :=
  inferInstanceAs (Decidable (Supplied _ _))

/-- The filters that make no expression: an end of the range alone, and a list of ids
without a keyword. -/
structure Skipped (f : Filters) (id : Int64) : Prop where
  idStart : f.idEnd = none → Supplied f.idStart fun start => start ≤ id
  idEnd : f.idStart = none → Supplied f.idEnd fun last => id ≤ last
  inUids : f.words = none → Supplied f.ins fun ids => id ∈ ids

/-- The pattern of the keyword is not too long for LIKE. -/
def PatternFits (f : Filters) : Prop :=
  Supplied f.words fun words => (containsPattern words).utf8ByteSize ≤ Sqlite.maxPatternLength

/-- LIKE raises no error on the row: the pattern is not too long, or the name is a
BLOB, which is not compared. -/
def Evaluates (f : Filters) (r : Sqlite.Row SQLValue) : Prop := (r "name").isBlob = true ∨ f.PatternFits

/-- The filters that make an expression, and those that make none. -/
theorem satisfies_iff {f : Filters} {id : Int64} {r : Sqlite.Row SQLValue} (hid : r "identifier" = .integer id) :
    f.Satisfies r ↔ (f.InRange id ∧ f.Found id r ∧ f.NotExcluded id) ∧ f.Skipped id := by
  constructor
  · rintro ⟨hstart, hend, hnot, hwords, hins⟩
    simp only [hid, Sqlite.atLeast_integer, Sqlite.atMost_integer, Sqlite.isIn_integer, Sqlite.Truth.not_some_eq_true,
      Option.some.injEq, decide_eq_true_eq, decide_eq_false_iff_not] at hstart hend hnot hwords hins
    exact ⟨⟨fun start hs last hl => ⟨hstart start hs, hend last hl⟩, hwords, hnot⟩,
      ⟨fun _ => hstart, fun _ => hend, hins⟩⟩
  · rintro ⟨⟨hrange, hfound, hnot⟩, hskipped⟩
    rw [Found] at hfound
    rw [NotExcluded] at hnot
    have hstart : Supplied f.idStart fun start => start ≤ id := fun start hs => by
      cases hl : f.idEnd with
      | none => exact hskipped.idStart hl start hs
      | some last => exact (hrange start hs last hl).1
    have hend : Supplied f.idEnd fun last => id ≤ last := fun last hl => by
      cases hs : f.idStart with
      | none => exact hskipped.idEnd hs last hl
      | some start => exact (hrange start hs last hl).2
    constructor
    · simpa [hid] using hstart
    · simpa [hid] using hend
    · simpa [hid] using hnot
    · simpa [hid] using hfound
    · simpa [hid] using hskipped.inUids

/-! ### What the expressions select -/

variable {f : Filters} {id : Int64} {r : Sqlite.Row SQLValue}

theorem passes_rangeExps (hid : r "identifier" = .integer id) (es : List Expr) :
    Sqlite.passes r (f.rangeExps ++ es) = if f.InRange id then Sqlite.passes r es else some false := by
  cases hs : f.idStart with
  | none => simp [rangeExps, InRange, hs]
  | some start =>
    cases hl : f.idEnd with
    | none => simp [rangeExps, InRange, hs, hl]
    | some last => simp [rangeExps, InRange, hs, hl, Sqlite.passes, Expr.eval, hid]

theorem passes_notInExps (hid : r "identifier" = .integer id) :
    Sqlite.passes r f.notInExps = some (decide (f.NotExcluded id)) := by
  cases h : f.notIns with
  | none => simp [notInExps, NotExcluded, h, Sqlite.passes]
  | some ids => by_cases hmem : id ∈ ids <;> simp [notInExps, NotExcluded, h, Sqlite.passes, Expr.eval, hid, hmem]

theorem passes_keywordExps (hid : r "identifier" = .integer id) (h : f.Evaluates r) (es : List Expr) :
    Sqlite.passes r (f.keywordExps ++ es) = if f.Found id r then Sqlite.passes r es else some false := by
  cases hw : f.words with
  | none => simp [keywordExps, Found, hw]
  | some words =>
    obtain ⟨truth, hlike⟩ : ∃ truth, Sqlite.likeFunc (containsPattern words) (r "name") = some truth :=
      Option.isSome_iff_exists.mp (Sqlite.isSome_likeFunc_iff.mpr (h.imp_right fun hfits => hfits words hw))
    have heval : (WCDB.like "name" ("%" ++ words ++ "%")).eval r = some truth := hlike
    have htruth : Like words r ↔ truth = some true := by rw [Like, hlike, Option.some.injEq]
    cases hi : f.ins with
    | none => simp [keywordExps, Found, hw, hi, Sqlite.passes, heval, htruth]
    | some ids =>
      by_cases ht : truth = some true
      · simp [keywordExps, Found, hw, hi, Sqlite.passes, Expr.eval, heval, htruth, ht]
      · simp [keywordExps, Found, hw, hi, Sqlite.passes, Expr.eval, heval, htruth, ht, hid]

theorem passes_keywordExps_eq_none (h : ¬f.Evaluates r) (es : List Expr) :
    Sqlite.passes r (f.keywordExps ++ es) = none := by
  simp only [Evaluates, PatternFits, Supplied, not_or, not_forall] at h
  obtain ⟨hblob, words, hw, hlen⟩ := h
  have heval : (WCDB.like "name" ("%" ++ words ++ "%")).eval r = none := by
    rw [WCDB.like, Expr.eval, ← containsPattern, ← Option.not_isSome_iff_eq_none, Sqlite.isSome_likeFunc_iff]
    exact not_or.mpr ⟨hblob, hlen⟩
  rw [keywordExps, show f.words = some words from hw]
  cases f.ins with
  | none => simp [Sqlite.passes, heval]
  | some ids => simp [Sqlite.passes, Expr.eval, heval]

/-- The rows that the expressions select, where none of them raises an error. -/
def Selects (f : Filters) (id : Int64) (r : Sqlite.Row SQLValue) : Prop :=
  f.InRange id ∧ f.Found id r ∧ f.NotExcluded id

instance (f : Filters) (id : Int64) (r : Sqlite.Row SQLValue) : Decidable (f.Selects id r) :=
  inferInstanceAs (Decidable (_ ∧ _))

theorem passes_exps (hid : r "identifier" = .integer id) (h : f.InRange id → f.Evaluates r) :
    Sqlite.passes r (f.rangeExps ++ (f.keywordExps ++ f.notInExps)) = some (decide (f.Selects id r)) := by
  rw [passes_rangeExps hid]
  by_cases hrange : f.InRange id
  · rw [if_pos hrange, passes_keywordExps hid (h hrange), passes_notInExps hid]
    by_cases hfound : f.Found id r <;> simp [Selects, hrange, hfound]
  · simp [Selects, hrange]

theorem passes_exps_eq_none (hid : r "identifier" = .integer id) (hrange : f.InRange id) (h : ¬f.Evaluates r) :
    Sqlite.passes r (f.rangeExps ++ (f.keywordExps ++ f.notInExps)) = none := by
  rw [passes_rangeExps hid, if_pos hrange, passes_keywordExps_eq_none h]

end Filters

/-! ### What a search returns -/

open WebSites (rowId)

variable {coder : JsonCoder} {sorter : Sorter orderKey} {f : Filters} {T : WebSites}

theorem passes_row {r : Sqlite.Row SQLValue} (hr : r ∈ T.rows) (h : f.InRange (rowId r) → f.Evaluates r) :
    Sqlite.passes r (Sqlite.scanOrder (some "identifier") ((conditions f.exps).elim [] Expr.conjuncts)) =
      some (decide (f.Selects (rowId r) r)) := by
  rw [scanOrder_exps, Filters.passes_exps (WebSites.identifier_of_mem hr) h]

/-- Where no row raises an error, a search returns the rows that the expressions select. -/
theorem searchWebsites_eq (h : ∀ r ∈ T.rows, f.InRange (rowId r) → f.Evaluates r) :
    searchWebsites coder sorter false f none none T =
      some (some ((sorter.sort (T.rows.filter fun r => f.Selects (rowId r) r)).map (WebSiteDBModel.ofRow coder))) := by
  have hwhere : Sqlite.whereRows (some "identifier") (conditions f.exps) T.rows =
      some (T.rows.filter fun r => f.Selects (rowId r) r) :=
    Sqlite.filterRows_eq fun r hr => passes_row hr (h r hr)
  rw [searchWebsites, offset?_none, Option.bind_eq_bind, Option.bind_some, WCDB.TableCodable.select,
    if_neg Bool.false_ne_true, hwhere, Option.bind_some, WCDB.limited, WCDB.mapM_decode fun _ => rfl]

/-- One row that raises an error makes a search fail. -/
theorem searchWebsites_eq_none {r : Sqlite.Row SQLValue} (hr : r ∈ T.rows) (hrange : f.InRange (rowId r))
    (h : ¬f.Evaluates r) : searchWebsites coder sorter false f none none T = some none := by
  have hwhere : Sqlite.whereRows (some "identifier") (conditions f.exps) T.rows = none :=
    Sqlite.filterRows_eq_none hr
      (by rw [scanOrder_exps, Filters.passes_exps_eq_none (WebSites.identifier_of_mem hr) hrange h])
  rw [searchWebsites, offset?_none, Option.bind_eq_bind, Option.bind_some, WCDB.TableCodable.select,
    if_neg Bool.false_ne_true, hwhere]
  rfl

/-- The search returns the rows that satisfy each supplied filter, and no others. -/
def SearchIsExact (coder : JsonCoder) (sorter : Sorter orderKey) (f : Filters) (T : WebSites) : Prop :=
  ∃ list, searchWebsites coder sorter false f none none T = some (some list) ∧
    list.Perm ((T.rows.filter fun r => f.Satisfies r).map (WebSiteDBModel.ofRow coder))

/-- On one table the search is exact if the keyword's pattern is not too long, or no
row in the range has a name to compare, and if a row that is selected satisfies the
skipped filters. -/
theorem searchIsExact_iff :
    SearchIsExact coder sorter f T ↔ ∀ r ∈ T.rows, f.InRange (rowId r) →
      f.Evaluates r ∧ (f.Found (rowId r) r → f.NotExcluded (rowId r) → f.Skipped (rowId r)) := by
  constructor
  · rintro ⟨list, hlist, hperm⟩ r hr hrange
    have hfits : ∀ r ∈ T.rows, f.InRange (rowId r) → f.Evaluates r := fun r hr hrange => by
      by_contra hlong
      rw [searchWebsites_eq_none hr hrange hlong] at hlist
      cases Option.some.inj hlist
    refine ⟨hfits r hr hrange, fun hfound hnot => ?_⟩
    rw [searchWebsites_eq hfits] at hlist
    obtain rfl := Option.some.inj (Option.some.inj hlist)
    -- what satisfies the filters is selected, so equal numbers make both the same
    have hsub : (T.rows.filter fun r => f.Satisfies r) =
        (T.rows.filter fun r => f.Selects (rowId r) r).filter fun r => f.Satisfies r := by
      rw [List.filter_filter]
      refine List.filter_congr fun r hr => ?_
      have himp := (Filters.satisfies_iff (f := f) (WebSites.identifier_of_mem hr)).mp
      by_cases hs : f.Satisfies r
      · simp [hs, show f.Selects (rowId r) r from (himp hs).1]
      · simp [hs]
    have hlen := hperm.length_eq
    rw [List.length_map, List.length_map, (sorter.perm _).length_eq, hsub, eq_comm,
      List.length_filter_eq_length_iff] at hlen
    have hselected : r ∈ T.rows.filter fun r => f.Selects (rowId r) r :=
      List.mem_filter.mpr ⟨hr, decide_eq_true ⟨hrange, hfound, hnot⟩⟩
    exact ((Filters.satisfies_iff (WebSites.identifier_of_mem hr)).mp (of_decide_eq_true (hlen r hselected))).2
  · intro h
    refine ⟨_, searchWebsites_eq fun r hr hrange => (h r hr hrange).1, ((sorter.perm _).trans (.of_eq ?_)).map _⟩
    refine List.filter_congr fun r hr => decide_eq_decide.mpr ?_
    rw [Filters.satisfies_iff (WebSites.identifier_of_mem hr)]
    exact ⟨fun hs => ⟨hs, (h r hr hs.1).2 hs.2.1 hs.2.2⟩, And.left⟩

/-- The row of a site that has only a name. -/
def namedRow (name : SQLValue) : Sqlite.Row SQLValue := fun c => if c = "name" then name else .null

/-- A keyword whose pattern is not too long finds some name. -/
theorem exists_found (h : f.PatternFits) (id : Int64) :
    ∃ name, f.Found id (WebSites.entryRow (id, namedRow name)) := by
  cases hw : f.words with
  | none => exact ⟨.null, fun words hwords => by rw [hw] at hwords; cases hwords⟩
  | some words =>
    obtain ⟨t, ht, hlike⟩ := Sqlite.exists_likeText_eq_true (Nat.not_lt.mpr (h words hw))
    refine ⟨.text t, fun words' hwords => .inl ?_⟩
    rw [hw] at hwords
    obtain rfl := Option.some.inj hwords
    have hname : WebSites.entryRow (id, namedRow (.text t)) "name" = .text t :=
      WebSites.entryRow_of_ne _ (by decide)
    rw [Filters.Like, hname, Sqlite.likeFunc_text, cString_eq_self_iff.mpr ht, hlike]

/-- On every table the search is exact if the keyword's pattern is not too long, or
the range is empty, and if the ids that the other filters leave satisfy the skipped
ones. -/
theorem searchWebsites_exact_iff (coder : JsonCoder) (sorter : Sorter orderKey) (f : Filters) :
    (∀ T, SearchIsExact coder sorter f T ↔ ∀ r ∈ T.rows, f.InRange (rowId r) →
      f.Evaluates r ∧ (f.Found (rowId r) r → f.NotExcluded (rowId r) → f.Skipped (rowId r))) ∧
    ((∀ T, SearchIsExact coder sorter f T) ↔
      ∀ id, f.InRange id → f.PatternFits ∧ (f.NotExcluded id → f.Skipped id)) := by
  refine ⟨fun T => searchIsExact_iff, fun h id hrange => ?_, fun h T => searchIsExact_iff.mpr fun r _ hrange => ?_⟩
  · have hsingle : ∀ name, f.Evaluates (WebSites.entryRow (id, namedRow name)) ∧
        (f.Found id (WebSites.entryRow (id, namedRow name)) → f.NotExcluded id → f.Skipped id) := fun name => by
      have hr := searchIsExact_iff.mp (h (.single id (namedRow name))) _ (List.mem_singleton_self _)
      rw [WebSites.rowId_entryRow] at hr
      exact hr hrange
    -- a name that is NULL is compared
    have hfits : f.PatternFits := (hsingle .null).1.resolve_left Bool.false_ne_true
    obtain ⟨name, hfound⟩ := exists_found hfits id
    exact ⟨hfits, (hsingle name).2 hfound⟩
  · exact ⟨.inr (h _ hrange).1, fun _ => (h _ hrange).2⟩

/-- A list of ids without a keyword is not a filter. -/
theorem inUids_alone_selects_all :
    ¬∀ T, SearchIsExact .text (Sorter.stable orderKey) { inUids := some [1] } T := by
  intro h
  have hrow := searchIsExact_iff.mp (h (.single 2 (namedRow .null))) _ (List.mem_singleton_self _)
  rw [WebSites.rowId_entryRow] at hrow
  have hskipped := (hrow fun _ hstart => nomatch hstart).2 (fun _ hwords => nomatch hwords) fun _ hnot => nomatch hnot
  exact absurd (hskipped.inUids rfl [1] rfl) (by decide)

end WebSiteDBWorker

end StudyDB
