import StudyDB.WCDB.Aggregate
import StudyDB.WebSite.Worker

/-! The ranks of web sites: their sums, average, largest and smallest, and the sites whose
rank is not in a list. Proved: the two sums are read as the same where no partial sum
overflows and none is rounded; the default rank takes effect exactly as long as no site is
kept that came without a rank. -/

namespace StudyDB

open Sqlite (RowIdTable Expr SumsFit integers sumCtx)
open Rounding (Representable)

namespace WebSites

/-- A rank as it is stored, which is an integer or NULL. -/
def rank : SQLValue → Option Int64
  | .integer n => some n
  | _ => none

/-- The column of the ranks, in the order of the scan. -/
def alexas (T : WebSites) : List (Option Int64) := T.rows.map fun r => rank (r "alexa")

/-- The ranks that the aggregate functions range over. -/
def ranks (T : WebSites) : List Int64 := T.alexas.filterMap id

end WebSites

namespace WebSiteDBWorker

/-! ### The worker -/

def getWebSitesAlexTotal (fault : Bool) (T : WebSites) : Option (Option Int64) :=
  WCDB.getInt fault (some (Sqlite.totalFinalize (sumCtx T.alexas)))

def getWebSiteAlexAvg (fault : Bool) (T : WebSites) : Option (Option Int64) :=
  WCDB.getInt fault (some (Sqlite.avgFinalize (sumCtx T.alexas)))

def getWebSiteAlexMax (fault : Bool) (T : WebSites) : Option (Option Int64) :=
  WCDB.getInt fault (some (Sqlite.minmaxFinalize (T.alexas.foldl (Sqlite.minmaxStep true) none)))

def getWebSiteAlexMin (fault : Bool) (T : WebSites) : Option (Option Int64) :=
  WCDB.getInt fault (some (Sqlite.minmaxFinalize (T.alexas.foldl (Sqlite.minmaxStep false) none)))

def getWebSiteAlexSum (fault : Bool) (T : WebSites) : Option (Option Int64) :=
  WCDB.getInt fault (Sqlite.sumFinalize (sumCtx T.alexas))

def getWebsitesAlexaNotIn (coder : JsonCoder) (fault : Bool) (alexas : List Int64) (T : WebSites) :
    List WebSiteDBModel :=
  ((WebSiteDBModel.table coder).select (some "identifier") fault (some (.notIn "alexa" alexas)) id none none
    T.rows).getD []

/-- The aggregate functions of the column are those of these ranks. -/
structure RangesOver (T : WebSites) (ranks : List Int64) : Prop where
  min : getWebSiteAlexMin false T =
    WCDB.getInt false (some (Sqlite.minmaxFinalize ((ranks.map some).foldl (Sqlite.minmaxStep false) none)))
  max : getWebSiteAlexMax false T =
    WCDB.getInt false (some (Sqlite.minmaxFinalize ((ranks.map some).foldl (Sqlite.minmaxStep true) none)))
  avg : getWebSiteAlexAvg false T = WCDB.getInt false (some (Sqlite.avgFinalize (sumCtx (ranks.map some))))
  sum : getWebSiteAlexSum false T = WCDB.getInt false (Sqlite.sumFinalize (sumCtx (ranks.map some)))

/-- They skip the sites without a rank. -/
theorem rangesOver_ranks (T : WebSites) : RangesOver T T.ranks := by
  have hminmax : ∀ max, T.alexas.foldl (Sqlite.minmaxStep max) none =
      (T.ranks.map some).foldl (Sqlite.minmaxStep max) none := fun max =>
    Sqlite.foldl_skip (fun _ => rfl) T.alexas none
  have hsum : sumCtx T.alexas = sumCtx (T.ranks.map some) := Sqlite.foldl_skip (fun _ => rfl) T.alexas _
  refine ⟨?_, ?_, ?_, ?_⟩
  · rw [getWebSiteAlexMin, hminmax]
  · rw [getWebSiteAlexMax, hminmax]
  · rw [getWebSiteAlexAvg, hsum]
  · rw [getWebSiteAlexSum, hsum]

/-! ### The two sums -/

/-- The row of a site that has only a rank. -/
def rankedRow (alexa : SQLValue) : Sqlite.Row SQLValue := fun c => if c = "alexa" then alexa else .null

theorem alexas_eq {T : WebSites} {alexas : List (Option Int64)}
    (hT : T.rows.map (fun r => r "alexa") = alexas.map WCDB.Column.int64.bindIfPresent) : T.alexas = alexas := by
  have hrank : ∀ alexa, WebSites.rank (WCDB.Column.int64.bindIfPresent alexa) = alexa := fun alexa => by
    cases alexa <;> rfl
  have hmap : T.alexas = (T.rows.map fun r => r "alexa").map WebSites.rank := by
    rw [List.map_map]
    rfl
  rw [hmap, hT, List.map_map]
  exact (List.map_congr_left fun alexa _ => hrank alexa).trans (List.map_id _)

/-- On a table with the given ranks, the two sums are the same and neither traps where every
partial sum is an Int64 and every rank and every partial sum has no more than 53 bits. That
no partial sum overflows is necessary, and so is that the last sum has 53 bits, if the
ranks and the sums before it do. -/
theorem total_eq_sum_of_representable {T : WebSites} {alexas : List (Option Int64)}
    (hT : T.rows.map (fun r => r "alexa") = alexas.map WCDB.Column.int64.bindIfPresent) :
    (SumsFit (integers alexas) → (∀ n ∈ integers alexas, Representable 53 n) →
      (∀ pre, pre <+: integers alexas → Representable 53 pre.sum) →
      ∃ r, getWebSitesAlexTotal false T = some r ∧ getWebSiteAlexSum false T = some r) ∧
    ((∃ r, getWebSitesAlexTotal false T = some r ∧ getWebSiteAlexSum false T = some r) →
      SumsFit (integers alexas) ∧
      ((∀ n ∈ integers alexas, Representable 53 n) →
        (∀ pre, pre <+: integers alexas → pre ≠ integers alexas → Representable 53 pre.sum) →
        Representable 53 (integers alexas).sum)) := by
  have hlength : T.alexas.length < 2 ^ 63 := by
    rw [WebSites.alexas, List.length_map]
    exact T.length_rows_lt
  obtain rfl := alexas_eq hT
  refine ⟨WCDB.sumsAgree_of_representable hlength, fun hagree => ?_⟩
  obtain ⟨hfit, hexact⟩ := (WCDB.sumsAgree_iff hlength).mp hagree
  exact ⟨hfit, fun hns hsums => Rounding.representable_of_sumFrom_eq (by decide) hns hsums hexact⟩

/-- Three ranks and a site without one; the sums pass `2 ^ 53`. -/
theorem total_eq_sum_of_representable_three :
    let T : WebSites := ⟨[(1, rankedRow (.integer 9007199254740992)), (2, rankedRow .null), (3, rankedRow (.integer 13000)),
      (4, rankedRow (.integer (-4)))], by decide, by decide⟩
    ∃ r, getWebSitesAlexTotal false T = some r ∧ getWebSiteAlexSum false T = some r := by
  intro T
  have hprefixes : ∀ pre, pre <+: integers [some 9007199254740992, none, some 13000, some (-4)] →
      pre = [] ∨ pre = [9007199254740992] ∨ pre = [9007199254740992, 13000] ∨ pre = [9007199254740992, 13000, -4] := by
    intro pre hpre
    simpa [integers] using (List.mem_inits pre _).mpr hpre
  have hT : T.rows.map (fun r => r "alexa") =
      [some 9007199254740992, none, some 13000, some (-4)].map WCDB.Column.int64.bindIfPresent := rfl
  refine (total_eq_sum_of_representable hT).1 ?_ ?_ ?_
  · intro pre hpre
    obtain rfl | rfl | rfl | rfl := hprefixes pre hpre
    · exact ⟨0, rfl⟩
    · exact ⟨9007199254740992, rfl⟩
    · exact ⟨9007199254753992, rfl⟩
    · exact ⟨9007199254753988, rfl⟩
  · intro n hn
    obtain rfl | rfl | rfl : n = 9007199254740992 ∨ n = 13000 ∨ n = -4 := by
      simpa [integers] using hn
    · exact ⟨1, 53, by decide, rfl⟩
    · exact ⟨13000, 0, by decide, rfl⟩
    · exact ⟨-4, 0, by decide, rfl⟩
  · intro pre hpre
    obtain rfl | rfl | rfl | rfl := hprefixes pre hpre
    · exact ⟨0, 0, by decide, rfl⟩
    · exact ⟨1, 53, by decide, rfl⟩
    · exact ⟨4503599627376996, 1, by decide, rfl⟩
    · exact ⟨4503599627376994, 1, by decide, rfl⟩

/-- A single rank of 54 bits is summed up to its even neighbour. -/
theorem total_ne_sum :
    ¬∃ r, getWebSitesAlexTotal false (.single 1 (rankedRow (.integer 9007199254740993))) = some r ∧
      getWebSiteAlexSum false (.single 1 (rankedRow (.integer 9007199254740993))) = some r := by
  intro h
  have hagree : WCDB.SumsAgree [some 9007199254740993] := h
  exact absurd ((WCDB.sumsAgree_iff (by decide)).mp hagree).2 (by decide)

/-! ### The default rank -/

section Default
variable (coder : JsonCoder)

/-- The DEFAULT clauses of the table: 0 for a rank that an INSERT does not name. -/
def columnDefault : Sqlite.Row SQLValue := fun c => if c = "alexa" then .integer 0 else .null

/-- An insertion names every column, so it makes its row without the defaults. -/
theorem row_eq_of_default (site : WebSiteDBModel) {c : String} (hc : c ∈ (WebSiteDBModel.table coder).keys) :
    Sqlite.updatedRow (Sqlite.assignment .null (WebSiteDBModel.table coder).keys
      ((WebSiteDBModel.table coder).params site)) columnDefault c = (WebSiteDBModel.table coder).row site c := by
  rw [Sqlite.updatedRow, WCDB.TableCodable.row, Sqlite.insertedRow, WCDB.TableCodable.params,
    Sqlite.assignment_of_mem SQLValue.null hc]
  rfl

/-- Calls of `addWebSites` one after the other, each with its fault. -/
def addAll (calls : List (Bool × List WebSiteDBModel)) (T : WebSites) : WebSites :=
  calls.foldl (fun T call => (addWebSites coder call.1 call.2 T).2) T

/-- The sites that the table has under its ids after these calls. -/
def keepAll (calls : List (Bool × List WebSiteDBModel)) (K : RowIdTable WebSiteDBModel) : RowIdTable WebSiteDBModel :=
  calls.foldl (fun K call => (WCDB.report K
    (WCDB.insertOrReplaceRows (fun site => some (site.id, site)) call.1 call.2 K)).2) K

/-- The table has the rows of the sites that are kept. -/
theorem addAll_map (calls : List (Bool × List WebSiteDBModel)) (K : RowIdTable WebSiteDBModel) :
    addAll coder calls (K.map (WebSiteDBModel.table coder).row) =
      (keepAll calls K).map (WebSiteDBModel.table coder).row := by
  induction calls generalizing K with
  | nil => rfl
  | cons call calls ih =>
    have hstep : (addWebSites coder call.1 call.2 (K.map (WebSiteDBModel.table coder).row)).2 =
        (WCDB.report K (WCDB.insertOrReplaceRows (fun site => some (site.id, site)) call.1 call.2 K)).2.map
          (WebSiteDBModel.table coder).row := by
      rw [addWebSites, WCDB.insertOrReplaceRows_map (WebSiteDBModel.table coder).row WebSiteDBModel.id fun site => site,
        WCDB.report_map]
      rfl
    rw [addAll, List.foldl_cons, hstep, ← addAll, ih, keepAll, keepAll, List.foldl_cons]

/-- The DEFAULT of the ranks is in effect: no rank is NULL, a site that came without a rank has
rank 0, the aggregate functions range over as many ranks as there are rows, and a list
without 0 hides no such site. -/
structure DefaultApplies (T : WebSites) (K : RowIdTable WebSiteDBModel) : Prop where
  notNull : ∀ r ∈ T.rows, r "alexa" ≠ .null
  readBack : ∀ e ∈ K.entries, e.2.alexa = none →
    ∃ r ∈ T.rows, WebSites.rowId r = e.1 ∧ (WebSiteDBModel.ofRow coder r).alexa = some 0
  ranges : RangesOver T T.ranks ∧ getWebSitesCount false T = some (Int64.ofNat T.ranks.length)
  notIn : ∀ alexas, 0 ∉ alexas → ∀ e ∈ K.entries, e.2.alexa = none →
    ∃ site ∈ getWebsitesAlexaNotIn coder false alexas T, site.id = some e.1

/-- The row of a site under an id. -/
def siteRow (e : Int64 × WebSiteDBModel) : Sqlite.Row SQLValue :=
  WebSites.entryRow (e.1, (WebSiteDBModel.table coder).row e.2)

variable {coder} {K : RowIdTable WebSiteDBModel}

theorem rows_map : WebSites.rows (K.map (WebSiteDBModel.table coder).row) = K.entries.map (siteRow coder) := by
  rw [WebSites.rows, RowIdTable.map, List.map_map]
  rfl

theorem siteRow_alexa (e : Int64 × WebSiteDBModel) :
    siteRow coder e "alexa" = WCDB.Column.int64.bindIfPresent e.2.alexa := by
  rw [siteRow, WebSites.entryRow_of_ne _ (by decide), WCDB.TableCodable.row_eq]
  rfl

theorem siteRow_alexa_eq_null_iff {e : Int64 × WebSiteDBModel} :
    siteRow coder e "alexa" = .null ↔ e.2.alexa = none := by
  rw [siteRow_alexa]
  cases e.2.alexa with
  | none => exact iff_of_true rfl rfl
  | some alexa => exact iff_of_false nofun nofun

/-- A site is read back with the rank it came with. -/
theorem ofRow_siteRow_alexa (e : Int64 × WebSiteDBModel) :
    (WebSiteDBModel.ofRow coder (siteRow coder e)).alexa = e.2.alexa := by
  rw [WebSiteDBModel.ofRow, siteRow_alexa]
  cases e.2.alexa <;> rfl

theorem ofRow_siteRow_id (e : Int64 × WebSiteDBModel) :
    (WebSiteDBModel.ofRow coder (siteRow coder e)).id = some e.1 := by
  rw [WebSiteDBModel.ofRow, siteRow, WebSites.entryRow_identifier]
  rfl

theorem getWebsitesAlexaNotIn_eq (alexas : List Int64) (T : WebSites) :
    getWebsitesAlexaNotIn coder false alexas T =
      (T.rows.filter fun r => (Sqlite.isIn (r "alexa") alexas).not = some true).map (WebSiteDBModel.ofRow coder) := by
  have hpasses : ∀ r ∈ T.rows, Sqlite.passes r (Sqlite.scanOrder (some "identifier")
      ((some (Expr.notIn "alexa" alexas)).elim [] Expr.conjuncts)) =
        some (decide ((Sqlite.isIn (r "alexa") alexas).not = some true)) := fun r _ => by
    have hterms : Sqlite.scanOrder (some "identifier") ((some (Expr.notIn "alexa" alexas)).elim [] Expr.conjuncts) =
        [Expr.notIn "alexa" alexas] := rfl
    rw [hterms, Sqlite.passes, Expr.eval, Option.bind_eq_bind, Option.bind_some]
    split_ifs with h <;> simp [h, Sqlite.passes]
  rw [getWebsitesAlexaNotIn, WCDB.TableCodable.select, if_neg Bool.false_ne_true, Sqlite.whereRows,
    Sqlite.filterRows_eq hpasses, Option.bind_some, WCDB.limited, WCDB.mapM_decode fun _ => rfl]
  rfl

theorem notNull_iff : (∀ r ∈ WebSites.rows (K.map (WebSiteDBModel.table coder).row), r "alexa" ≠ .null) ↔
    ∀ e ∈ K.entries, e.2.alexa ≠ none := by
  rw [rows_map, List.forall_mem_map]
  exact forall₂_congr fun e _ => not_congr siteRow_alexa_eq_null_iff

/-- An id belongs to one row. -/
theorem eq_siteRow {r : Sqlite.Row SQLValue} (hr : r ∈ WebSites.rows (K.map (WebSiteDBModel.table coder).row))
    {e : Int64 × WebSiteDBModel} (he : e ∈ K.entries) (hid : WebSites.rowId r = e.1) : r = siteRow coder e := by
  rw [rows_map] at hr
  obtain ⟨e', he', rfl⟩ := List.mem_map.mp hr
  rw [siteRow, WebSites.rowId_entryRow] at hid
  rw [List.inj_on_of_nodup_map K.nodup_ids he' he hid]

theorem readBack_iff : (∀ e ∈ K.entries, e.2.alexa = none →
    ∃ r ∈ WebSites.rows (K.map (WebSiteDBModel.table coder).row),
      WebSites.rowId r = e.1 ∧ (WebSiteDBModel.ofRow coder r).alexa = some 0) ↔ ∀ e ∈ K.entries, e.2.alexa ≠ none := by
  refine forall₂_congr fun e he => ⟨fun h hnil => ?_, fun h hnil => absurd hnil h⟩
  obtain ⟨r, hr, hid, halexa⟩ := h hnil
  rw [eq_siteRow hr he hid, ofRow_siteRow_alexa, hnil] at halexa
  cases halexa

theorem ranks_map :
    WebSites.ranks (K.map (WebSiteDBModel.table coder).row) = K.entries.filterMap fun e => e.2.alexa := by
  have hrank : ∀ e : Int64 × WebSiteDBModel, WebSites.rank (siteRow coder e "alexa") = e.2.alexa := fun e => by
    rw [siteRow_alexa]
    cases e.2.alexa <;> rfl
  rw [WebSites.ranks, WebSites.alexas, rows_map, List.map_map, List.filterMap_map]
  exact List.filterMap_congr fun e _ => hrank e

/-- The count is that of the ranks exactly if no rank is missing. -/
theorem ranges_iff :
    getWebSitesCount false (K.map (WebSiteDBModel.table coder).row) =
      some (Int64.ofNat (WebSites.ranks (K.map (WebSiteDBModel.table coder).row)).length) ↔
    ∀ e ∈ K.entries, e.2.alexa ≠ none := by
  have hle := List.length_filterMap_le (fun e : Int64 × WebSiteDBModel => e.2.alexa) K.entries
  have hlt := K.length_lt
  have hlength : (K.entries.filterMap fun e => e.2.alexa).length = K.entries.length ↔
      ∀ e ∈ K.entries, e.2.alexa ≠ none := by
    rw [List.filterMap_length_eq_length]
    exact forall₂_congr fun e _ => Option.isSome_iff_ne_none
  rw [getWebSitesCount, if_neg Bool.false_ne_true, rows_map, List.length_map, ranks_map, Option.some.injEq, ← hlength]
  constructor
  · intro h
    have hint := congrArg Int64.toInt h
    rw [Int64.toInt_ofNat_of_lt hlt, Int64.toInt_ofNat_of_lt (Nat.lt_of_le_of_lt hle hlt)] at hint
    omega
  · intro h
    rw [h]

/-- A site without a rank is hidden by every list that is not empty. -/
theorem notIn_iff : (∀ alexas, 0 ∉ alexas → ∀ e ∈ K.entries, e.2.alexa = none →
    ∃ site ∈ getWebsitesAlexaNotIn coder false alexas (K.map (WebSiteDBModel.table coder).row), site.id = some e.1) ↔
      ∀ e ∈ K.entries, e.2.alexa ≠ none := by
  refine ⟨fun h e he hnil => ?_, fun h alexas _ e he hnil => absurd hnil (h e he)⟩
  obtain ⟨site, hsite, hid⟩ := h [1] (by decide) e he hnil
  rw [getWebsitesAlexaNotIn_eq] at hsite
  obtain ⟨r, hr, rfl⟩ := List.mem_map.mp hsite
  obtain ⟨hr, hshown⟩ := List.mem_filter.mp hr
  obtain ⟨e', he', rfl⟩ := List.mem_map.mp (rows_map ▸ hr)
  rw [ofRow_siteRow_id] at hid
  rw [List.inj_on_of_nodup_map K.nodup_ids he' he (Option.some.inj hid), siteRow_alexa_eq_null_iff.mpr hnil] at hshown
  exact absurd (of_decide_eq_true hshown) (by decide)

/-- After any calls, the default has taken effect exactly if no site is kept that came
without a rank. -/
theorem defaultApplies_iff (coder : JsonCoder) (calls : List (Bool × List WebSiteDBModel)) :
    DefaultApplies coder (addAll coder calls .empty) (keepAll calls .empty) ↔
      ∀ e ∈ (keepAll calls .empty).entries, e.2.alexa ≠ none := by
  have hmap : addAll coder calls .empty = (keepAll calls .empty).map (WebSiteDBModel.table coder).row :=
    addAll_map coder calls .empty
  rw [hmap]
  exact ⟨fun h => notNull_iff.mp h.notNull, fun h =>
    ⟨notNull_iff.mpr h, readBack_iff.mpr h, ⟨rangesOver_ranks _, ranges_iff.mpr h⟩, notIn_iff.mpr h⟩⟩

/-- A site that is added without a rank has none. -/
theorem default_not_applied :
    ¬DefaultApplies .text (addAll .text [(false, [{}])] .empty) (keepAll [(false, [{}])] .empty) := by
  intro h
  have hmap : addAll .text [(false, [{}])] .empty =
      (keepAll [(false, [{}])] .empty).map (WebSiteDBModel.table .text).row := addAll_map .text _ .empty
  rw [hmap] at h
  exact notNull_iff.mp h.notNull (1, {}) (List.mem_singleton.mpr rfl) rfl

/-- Where every site is added with a rank, no other site is kept. -/
theorem keepAll_ranked {calls : List (Bool × List WebSiteDBModel)}
    (h : ∀ call ∈ calls, ∀ site ∈ call.2, site.alexa ≠ none) :
    ∀ e ∈ (keepAll calls .empty).entries, e.2.alexa ≠ none := by
  have hfrom : ∀ K : RowIdTable WebSiteDBModel, (∀ e ∈ K.entries, e.2.alexa ≠ none) →
      ∀ e ∈ (keepAll calls K).entries, e.2.alexa ≠ none := by
    induction calls with
    | nil => exact fun K hK => hK
    | cons call calls ih =>
      intro K hK
      refine ih (fun call' hcall' => h call' (List.mem_cons_of_mem call hcall')) _ ?_
      exact WCDB.forall_report_insertOrReplaceRows (P := fun site : WebSiteDBModel => site.alexa ≠ none)
        (h call List.mem_cons_self) hK
  exact hfrom .empty fun e he => absurd he List.not_mem_nil

end Default

end WebSiteDBWorker

end StudyDB
