import Mathlib.Data.List.TakeDrop
import StudyDB.WebSite.Worker

/-! Pages of web sites. Proved: the pages of a search give what it returns unpaged, and
exactly when the pages of the table, whose size is fixed in the code, give the table. -/

namespace StudyDB

open Sqlite (Sorter page pageCount)

namespace WebSiteDBWorker

variable {coder : JsonCoder} {sorter : Sorter orderKey} {f : Filters} {T : WebSites}

/-! ### Pages of a search -/

/-- A search that selects rows sorts them, cuts out the page, and decodes it. -/
theorem searchWebsites_eq_map (pageSize pageNum offset : Option Int64) (hoffset : offset? pageSize pageNum = some offset) :
    searchWebsites coder sorter false f pageSize pageNum T =
      some ((Sqlite.whereRows (some "identifier") (conditions f.exps) T.rows).map fun found =>
        (WCDB.limited pageSize offset (sorter.sort found)).map (WebSiteDBModel.ofRow coder)) := by
  rw [searchWebsites, hoffset, Option.bind_eq_bind, Option.bind_some, WCDB.TableCodable.select,
    if_neg Bool.false_ne_true]
  simp only [WCDB.mapM_decode (T := WebSiteDBModel.table coder) fun _ => rfl]
  rw [Option.map_eq_bind]
  rfl

/-- What an unpaged search returns, and how a page is cut out of it. -/
theorem exists_sorted {pageNum : Option Int64} {list : List WebSiteDBModel}
    (h : searchWebsites coder sorter false f none pageNum T = some (some list)) :
    list.length < 2 ^ 63 ∧ ∀ pageSize pageNum offset, offset? pageSize pageNum = some offset →
      searchWebsites coder sorter false f pageSize pageNum T = some (some (WCDB.limited pageSize offset list)) := by
  rw [searchWebsites_eq_map none pageNum none (offset?_none pageNum)] at h
  obtain ⟨found, hfound, hlist⟩ := Option.map_eq_some_iff.mp (Option.some.inj h)
  obtain rfl : (sorter.sort found).map (WebSiteDBModel.ofRow coder) = list := hlist
  refine ⟨?_, fun pageSize pageNum offset hoffset => ?_⟩
  · have hle := Sqlite.length_filterRows_le hfound
    rw [List.length_map, (sorter.perm found).length_eq]
    exact Nat.lt_of_le_of_lt hle T.length_rows_lt
  · rw [searchWebsites_eq_map pageSize pageNum offset hoffset, hfound, Option.map_some]
    cases pageSize with
    | none => rfl
    | some size =>
      simp only [WCDB.limited, Sqlite.limitRows]
      split_ifs <;> simp only [List.map_take, List.map_drop]

theorem toNat_toInt_pos {p : Int64} (hp : 0 < p) : 0 < p.toInt.toNat := by
  have hlt := Int64.lt_iff_toInt_lt.mp hp
  rw [Int64.toInt_zero] at hlt
  omega

/-- The offset of a page that starts with a row; the first page has none. -/
theorem exists_offset {p : Int64} (hp : 0 < p) {k n : ℕ} (hk : k * p.toInt.toNat < n) (hn : n < 2 ^ 63) :
    ∃ offset, offset? (some p) (some (Int64.ofNat k)) = some offset ∧
      (offset.map Int64.toInt).getD 0 = (k * p.toInt.toNat : ℕ) := by
  have hsize := toNat_toInt_pos hp
  rw [offset?]
  cases k with
  | zero => exact ⟨none, if_neg fun h => Int64.lt_irrefl h.1, by simp⟩
  | succ k =>
    have hle : k + 1 ≤ (k + 1) * p.toInt.toNat := Nat.le_mul_of_pos_right _ hsize
    have hkn : (Int64.ofNat (k + 1)).toInt = (k + 1 : ℕ) := Int64.toInt_ofNat_of_lt (by omega)
    have hpos : (0 : Int64) < Int64.ofNat (k + 1) := by
      rw [Int64.lt_iff_toInt_lt, hkn, Int64.toInt_zero]
      omega
    have hprod : (Int64.ofNat (k + 1)).toInt * p.toInt = ((k + 1) * p.toInt.toNat : ℕ) := by
      rw [hkn, Int.natCast_mul, Int.toNat_of_nonneg (by omega)]
    refine ⟨some (Int64.ofInt ((k + 1) * p.toInt.toNat : ℕ)), ?_, ?_⟩
    · rw [if_pos ⟨hpos, hp⟩, hprod, int64?, if_pos (by omega)]
      rfl
    · rw [Option.map_some, Option.getD_some]
      exact Int64.toInt_ofInt_of_le (by omega) (by omega)

theorem limited_eq_page {p : Int64} (hp : 0 < p) {offset : Option Int64} {k : ℕ}
    (h : (offset.map Int64.toInt).getD 0 = (k * p.toInt.toNat : ℕ)) {ρ : Type} (rows : List ρ) :
    WCDB.limited (some p) offset rows = page p.toInt.toNat k rows := by
  have hsize := toNat_toInt_pos hp
  rw [WCDB.limited, Sqlite.limitRows, if_neg (by omega), h, Int.toNat_natCast, page]

/-- The pages of a search, one after the other, are what it returns without a page
size, and all but the last are full; without a page number it returns the first. -/
theorem searchWebsites_pages (coder : JsonCoder) (sorter : Sorter orderKey) (f : Filters) (T : WebSites) {p : Int64}
    (hp : 0 < p) {pageNum : Option Int64} {list : List WebSiteDBModel}
    (h : searchWebsites coder sorter false f none pageNum T = some (some list)) :
    (∃ pages : List (List WebSiteDBModel),
      ((List.range (pageCount p.toInt.toNat list.length)).map fun k =>
          searchWebsites coder sorter false f (some p) (some (Int64.ofNat k)) T) =
        pages.map (fun page => some (some page)) ∧
      pages.flatten = list ∧
      ∀ k page, pages[k]? = some page → k + 1 < pages.length → page.length = p.toInt.toNat) ∧
    searchWebsites coder sorter false f (some p) none T = searchWebsites coder sorter false f (some p) (some 0) T := by
  obtain ⟨hlt, hsearch⟩ := exists_sorted h
  refine ⟨⟨(List.range (pageCount p.toInt.toNat list.length)).map fun k => page p.toInt.toNat k list, ?_,
    Sqlite.flatten_all_pages (toNat_toInt_pos hp) list, fun k found hk hlast => ?_⟩, rfl⟩
  · rw [List.map_map]
    refine List.map_congr_left fun k hk => ?_
    obtain ⟨offset, hoffset, heq⟩ := exists_offset hp (Sqlite.mul_lt_of_lt_pageCount (List.mem_range.mp hk)) hlt
    rw [hsearch _ _ offset hoffset, limited_eq_page hp heq]
    rfl
  · rw [List.length_map, List.length_range] at hlast
    rw [List.getElem?_map, List.getElem?_range (by omega), Option.map_some, Option.some.injEq] at hk
    rw [← hk]
    exact Sqlite.length_page hlast

/-- A search without filters returns all rows. -/
theorem searchWebsites_all (coder : JsonCoder) (sorter : Sorter orderKey) (T : WebSites) (pageNum : Option Int64) :
    searchWebsites coder sorter false {} none pageNum T =
      some (some ((sorter.sort T.rows).map (WebSiteDBModel.ofRow coder))) := by
  have hwhere : Sqlite.whereRows (some "identifier") (conditions ({} : Filters).exps) T.rows = some T.rows :=
    Sqlite.whereRows_none (some "identifier") T.rows
  rw [searchWebsites_eq_map none pageNum none (offset?_none pageNum), hwhere]
  rfl

/-- A table of two sites. -/
def twoSites : WebSites :=
  ⟨[(1, fun _ => .null), (2, fun _ => .null)], by decide, by decide⟩

/-- Two pages of one site each. -/
theorem searchWebsites_pages_two :
    let search := searchWebsites .text (Sorter.stable orderKey) false {}
    ∃ list, search none none twoSites = some (some list) ∧ pageCount (1 : Int64).toInt.toNat list.length = 2 ∧
      (∃ pages : List (List WebSiteDBModel),
        ((List.range (pageCount (1 : Int64).toInt.toNat list.length)).map fun k =>
            search (some 1) (some (Int64.ofNat k)) twoSites) = pages.map (fun page => some (some page)) ∧
        pages.flatten = list ∧
        ∀ k page, pages[k]? = some page → k + 1 < pages.length → page.length = (1 : Int64).toInt.toNat) ∧
      search (some 1) none twoSites = search (some 1) (some 0) twoSites := by
  intro search
  have h := searchWebsites_all .text (Sorter.stable orderKey) twoSites none
  refine ⟨_, h, ?_, searchWebsites_pages .text (Sorter.stable orderKey) {} twoSites (by decide) h⟩
  rw [List.length_map, ((Sorter.stable orderKey).perm twoSites.rows).length_eq]
  rfl

/-! ### Pages of the table -/

theorem getWebSites_eq (coder : JsonCoder) (offset : Int64) (limit : Option Int64) (T : WebSites) :
    getWebSites coder false offset limit T =
      ((T.rows.map (WebSiteDBModel.ofRow coder)).drop offset.toInt.toNat).take 10 := by
  have hlimit : WCDB.limited (some 10) (some offset) T.rows = (T.rows.drop offset.toInt.toNat).take 10 := rfl
  rw [getWebSites, WCDB.TableCodable.select, if_neg Bool.false_ne_true, Sqlite.whereRows_none, Option.bind_some, id,
    hlimit, WCDB.mapM_decode fun _ => rfl, Option.getD_some, List.map_take, List.map_drop]

/-- The call with an offset and a limit gives pages of the table, which give the table
one after the other, exactly if the limit is 10 or all rows are on one page of at most
10; the call with an offset only gives the rest of the table exactly if that is at most
10 rows. -/
theorem getWebSites_pages_iff (coder : JsonCoder) (T : WebSites) {L : Int64} (hL : 0 < L) (o : Int64) :
    let all := T.rows.map (WebSiteDBModel.ofRow coder)
    let call := fun k => getWebSites coder false (Int64.ofNat (k * L.toInt.toNat)) (some L) T
    ((((List.range (pageCount L.toInt.toNat all.length)).map call).flatten = all ∧
        ∀ k < pageCount L.toInt.toNat all.length, (call k).length ≤ L.toInt.toNat) ↔
      L = 10 ∨ all.length ≤ L.toInt.toNat ∧ all.length ≤ 10) ∧
    (getWebSites coder false o none T = all.drop o.toInt.toNat ↔ all.length ≤ o.toInt.toNat + 10) := by
  intro all call
  have hlt : all.length < 2 ^ 63 := by
    rw [List.length_map]
    exact T.length_rows_lt
  refine ⟨?_, ?_⟩
  · have hcall : ∀ k < pageCount L.toInt.toNat all.length, call k = Sqlite.cutPage L.toInt.toNat 10 k all := by
      intro k hk
      have hoffset := Int64.toInt_ofNat_of_lt (Nat.lt_trans (Sqlite.mul_lt_of_lt_pageCount hk) hlt)
      rw [Sqlite.cutPage, ← Int.toNat_natCast (k * L.toInt.toNat), ← hoffset]
      exact getWebSites_eq coder _ (some L) T
    have hlimit : L = 10 ↔ L.toInt.toNat = 10 := by
      have hpos := toNat_toInt_pos hL
      have hten : (10 : Int64).toInt = 10 := rfl
      rw [← Int64.toInt_inj, hten]
      omega
    rw [hlimit, ← Sqlite.flatten_cutPages_iff (toNat_toInt_pos hL) all]
    refine and_congr ?_ (forall₂_congr fun k hk => by rw [hcall k hk])
    rw [List.map_congr_left fun k hk => hcall k (List.mem_range.mp hk)]
  · have hrest : (all.drop o.toInt.toNat).length = all.length - o.toInt.toNat := List.length_drop
    rw [getWebSites_eq, List.take_eq_self_iff, hrest]
    omega

/-- A table of eleven sites. -/
def elevenSites : WebSites :=
  ⟨(List.range 11).map fun k => (Int64.ofNat (k + 1), fun _ => .null), by decide, by decide⟩

/-- Eleven sites are two pages of 10, and one page less the first site. -/
theorem getWebSites_pages_iff_eleven :
    let all := elevenSites.rows.map (WebSiteDBModel.ofRow .text)
    let call := fun k => getWebSites .text false (Int64.ofNat (k * (10 : Int64).toInt.toNat)) (some 10) elevenSites
    pageCount (10 : Int64).toInt.toNat all.length = 2 ∧
    ((((List.range (pageCount (10 : Int64).toInt.toNat all.length)).map call).flatten = all ∧
        ∀ k < pageCount (10 : Int64).toInt.toNat all.length, (call k).length ≤ (10 : Int64).toInt.toNat) ↔
      (10 : Int64) = 10 ∨ all.length ≤ (10 : Int64).toInt.toNat ∧ all.length ≤ 10) ∧
    (getWebSites .text false 1 none elevenSites = all.drop (1 : Int64).toInt.toNat ↔
      all.length ≤ (1 : Int64).toInt.toNat + 10) :=
  ⟨by decide, getWebSites_pages_iff .text elevenSites (by decide) 1⟩

/-- With a limit of 1, the first of two pages has both sites. -/
theorem first_page_of_one_has_two :
    let all := twoSites.rows.map (WebSiteDBModel.ofRow .text)
    let call := fun k => getWebSites .text false (Int64.ofNat (k * (1 : Int64).toInt.toNat)) (some 1) twoSites
    ¬(((List.range (pageCount (1 : Int64).toInt.toNat all.length)).map call).flatten = all ∧
      ∀ k < pageCount (1 : Int64).toInt.toNat all.length, (call k).length ≤ (1 : Int64).toInt.toNat) := by
  intro all call ⟨_, hlength⟩
  have hfirst : call 0 = all := getWebSites_eq .text _ (some 1) twoSites
  have hle := hlength 0 (by decide)
  rw [hfirst] at hle
  exact absurd hle (by decide)

end WebSiteDBWorker

end StudyDB
