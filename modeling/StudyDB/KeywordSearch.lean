import StudyDB.Member.Worker
import StudyDB.Ship.Worker
import StudyDB.WebSite.Worker

/-! The searches for a keyword, each of which puts it between two wildcards of a LIKE
pattern. Proved: for which keywords they find, in every table, the rows that contain
the keyword. -/

namespace StudyDB

open Sqlite (Sorter Plain containsPattern)
open WCDB (TableCodable ColumnContains)

/-- A row with a text in one column. -/
def textRow (column t : String) : Sqlite.Row SQLValue := fun c => if c = column then .text t else .null

theorem textRow_self (column t : String) : textRow column t column = .text t := if_pos rfl

/-! ### Searches that keep the order of the table -/

section Select
variable {α β : Type} {T : TableCodable α} {ofRow : Sqlite.Row SQLValue → α}

/-- A search with converted results finds the rows that contain the keyword, in every
table, exactly if the keyword is plain. -/
theorem select_contains_iff (hT : ∀ r, T.decode r = some (ofRow r)) (g : α → β) (column : String) {w : String}
    (hw : w ≠ "") :
    (∀ rows, (T.select none false (some (WCDB.like column ("%" ++ w ++ "%"))) id none none rows).map
        (fun list => list.map g) = some ((rows.filter (ColumnContains column w)).map fun r => g (ofRow r))) ↔
      Plain w := by
  constructor
  · intro h
    by_contra hplain
    obtain ⟨t, _, hne⟩ := WCDB.exists_select_ne hT (fun rows => .refl rows) hplain none column
    obtain ⟨list, hlist, hmap⟩ := Option.map_eq_some_iff.mp (h [textRow column t])
    refine hne (textRow column t) (textRow_self column t) list hlist ?_
    simpa using congrArg List.length hmap
  · intro hplain rows
    rw [WCDB.select_contains hT hplain hw, Option.map_some, List.map_map]
    rfl

end Select

/-! ### The search for web sites -/

namespace WebSiteDBWorker

variable {coder : JsonCoder} {sorter : Sorter orderKey} {w : String}

theorem searchWebsites_keywords (hw : w ≠ "") (T : WebSites) :
    searchWebsites coder sorter false { keywords := some w } none none T =
      some ((WebSiteDBModel.table coder).select (some "identifier") false
        (some (WCDB.like "name" ("%" ++ w ++ "%"))) sorter.sort none none T.rows) := by
  have hwords : ({ keywords := some w } : Filters).words = some w := by simp [Filters.words, hw]
  have hconditions : conditions ({ keywords := some w } : Filters).exps = some (WCDB.like "name" ("%" ++ w ++ "%")) := by
    rw [Filters.exps, Filters.keywordExps, hwords]
    rfl
  rw [searchWebsites, offset?_none, hconditions]
  rfl

theorem searchWebsites_contains_iff (hw : w ≠ "") :
    (∀ T, ∃ list, searchWebsites coder sorter false { keywords := some w } none none T = some (some list) ∧
        list.Perm ((T.rows.filter (ColumnContains "name" w)).map (WebSiteDBModel.ofRow coder))) ↔ Plain w := by
  constructor
  · intro h
    by_contra hplain
    obtain ⟨t, _, hne⟩ := WCDB.exists_select_ne (T := WebSiteDBModel.table coder) (fun _ => rfl) sorter.perm hplain
      (some "identifier") "name"
    obtain ⟨list, hlist, hperm⟩ := h (.single 1 (textRow "name" t))
    rw [searchWebsites_keywords hw, Option.some.injEq] at hlist
    refine hne _ ?_ list hlist ?_
    · rw [WebSites.entryRow_of_ne _ (by decide)]
      exact textRow_self "name" t
    · simpa using hperm.length_eq
  · intro hplain T
    refine ⟨_, ?_, (sorter.perm _).map _⟩
    rw [searchWebsites_keywords hw, WCDB.select_contains (fun _ => rfl) hplain hw]

end WebSiteDBWorker

/-! ### All searches -/

/-- Each of the searches finds the rows that contain the keyword, in every table,
exactly if the keyword is plain. -/
theorem keyword_search_iff (coder : JsonCoder) (doubleCoder : DoubleCoder) (sorter : Sorter WebSiteDBWorker.orderKey)
    {w : String} (hw : w ≠ "") :
    ((∀ rows, MemberDBWorker.searchMember coder false w rows =
        some ((rows.filter (ColumnContains "remarkName" w)).map fun r => (GroupMemberDBModel.ofRow coder r).bizModel)) ↔
      Plain w) ∧
    ((∀ rows, ShipDBWorker.searchModel2 doubleCoder false w rows =
        some ((rows.filter (ColumnContains "enginBrand" w)).map fun r => (ShipDBModel2.ofRow doubleCoder r).bizModel)) ↔
      Plain w) ∧
    ((∀ T, ∃ list,
        WebSiteDBWorker.searchWebsites coder sorter false { keywords := some w } none none T = some (some list) ∧
        list.Perm ((T.rows.filter (ColumnContains "name" w)).map (WebSiteDBModel.ofRow coder))) ↔
      Plain w) :=
  ⟨select_contains_iff (fun _ => rfl) GroupMemberDBModel.bizModel "remarkName" hw,
    select_contains_iff (fun _ => rfl) ShipDBModel2.bizModel "enginBrand" hw,
    WebSiteDBWorker.searchWebsites_contains_iff hw⟩

/-- The keyword "a" is found wherever it stands. -/
theorem keyword_search_iff_a :
    ((∀ rows, MemberDBWorker.searchMember .text false "a" rows =
        some ((rows.filter (ColumnContains "remarkName" "a")).map fun r =>
          (GroupMemberDBModel.ofRow .text r).bizModel)) ↔ Plain "a") ∧
    ((∀ rows, ShipDBWorker.searchModel2 .text false "a" rows =
        some ((rows.filter (ColumnContains "enginBrand" "a")).map fun r => (ShipDBModel2.ofRow .text r).bizModel)) ↔
      Plain "a") ∧
    ((∀ T, ∃ list,
        WebSiteDBWorker.searchWebsites .text (Sorter.stable _) false { keywords := some "a" } none none T =
          some (some list) ∧
        list.Perm ((T.rows.filter (ColumnContains "name" "a")).map (WebSiteDBModel.ofRow .text))) ↔ Plain "a") :=
  keyword_search_iff .text .text (Sorter.stable _) (by decide)

/-- The keyword "%" finds a member whose remark name is empty. -/
theorem percent_finds_empty_name :
    let rows := [textRow "remarkName" ""]
    MemberDBWorker.searchMember .text false "%" rows ≠
      some ((rows.filter (ColumnContains "remarkName" "%")).map fun r => (GroupMemberDBModel.ofRow .text r).bizModel) := by
  intro rows h
  have hfree : NulFree "%" := by simp [NulFree]
  have hlen : ¬Sqlite.maxPatternLength < (containsPattern "%").utf8ByteSize := by
    rw [Sqlite.utf8ByteSize_containsPattern hfree]
    decide
  have hmatch := (Sqlite.Fits.all (.all .nil)).isMatch.2
  have hlike : Sqlite.likeText (containsPattern "%") (some "") = some (some true) :=
    Sqlite.likeText_of_isMatch (Sqlite.toList_cString_containsPattern hfree) hlen List.not_mem_nil hmatch
  have hselect : Sqlite.whereRows none (some (WCDB.like "remarkName" ("%" ++ "%" ++ "%"))) rows = some rows := by
    rw [WCDB.like, WCDB.whereRows_like_singleton, textRow_self]
    exact congrArg (Option.map _) hlike
  have hcontains : rows.filter (ColumnContains "remarkName" "%") = [] := by decide
  rw [MemberDBWorker.searchMember, TableCodable.select, if_neg Bool.false_ne_true, hselect, hcontains] at h
  exact absurd (congrArg (Option.map List.length) h) (by decide)

end StudyDB
