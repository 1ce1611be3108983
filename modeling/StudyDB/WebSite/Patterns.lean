import StudyDB.KeywordSearch
import StudyDB.Sqlite.Pattern

/-! The search for web sites by a LIKE pattern that the caller writes. Proved: for which
patterns it finds, in every table, the sites whose name is like the pattern. -/

namespace StudyDB

namespace WebSiteDBWorker
variable (coder : JsonCoder)

/-- `getWebsitesNameLike(likeExp:)`. -/
def getWebsitesNameLike (fault : Bool) (likeExp : String) (T : WebSites) : List WebSiteDBModel :=
  ((WebSiteDBModel.table coder).select (some "identifier") fault (some (WCDB.like "name" likeExp)) id none none
    T.rows).getD []

/-- A row with a name, and not a BLOB, that is like the pattern. -/
def NameLike (likeExp : String) (r : Sqlite.Row SQLValue) : Prop :=
  (r "name").isBlob = false ∧ ∃ t ∈ (r "name").columnText, Sqlite.Like (cString likeExp).toList t.toList

/-- On a row an exact pattern is true where the name is like it. -/
theorem passes_nameLike {likeExp : String} (h : Sqlite.Exact (cString likeExp)) (r : Sqlite.Row SQLValue)
    [Decidable (NameLike likeExp r)] :
    Sqlite.passes r (Sqlite.scanOrder (some "identifier") ((some (WCDB.like "name" likeExp)).elim [] Sqlite.Expr.conjuncts)) =
      some (decide (NameLike likeExp r)) := by
  rw [WCDB.like, WCDB.passes_like, Sqlite.likeFunc]
  split_ifs with hblob
  · simp [NameLike, hblob]
  cases ht : (r "name").columnText with
  | none =>
    rw [Sqlite.likeText, if_neg (Nat.not_lt.mpr h.length)]
    simp [NameLike, ht]
  | some t =>
    have hiff := h.likeText_iff (cString_eq_self_iff.mp (WCDB.cString_columnText ht))
    rw [cString_cString] at hiff
    obtain ⟨truth, htruth⟩ : ∃ truth, Sqlite.likeText (cString likeExp) (some t) = some truth := by
      rw [Sqlite.likeText, if_neg (Nat.not_lt.mpr h.length)]
      exact ⟨_, rfl⟩
    rw [htruth, Option.some.injEq] at hiff
    rw [htruth, Option.map_some, Option.some.injEq, decide_eq_decide, hiff]
    simp [NameLike, ht, hblob]

/-- The one site of a table is found if LIKE is true of its name. -/
theorem length_getWebsitesNameLike_single (likeExp : String) {t : String} (ht : NulFree t) :
    (getWebsitesNameLike coder false likeExp (.single 1 (textRow "name" t))).length =
      if Sqlite.likeText (cString likeExp) (some t) = some (some true) then 1 else 0 := by
  have hname : WebSites.entryRow (1, textRow "name" t) "name" = .text t := by
    rw [WebSites.entryRow_of_ne _ (by decide)]
    exact textRow_self "name" t
  have hdecode : ∀ r, (WebSiteDBModel.table coder).decode r = some (WebSiteDBModel.ofRow coder r) := fun _ => rfl
  rw [getWebsitesNameLike, WCDB.TableCodable.select, if_neg Bool.false_ne_true, WebSites.rows_single, WCDB.like,
    WCDB.whereRows_like_singleton, hname, Sqlite.likeFunc_text, cString_eq_self_iff.mpr ht]
  cases Sqlite.likeText (cString likeExp) (some t) with
  | none => rfl
  | some truth =>
    rw [Option.map_some, Option.bind_some, WCDB.limited, WCDB.mapM_decode hdecode, Option.getD_some, List.length_map]
    by_cases htrue : truth = some true <;> simp [htrue]

end WebSiteDBWorker

end StudyDB
