import StudyDB.Sqlite.Contains
import StudyDB.Sqlite.Query
import StudyDB.WCDB.Table

/-! WCDB's call of `getObjects` with a condition, an order, a limit and an offset.
Proved: a condition that is one LIKE with a word between wildcards selects the rows
that contain the word, for every table, exactly if the word is plain. -/

namespace StudyDB.WCDB

open Sqlite (Expr Contains Plain containsPattern)

/-- `like(_:)`, whose operand becomes a literal of the statement. -/
def like (column operand : String) : Expr := .like column (cString operand)

/-- An offset counts only together with a limit. -/
def limited {ρ : Type} (limit offset : Option Int64) (rows : List ρ) : List ρ :=
  match limit with
  | some limit => Sqlite.limitRows limit.toInt ((offset.map Int64.toInt).getD 0) rows
  | none => rows

/-- `getObjects(on:fromTable:where:orderBy:limit:offset:)` on all properties, from a
table with the given integer primary key, if it has one. -/
def TableCodable.select {α : Type} (T : TableCodable α) (key : Option String) (fault : Bool) (condition : Option Expr)
    (orderBy : List (Sqlite.Row SQLValue) → List (Sqlite.Row SQLValue)) (limit offset : Option Int64)
    (rows : List (Sqlite.Row SQLValue)) : Option (List α) :=
  if fault then none
  else (Sqlite.whereRows key condition rows).bind fun found => (limited limit offset (orderBy found)).mapM T.decode

/-! ### Searching for a word -/

/-- A column has a text, and not a BLOB, that contains a word. -/
def ColumnContains (column w : String) (r : Sqlite.Row SQLValue) : Prop :=
  (r column).isBlob = false ∧ ∃ t ∈ (r column).columnText, Contains w t

instance (column w : String) (r : Sqlite.Row SQLValue) : Decidable (ColumnContains column w r) :=
  inferInstanceAs (Decidable (_ ∧ ∃ t ∈ (r column).columnText, Contains w t))

/-- One LIKE selects the rows for which it is true. -/
theorem passes_like (key : Option String) (column pattern : String) (r : Sqlite.Row SQLValue) :
    Sqlite.passes r (Sqlite.scanOrder key ((some (Expr.like column pattern)).elim [] Expr.conjuncts)) =
      (Sqlite.likeFunc pattern (r column)).map fun truth => decide (truth = some true) := by
  have hterms : Sqlite.scanOrder key ((some (Expr.like column pattern)).elim [] Expr.conjuncts) =
      [Expr.like column pattern] := rfl
  rw [hterms, Sqlite.passes, Expr.eval]
  cases h : Sqlite.likeFunc pattern (r column) with
  | none => rfl
  | some truth => by_cases ht : truth = some true <;> simp [ht, Sqlite.passes]

/-- What is read of a column is a C string. -/
theorem cString_columnText {v : SQLValue} {t : String} (h : v.columnText = some t) : cString t = t := by
  cases v with
  | null => cases h
  | integer n =>
    obtain rfl := Option.some.inj h
    rw [cString_eq_self_iff, NulFree, String.toList_ofList, Decimal.print]
    intro hmem
    have hdigit : '\x00' ∈ Nat.toDigits 10 n.toInt.natAbs := by
      split_ifs at hmem
      · simpa using hmem
      · exact hmem
    exact absurd (Decimal.toDigits_isDigit _ _ hdigit) (by decide)
  | text s =>
    obtain rfl := Option.some.inj h
    exact cString_cString s
  | blob d =>
    obtain rfl := Option.some.inj h
    exact cString_cString _

/-- A plain word selects the rows that contain it. -/
theorem whereRows_contains {w : String} (h : Plain w) (hw : w ≠ "") (key : Option String) (column : String)
    (rows : List (Sqlite.Row SQLValue)) :
    Sqlite.whereRows key (some (like column ("%" ++ w ++ "%"))) rows = some (rows.filter (ColumnContains column w)) := by
  refine Sqlite.filterRows_eq fun r _ => ?_
  rw [like, passes_like, ← containsPattern, Sqlite.likeFunc]
  split_ifs with hblob
  · simp [ColumnContains, hblob]
  cases ht : (r column).columnText with
  | none =>
    have hlen : ¬Sqlite.maxPatternLength < (containsPattern w).utf8ByteSize := by
      rw [Sqlite.utf8ByteSize_containsPattern (Sqlite.nulFree_of_literal h.literal)]
      exact Nat.not_lt.mpr h.length
    rw [Sqlite.likeText, if_neg hlen]
    simp [ColumnContains, ht]
  | some t =>
    rw [Sqlite.likeText_containsPattern h hw, cString_columnText ht]
    simp [ColumnContains, ht, hblob]

/-- From a table of one row a LIKE selects the row or none. -/
theorem whereRows_like_singleton (key : Option String) (column pattern : String) (r : Sqlite.Row SQLValue) :
    Sqlite.whereRows key (some (Expr.like column pattern)) [r] =
      (Sqlite.likeFunc pattern (r column)).map fun truth => if truth = some true then [r] else [] := by
  rw [Sqlite.whereRows, Sqlite.filterRows, Sqlite.filterRows, passes_like]
  cases Sqlite.likeFunc pattern (r column) with
  | none => rfl
  | some truth => simp

section Search
variable {α : Type} {T : TableCodable α} {f : Sqlite.Row SQLValue → α}
  {orderBy : List (Sqlite.Row SQLValue) → List (Sqlite.Row SQLValue)}

theorem mapM_decode (hT : ∀ r, T.decode r = some (f r)) (rows : List (Sqlite.Row SQLValue)) :
    rows.mapM T.decode = some (rows.map f) := by
  simpa using mapM_map_eq_some (f := id) hT rows

/-- A plain word is searched for in every table. -/
theorem select_contains (hT : ∀ r, T.decode r = some (f r)) {w : String} (h : Plain w) (hw : w ≠ "")
    (key : Option String) (column : String) (rows : List (Sqlite.Row SQLValue)) :
    T.select key false (some (like column ("%" ++ w ++ "%"))) orderBy none none rows =
      some ((orderBy (rows.filter (ColumnContains column w))).map f) := by
  rw [TableCodable.select, if_neg Bool.false_ne_true, whereRows_contains h hw, Option.bind_some, limited,
    mapM_decode hT]

/-- A word that is not plain fails on some table of one row. -/
theorem exists_select_ne (hT : ∀ r, T.decode r = some (f r)) (horder : ∀ rows, (orderBy rows).Perm rows) {w : String}
    (h : ¬Plain w) (key : Option String) (column : String) :
    ∃ t, NulFree t ∧ ∀ r : Sqlite.Row SQLValue, r column = .text t → ∀ list,
      T.select key false (some (like column ("%" ++ w ++ "%"))) orderBy none none [r] = some list →
      list.length ≠ ([r].filter (ColumnContains column w)).length := by
  obtain ⟨t, ht, hne⟩ := Sqlite.exists_likeText_ne h
  refine ⟨t, ht, fun r hr list hlist hlen => hne ?_⟩
  have htext : (r column).columnText = some t := by
    rw [hr, SQLValue.columnText, cString_eq_self_iff.mpr ht]
  have hblob : (r column).isBlob = false := congrArg SQLValue.isBlob hr
  rw [TableCodable.select, if_neg Bool.false_ne_true, like, whereRows_like_singleton, hr, Sqlite.likeFunc_text,
    cString_eq_self_iff.mpr ht, ← containsPattern] at hlist
  obtain ⟨truth, hlike⟩ : ∃ truth, Sqlite.likeText (containsPattern w) (some t) = some truth := by
    cases hl : Sqlite.likeText (containsPattern w) (some t) with
    | none => simp [hl] at hlist
    | some truth => exact ⟨truth, rfl⟩
  obtain ⟨b, rfl⟩ := Sqlite.likeText_some hlike
  rw [hlike, Option.map_some, Option.bind_some, limited, mapM_decode hT, Option.some.injEq] at hlist
  subst hlist
  rw [List.length_map, (horder _).length_eq] at hlen
  have hmem : ColumnContains column w r ↔ Contains w t := by simp [ColumnContains, htext, hblob]
  rw [hlike, Option.some.injEq, Option.some.injEq, Bool.eq_iff_iff, decide_eq_true_iff, ← hmem]
  by_cases hb : b = true <;> by_cases hc : ColumnContains column w r <;> simp_all

end Search

end StudyDB.WCDB
