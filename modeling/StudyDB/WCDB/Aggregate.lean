import StudyDB.Sqlite.Aggregate
import StudyDB.WCDB.Value

/-! WCDB's `getValue` of an aggregate function, read as an `Int`. Proved: the exact sum and
the rounded sum of a column are read as the same number exactly if no partial sum
overflows and the rounded sum ends at the exact one, as it does where every number and
every partial sum has 53 bits. -/

namespace StudyDB.WCDB

open Sqlite (Result SumsFit integers sumCtx sumFinalize totalFinalize)
open Rounding (Representable)

/-- `intValue` of what a function returned; `none` is the trap of `Int(_: Double)`. -/
def intValue : Result → Option Int64
  | .value v => some (Value.scan v).intValue
  | .real x => x.int?

/-- `getValue(on:fromTable:)` and its `intValue`. The outer `none` is a trap, the inner one
a failure, of the call or of the function. -/
def getInt (fault : Bool) (result : Option Result) : Option (Option Int64) :=
  if fault then some none
  else match result with
    | some result => (intValue result).map some
    | none => some none

variable {column : List (Option Int64)}

/-- The exact sum is read as it is, and is 0 without numbers. -/
theorem getInt_sumFinalize (h : SumsFit (integers column)) :
    ∃ n : Int64, getInt false (sumFinalize (sumCtx column)) = some (some n) ∧ n.toInt = (integers column).sum := by
  obtain ⟨v, hsum, ⟨rfl, hnil⟩ | ⟨n, rfl, hn⟩⟩ := Sqlite.sumFinalize_eq h
  · exact ⟨0, by rw [hsum]; rfl, by rw [hnil]; rfl⟩
  · exact ⟨n, by rw [hsum]; rfl, hn⟩

theorem getInt_sumFinalize_eq_none (h : ¬SumsFit (integers column)) :
    getInt false (sumFinalize (sumCtx column)) = some none := by
  rw [Sqlite.sumFinalize_eq_none h]
  rfl

/-- The rounded sum traps if it is no `Int`. -/
theorem getInt_totalFinalize (h : column.length < 2 ^ 63) :
    getInt false (some (totalFinalize (sumCtx column))) =
      (int64? (Rounding.sumFrom 53 0 (integers column))).map some := by
  obtain ⟨fits, htotal⟩ := Sqlite.totalFinalize_eq h
  rw [htotal]
  show (int64? (Double.truncate _)).map some = _
  rw [Double.truncate_ofInt]

/-- The two sums are read as the same, and neither traps. -/
def SumsAgree (column : List (Option Int64)) : Prop :=
  ∃ r, getInt false (some (totalFinalize (sumCtx column))) = some r ∧
    getInt false (sumFinalize (sumCtx column)) = some r

theorem sumsAgree_iff (h : column.length < 2 ^ 63) :
    SumsAgree column ↔ SumsFit (integers column) ∧ Rounding.sumFrom 53 0 (integers column) = (integers column).sum := by
  rw [SumsAgree, getInt_totalFinalize h]
  by_cases hfit : SumsFit (integers column)
  · obtain ⟨n, hsum, hn⟩ := getInt_sumFinalize hfit
    rw [hsum, and_iff_right hfit]
    constructor
    · rintro ⟨r, htotal, hr⟩
      obtain rfl := Option.some.inj hr
      obtain ⟨m, hm, hmn⟩ := Option.map_eq_some_iff.mp htotal
      obtain rfl := Option.some.inj hmn
      exact (toInt_of_int64? hm).symm.trans hn
    · intro hexact
      refine ⟨some n, ?_, rfl⟩
      rw [hexact, ← hn, int64?_toInt]
      rfl
  · rw [getInt_sumFinalize_eq_none hfit]
    refine iff_of_false ?_ fun hboth => hfit hboth.1
    rintro ⟨r, htotal, hr⟩
    obtain rfl := Option.some.inj hr
    obtain ⟨m, _, hm⟩ := Option.map_eq_some_iff.mp htotal
    cases hm

theorem sumsAgree_of_representable (h : column.length < 2 ^ 63) (hfit : SumsFit (integers column))
    (hns : ∀ n ∈ integers column, Representable 53 n)
    (hsums : ∀ pre, pre <+: integers column → Representable 53 pre.sum) : SumsAgree column := by
  refine (sumsAgree_iff h).mpr ⟨hfit, ?_⟩
  rw [Rounding.sumFrom_of_representable hns fun pre hpre => by simpa using hsums pre hpre, Int.zero_add]

end StudyDB.WCDB
