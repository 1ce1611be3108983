import StudyDB.Foundation.DoubleSum
import StudyDB.Sqlite.Value
import Mathlib.Data.List.Induction

/-! SQLite's SUM, TOTAL, AVG, MIN and MAX over a column of integers and NULLs, in the
order of the scan. SUM keeps an integer and a Double side by side. Proved: SUM is the
exact sum, or an error if a partial sum is no 64-bit integer; TOTAL is the sum that is
rounded at every step, a finite Double. -/

namespace StudyDB.Sqlite

open Rounding (Representable)

/-- What an aggregate function returns. -/
inductive Result where
  | value (v : SQLValue)
  | real (x : Double)

/-! ### The functions -/

structure SumCtx where
  rSum : Double := .zero
  iSum : Int64 := 0
  cnt : ℕ := 0
  overflow : Bool := false
  /-- A number was added that the integer sum does not count. -/
  approx : Bool := false

def sumStep (p : SumCtx) : Option Int64 → SumCtx
  | none => p
  | some v =>
    let p := { p with cnt := p.cnt + 1, rSum := p.rSum.add (.ofInt v.toInt) }
    if p.approx || p.overflow then p
    else match int64? (p.iSum.toInt + v.toInt) with
      | some iSum => { p with iSum }
      | none => { p with approx := true, overflow := true }

/-- The context after the scan of a column. -/
def sumCtx (column : List (Option Int64)) : SumCtx := column.foldl sumStep {}

/-- SUM; `none` is an error. -/
def sumFinalize (p : SumCtx) : Option Result :=
  if 0 < p.cnt then
    if p.overflow then none
    else if p.approx then some (.real p.rSum)
    else some (.value (.integer p.iSum))
  else some (.value .null)

def totalFinalize (p : SumCtx) : Result := .real p.rSum

def avgFinalize (p : SumCtx) : Result :=
  if 0 < p.cnt then .real (p.rSum.divNat p.cnt) else .value .null

/-- MAX or MIN keep a value until a better one comes. -/
def minmaxStep (max : Bool) (best : Option Int64) : Option Int64 → Option Int64
  | none => best
  | some v =>
    match best with
    | some b => if (max && b < v) || (!max && v < b) then some v else some b
    | none => some v

def minmaxFinalize (best : Option Int64) : Result := .value ((best.map .integer).getD .null)

/-! ### What they compute -/

/-- A function that skips NULLs ranges over the other values. -/
theorem foldl_skip {β : Type} {step : β → Option Int64 → β} (h : ∀ b, step b none = b) (column : List (Option Int64))
    (b : β) : column.foldl step b = ((column.filterMap id).map some).foldl step b := by
  induction column generalizing b with
  | nil => rfl
  | cons v column ih =>
    cases v with
    | none => rw [List.foldl_cons, h, ih, List.filterMap_cons_none rfl]
    | some v =>
      rw [List.foldl_cons, ih]
      rfl

/-- The integers of a column, without the NULLs. -/
def integers (column : List (Option Int64)) : List ℤ := column.filterMap fun v => v.map Int64.toInt

/-- Every partial sum is a 64-bit integer. -/
def SumsFit (ns : List ℤ) : Prop := ∀ pre, pre <+: ns → ∃ n : Int64, n.toInt = pre.sum

theorem sumsFit_nil : SumsFit [] := fun pre hpre => by
  rw [List.prefix_nil.mp hpre]
  exact ⟨0, rfl⟩

theorem sumsFit_concat {ns : List ℤ} {n : ℤ} :
    SumsFit (ns ++ [n]) ↔ SumsFit ns ∧ ∃ m : Int64, m.toInt = ns.sum + n := by
  have hsum : (ns ++ [n]).sum = ns.sum + n := by rw [List.sum_append, List.sum_singleton]
  constructor
  · intro h
    refine ⟨fun pre hpre => h pre (hpre.trans (List.prefix_append _ _)), ?_⟩
    rw [← hsum]
    exact h _ (List.prefix_refl _)
  · rintro ⟨hns, hlast⟩ pre hpre
    rcases List.prefix_concat_iff.mp hpre with rfl | hpre
    · rwa [hsum]
    · exact hns pre hpre

theorem integers_concat (column : List (Option Int64)) (v : Option Int64) :
    integers (column ++ [v]) = integers column ++ (v.map Int64.toInt).toList := by
  rw [integers, List.filterMap_append]
  cases v <;> rfl

/-- What the context has of the numbers that were scanned. -/
structure SumCtx.Holds (p : SumCtx) (ns : List ℤ) : Prop where
  bounded : ∀ n ∈ ns, |n| ≤ 2 ^ 63
  cnt : p.cnt = ns.length
  rSum : ns.length < 2 ^ 63 → ∃ fits, p.rSum = .finite (.ofInt (Rounding.sumFrom 53 0 ns)) fits
  overflow : p.overflow = true ↔ ¬SumsFit ns
  approx : p.approx = p.overflow
  iSum : p.overflow = false → p.iSum.toInt = ns.sum

namespace SumCtx.Holds

theorem init : ({} : SumCtx).Holds [] where
  bounded := nofun
  cnt := rfl
  rSum _ := ⟨trivial, rfl⟩
  overflow := iff_of_false Bool.false_ne_true (not_not_intro sumsFit_nil)
  approx := rfl
  iSum _ := rfl

variable {p : SumCtx} {ns : List ℤ}

theorem bounded_concat (h : p.Holds ns) (v : Int64) : ∀ n ∈ ns ++ [v.toInt], |n| ≤ 2 ^ 63 := by
  intro n hn
  rcases List.mem_append.mp hn with hn | hn
  · exact h.bounded n hn
  · have hle := Int64.le_toInt v
    have hlt := Int64.toInt_lt v
    rw [List.mem_singleton.mp hn, abs_le]
    omega

/-- The Double sum after one more integer. -/
theorem rSum_concat (h : p.Holds ns) (v : Int64) (hlength : (ns ++ [v.toInt]).length < 2 ^ 63) :
    ∃ fits, p.rSum.add (.ofInt v.toInt) = .finite (.ofInt (Rounding.sumFrom 53 0 (ns ++ [v.toInt]))) fits := by
  have hlarge : (2 : ℤ) ^ 128 ≤ 2 ^ 1024 := pow_le_pow_right₀ (by decide) (by decide)
  have hbounded := h.bounded_concat v
  have hshort : ns.length < 2 ^ 63 := by
    rw [List.length_append] at hlength
    omega
  obtain ⟨fits, hr⟩ := h.rSum hshort
  have hv : |Rounding.round 53 v.toInt| < 2 ^ 1024 := by
    have hround := Rounding.abs_round_le 53 (by decide) v.toInt
    have hle := hbounded v.toInt (List.mem_append_right _ (List.mem_singleton_self _))
    exact lt_of_lt_of_le (by omega) hlarge
  have hsum : |Rounding.sumFrom 53 0 (ns ++ [v.toInt])| < 2 ^ 1024 := by
    have hle := Rounding.abs_sumFrom_le (by decide) (Rounding.representable_zero 53) hbounded
    rw [abs_zero, Int.zero_add] at hle
    exact lt_of_lt_of_le (by omega) hlarge
  rw [Rounding.sumFrom_concat] at hsum ⊢
  rw [hr, Double.ofInt_eq hv, Double.add_finite_ofInt, Double.ofInt_eq hsum]
  exact ⟨_, rfl⟩

theorem step (h : p.Holds ns) (v : Option Int64) : (sumStep p v).Holds (ns ++ (v.map Int64.toInt).toList) := by
  cases v with
  | none => simpa [sumStep] using h
  | some v =>
    rw [Option.map_some, Option.toList_some]
    have hcnt : p.cnt + 1 = (ns ++ [v.toInt]).length := by rw [h.cnt, List.length_append, List.length_singleton]
    by_cases hover : p.overflow = true
    · have hstep : sumStep p (some v) = { p with cnt := p.cnt + 1, rSum := p.rSum.add (.ofInt v.toInt) } := by
        simp [sumStep, hover]
      rw [hstep]
      have hnot : ¬SumsFit (ns ++ [v.toInt]) := fun hfit => h.overflow.mp hover (sumsFit_concat.mp hfit).1
      refine ⟨h.bounded_concat v, hcnt, h.rSum_concat v, iff_of_true hover hnot, h.approx, fun hfalse => ?_⟩
      exact Bool.noConfusion (hover.symm.trans hfalse)
    · rw [Bool.not_eq_true] at hover
      have hsum := h.iSum hover
      have hfit : SumsFit ns := by
        by_contra hnot
        rw [h.overflow.mpr hnot] at hover
        cases hover
      cases hadd : int64? (p.iSum.toInt + v.toInt) with
      | none =>
        have hstep : sumStep p (some v) = { p with
            cnt := p.cnt + 1, rSum := p.rSum.add (.ofInt v.toInt), approx := true, overflow := true } := by
          simp [sumStep, h.approx, hover, hadd]
        rw [hstep]
        refine ⟨h.bounded_concat v, hcnt, h.rSum_concat v, iff_of_true rfl ?_, rfl, nofun⟩
        rw [sumsFit_concat, not_and]
        rintro _ ⟨m, hm⟩
        rw [hsum, ← hm, int64?_toInt] at hadd
        cases hadd
      | some iSum =>
        have hstep : sumStep p (some v) =
            { p with cnt := p.cnt + 1, rSum := p.rSum.add (.ofInt v.toInt), iSum } := by
          simp [sumStep, h.approx, hover, hadd]
        have hexact : iSum.toInt = ns.sum + v.toInt := by rw [toInt_of_int64? hadd, hsum]
        rw [hstep]
        refine ⟨h.bounded_concat v, hcnt, h.rSum_concat v, iff_of_false (by simp [hover]) ?_, h.approx, fun _ => ?_⟩
        · exact not_not_intro (sumsFit_concat.mpr ⟨hfit, iSum, hexact⟩)
        · rw [List.sum_append, List.sum_singleton]
          exact hexact

end SumCtx.Holds

/-- The context after a scan. -/
theorem holds_sumCtx (column : List (Option Int64)) : (sumCtx column).Holds (integers column) := by
  induction column using List.reverseRecOn with
  | nil => exact .init
  | append_singleton column v ih =>
    rw [sumCtx, List.foldl_append, integers_concat]
    exact ih.step v

/-- A sum whose partial sums do not fit is an error. -/
theorem sumFinalize_eq_none {column : List (Option Int64)} (h : ¬SumsFit (integers column)) :
    sumFinalize (sumCtx column) = none := by
  have hctx := holds_sumCtx column
  have hpos : 0 < (sumCtx column).cnt := by
    rw [hctx.cnt]
    refine List.length_pos_iff.mpr fun hnil => h ?_
    rw [hnil]
    exact sumsFit_nil
  rw [sumFinalize, if_pos hpos, if_pos (hctx.overflow.mpr h)]

/-- Otherwise it is the exact sum, or NULL if there is no number. -/
theorem sumFinalize_eq {column : List (Option Int64)} (h : SumsFit (integers column)) :
    ∃ v, sumFinalize (sumCtx column) = some (.value v) ∧
      (v = .null ∧ integers column = [] ∨ ∃ n, v = .integer n ∧ n.toInt = (integers column).sum) := by
  have hctx := holds_sumCtx column
  have hover : (sumCtx column).overflow = false := by
    rw [Bool.eq_false_iff]
    exact fun htrue => hctx.overflow.mp htrue h
  unfold sumFinalize
  by_cases hpos : 0 < (sumCtx column).cnt
  · rw [if_pos hpos, hctx.approx, hover]
    exact ⟨_, rfl, .inr ⟨_, rfl, hctx.iSum hover⟩⟩
  · rw [if_neg hpos]
    rw [hctx.cnt, List.length_pos_iff, ne_eq, not_not] at hpos
    exact ⟨_, rfl, .inl ⟨rfl, hpos⟩⟩

/-- TOTAL is the sum that is rounded at every step. -/
theorem totalFinalize_eq {column : List (Option Int64)} (h : column.length < 2 ^ 63) :
    ∃ fits, totalFinalize (sumCtx column) =
      .real (.finite (.ofInt (Rounding.sumFrom 53 0 (integers column))) fits) := by
  obtain ⟨fits, hr⟩ := (holds_sumCtx column).rSum (Nat.lt_of_le_of_lt (List.length_filterMap_le _ _) h)
  exact ⟨fits, congrArg Result.real hr⟩

end StudyDB.Sqlite
