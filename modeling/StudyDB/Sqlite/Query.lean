import Mathlib.Data.List.Lex
import Mathlib.Data.Prod.Lex
import StudyDB.Sqlite.Like
import StudyDB.Sqlite.Table

/-! SELECT on one table: conditions in three-valued logic, the order of rows, and
LIMIT with OFFSET. Evaluating a condition can raise an error, which ends the
statement; it is `none` here. Proved: a statement that raises none returns the rows
on which all terms are true, and pages of a result give the result. -/

namespace StudyDB.Sqlite

/-! ### Truth values -/

/-- True, false or NULL. -/
abbrev Truth := Option Bool

namespace Truth

def and : Truth → Truth → Truth
  | some false, _ => some false
  | _, some false => some false
  | some true, some true => some true
  | _, _ => none

def or : Truth → Truth → Truth
  | some true, _ => some true
  | _, some true => some true
  | some false, some false => some false
  | _, _ => none

def not (t : Truth) : Truth := t.map Bool.not

@[simp] theorem and_eq_true_iff (s t : Truth) : s.and t = some true ↔ s = some true ∧ t = some true := by
  rcases s with _ | _ | _ <;> rcases t with _ | _ | _ <;> simp [and]

@[simp] theorem or_eq_true_iff (s t : Truth) : s.or t = some true ↔ s = some true ∨ t = some true := by
  rcases s with _ | _ | _ <;> rcases t with _ | _ | _ <;> simp [or]

@[simp] theorem not_some_eq_true (b : Bool) : Truth.not (some b) = some true ↔ b = false := by
  cases b <;> simp [not]

end Truth

/-! ### Conditions -/

/-- Integers stand before texts, and these before blobs. -/
def atLeast (v : SQLValue) (n : Int64) : Truth :=
  match v with
  | .null => none
  | .integer m => some (decide (n ≤ m))
  | .text _ | .blob _ => some true

def atMost (v : SQLValue) (n : Int64) : Truth :=
  match v with
  | .null => none
  | .integer m => some (decide (m ≤ n))
  | .text _ | .blob _ => some false

/-- `IN` a list of integers. -/
def isIn (v : SQLValue) (ns : List Int64) : Truth :=
  if ns = [] then some false
  else match v with
    | .null => none
    | .integer m => some (decide (m ∈ ns))
    | .text _ | .blob _ => some false

@[simp] theorem atLeast_integer (m n : Int64) : atLeast (.integer m) n = some (decide (n ≤ m)) := rfl

@[simp] theorem atMost_integer (m n : Int64) : atMost (.integer m) n = some (decide (m ≤ n)) := rfl

@[simp] theorem isIn_integer (m : Int64) (ns : List Int64) : isIn (.integer m) ns = some (decide (m ∈ ns)) := by
  rw [isIn]
  split_ifs with h
  · simp [h]
  · rfl

inductive Expr where
  | like (column pattern : String)
  | isIn (column : String) (values : List Int64)
  | notIn (column : String) (values : List Int64)
  | between (column : String) (low high : Int64)
  | and (a b : Expr)
  | or (a b : Expr)
  deriving DecidableEq

namespace Expr

/-- The value on a row; an operand that decides alone keeps the other one from
being evaluated. -/
def eval (r : Row SQLValue) : Expr → Option Truth
  | .like c pattern => likeFunc pattern (r c)
  | .isIn c ns => some (Sqlite.isIn (r c) ns)
  | .notIn c ns => some (Sqlite.isIn (r c) ns).not
  | .between c low high => some ((atLeast (r c) low).and (atMost (r c) high))
  | .and a b => do
    let s ← a.eval r
    if s = some false then some s else some (s.and (← b.eval r))
  | .or a b => do
    let s ← a.eval r
    if s = some true then some s else some (s.or (← b.eval r))

/-- The terms of a conjunction, in their order. -/
def conjuncts : Expr → List Expr
  | .and a b => a.conjuncts ++ b.conjuncts
  | e => [e]

/-- A range of the integer primary key. -/
def isRange (key : Option String) : Expr → Bool
  | .between c _ _ => key = some c
  | _ => false

end Expr

/-! ### Rows -/

/-- The terms are tried one after the other, up to the first that is not true. -/
def passes (r : Row SQLValue) : List Expr → Option Bool
  | [] => some true
  | e :: es => do if (← e.eval r) = some true then passes r es else some false

/-- The rows that are kept, where none raises an error. -/
def filterRows {ρ : Type} (keep : ρ → Option Bool) : List ρ → Option (List ρ)
  | [] => some []
  | r :: rows => do
    let kept ← keep r
    let rest ← filterRows keep rows
    some (if kept then r :: rest else rest)

/-- A range of the primary key bounds the scan itself: outside of it the other
terms are not evaluated. -/
def scanOrder (key : Option String) (terms : List Expr) : List Expr :=
  terms.filter (Expr.isRange key) ++ terms.filter fun e => !e.isRange key

/-- WHERE. -/
def whereRows (key : Option String) (condition : Option Expr) (rows : List (Row SQLValue)) :
    Option (List (Row SQLValue)) :=
  filterRows (fun r => passes r (scanOrder key (condition.elim [] Expr.conjuncts))) rows

/-- Rows that raise no error are filtered. -/
theorem filterRows_eq {ρ : Type} {keep : ρ → Option Bool} {kept : ρ → Bool} {rows : List ρ}
    (h : ∀ r ∈ rows, keep r = some (kept r)) : filterRows keep rows = some (rows.filter kept) := by
  induction rows with
  | nil => rfl
  | cons r rows ih =>
    rw [filterRows, h r List.mem_cons_self, ih fun r' hr' => h r' (List.mem_cons_of_mem r hr')]
    rw [Option.bind_eq_bind, Option.bind_some, Option.bind_eq_bind, Option.bind_some, List.filter_cons]

theorem length_filterRows_le {ρ : Type} {keep : ρ → Option Bool} {rows found : List ρ}
    (h : filterRows keep rows = some found) : found.length ≤ rows.length := by
  induction rows generalizing found with
  | nil =>
    obtain rfl := Option.some.inj h
    exact Nat.le_refl _
  | cons r rows ih =>
    obtain ⟨kept, _, hrest⟩ := Option.bind_eq_some_iff.mp h
    obtain ⟨rest, hrest', hfound⟩ := Option.bind_eq_some_iff.mp hrest
    obtain rfl := Option.some.inj hfound
    have hle := ih hrest'
    split_ifs
    · exact Nat.succ_le_succ hle
    · exact Nat.le_succ_of_le hle

/-- One row that raises an error ends the statement. -/
theorem filterRows_eq_none {ρ : Type} {keep : ρ → Option Bool} {rows : List ρ} {r : ρ} (hr : r ∈ rows)
    (h : keep r = none) : filterRows keep rows = none := by
  induction rows with
  | nil => cases hr
  | cons r' rows ih =>
    rcases List.mem_cons.mp hr with rfl | hr
    · rw [filterRows, h]
      rfl
    · rw [filterRows, ih hr]
      cases keep r' <;> rfl

/-- Without a condition all rows are selected. -/
theorem whereRows_none (key : Option String) (rows : List (Row SQLValue)) : whereRows key none rows = some rows := by
  have hkept : ∀ r ∈ rows, passes r [] = some ((fun _ => true) r) := fun _ _ => rfl
  exact (filterRows_eq hkept).trans (congrArg some (List.filter_eq_self.mpr fun _ _ => rfl))

/-! ### Order -/

/-- Where a value stands: NULL, integers by value, texts and blobs by their bytes. -/
def sortKey : SQLValue → ℕ ×ₗ ℤ ×ₗ List ℕ
  | .null => toLex (0, toLex (0, []))
  | .integer n => toLex (1, toLex (n.toInt, []))
  | .text s => toLex (2, toLex (0, s.toUTF8.toList.map UInt8.toNat))
  | .blob d => toLex (3, toLex (0, d.toList.map UInt8.toNat))

/-- A sorting that is the same function for every query, so that rows with equal
keys come in the same order each time. -/
structure Sorter {α κ : Type*} [LinearOrder κ] (key : α → κ) where
  sort : List α → List α
  perm : ∀ l, (sort l).Perm l
  sorted : ∀ l, (sort l).Pairwise fun a b => key a ≤ key b

/-- The sorting that leaves rows with equal keys as they are. -/
def Sorter.stable {α κ : Type*} [LinearOrder κ] (key : α → κ) : Sorter key where
  sort l := l.mergeSort fun a b => decide (key a ≤ key b)
  perm l := List.mergeSort_perm l _
  sorted l := by
    let le : α → α → Bool := fun a b => decide (key a ≤ key b)
    have htrans : ∀ a b c, le a b = true → le b c = true → le a c = true := fun a b c hab hbc =>
      decide_eq_true (le_trans (of_decide_eq_true hab) (of_decide_eq_true hbc))
    have htotal : ∀ a b, (le a b || le b a) = true := fun a b => by simpa [le] using le_total (key a) (key b)
    exact (List.pairwise_mergeSort htrans htotal l).imp of_decide_eq_true

/-! ### LIMIT and OFFSET -/

/-- A negative limit is none, and a negative offset is zero. -/
def limitRows {ρ : Type*} (limit offset : ℤ) (rows : List ρ) : List ρ :=
  if limit < 0 then rows.drop offset.toNat else (rows.drop offset.toNat).take limit.toNat

/-- The rows of a page. -/
def page {ρ : Type*} (size k : ℕ) (rows : List ρ) : List ρ := (rows.drop (k * size)).take size

/-- The first pages give the first rows. -/
theorem flatten_pages {ρ : Type*} (size m : ℕ) (rows : List ρ) :
    ((List.range m).map fun k => page size k rows).flatten = rows.take (m * size) := by
  induction m with
  | zero => simp
  | succ m ih =>
    rw [List.range_succ, List.map_append, List.flatten_append, ih, List.map_singleton, List.flatten_singleton, page,
      Nat.succ_mul, List.take_add]

/-- How many pages a number of rows fills, the last one perhaps in part. -/
def pageCount (size n : ℕ) : ℕ := (n + size - 1) / size

theorem le_pageCount_mul {size : ℕ} (h : 0 < size) (n : ℕ) : n ≤ pageCount size n * size := by
  have hmod := Nat.div_add_mod (n + size - 1) size
  have hlt := Nat.mod_lt (n + size - 1) h
  rw [pageCount, Nat.mul_comm]
  omega

/-- All pages give all rows. -/
theorem flatten_all_pages {ρ : Type*} {size : ℕ} (h : 0 < size) (rows : List ρ) :
    ((List.range (pageCount size rows.length)).map fun k => page size k rows).flatten = rows := by
  rw [flatten_pages, List.take_of_length_le (le_pageCount_mul h rows.length)]

/-- A page starts with a row. -/
theorem mul_lt_of_lt_pageCount {size n k : ℕ} (h : k < pageCount size n) : k * size < n := by
  have hle : (k + 1) * size ≤ n + size - 1 := (Nat.le_div_iff_mul_le (Nat.pos_of_ne_zero fun h0 => by
    rw [pageCount, h0, Nat.div_zero] at h
    exact Nat.not_lt_zero k h)).mp h
  rw [Nat.succ_mul] at hle
  rcases Nat.eq_zero_or_pos size with rfl | hpos
  · rw [pageCount, Nat.div_zero] at h
    exact absurd h (Nat.not_lt_zero k)
  · omega

/-- Every page but the last is full. -/
theorem length_page {ρ : Type*} {size k : ℕ} {rows : List ρ} (h : k + 1 < pageCount size rows.length) :
    (page size k rows).length = size := by
  have hlt := mul_lt_of_lt_pageCount h
  rw [Nat.succ_mul] at hlt
  rw [page, List.length_take, List.length_drop]
  omega

theorem pageCount_eq_one {size n : ℕ} (h0 : 0 < n) (h : n ≤ size) : pageCount size n = 1 :=
  Nat.div_eq_of_lt_le (by omega) (by omega)

/-! ### Pages that are cut at another size -/

/-- The rows of a page that starts where it should, but whose size is `cut`. -/
def cutPage {ρ : Type*} (size cut k : ℕ) (rows : List ρ) : List ρ := (rows.drop (k * size)).take cut

/-- Pages that are cut short have too few rows, by what the first one lacks. -/
theorem length_flatten_cutPages {ρ : Type*} {size cut : ℕ} (h : cut ≤ size) (m : ℕ) (rows : List ρ) :
    ((List.range (m + 1)).map fun k => cutPage size cut k rows).flatten.length +
      (min size rows.length - min cut rows.length) ≤ min rows.length ((m + 1) * size) := by
  induction m with
  | zero => simp [cutPage]; omega
  | succ m ih =>
    have hmul : (m + 1 + 1) * size = (m + 1) * size + size := Nat.succ_mul _ _
    rw [List.range_succ, List.map_append, List.flatten_append, List.length_append, List.map_singleton,
      List.flatten_singleton, cutPage, List.length_take, List.length_drop]
    omega

/-- Pages of a fixed size give all rows, none of them being too long, exactly if the
size is the one asked for, or there is but one page and it is not cut. -/
theorem flatten_cutPages_iff {ρ : Type*} {size cut : ℕ} (hsize : 0 < size) (rows : List ρ) :
    (((List.range (pageCount size rows.length)).map fun k => cutPage size cut k rows).flatten = rows ∧
      ∀ k < pageCount size rows.length, (cutPage size cut k rows).length ≤ size) ↔
    size = cut ∨ rows.length ≤ size ∧ rows.length ≤ cut := by
  constructor
  · rintro ⟨hflatten, hlength⟩
    by_contra hnot
    rw [not_or, not_and] at hnot
    have hpos : 0 < rows.length := by
      by_contra h0
      exact hnot.2 (by omega) (by omega)
    obtain ⟨m, hm⟩ : ∃ m, pageCount size rows.length = m + 1 := by
      have hle := le_pageCount_mul hsize rows.length
      exact Nat.exists_eq_succ_of_ne_zero fun h => by rw [h] at hle; omega
    rcases Nat.lt_or_ge size cut with hlt | hge
    · have hfirst := hlength 0 (by omega)
      rw [cutPage, List.length_take, List.length_drop] at hfirst
      exact hnot.2 (by omega) (by omega)
    · have hshort := length_flatten_cutPages hge m rows
      rw [← hm, hflatten] at hshort
      exact hnot.2 (by omega) (by omega)
  · rintro (rfl | ⟨hle, hcut⟩)
    · exact ⟨flatten_all_pages hsize rows, fun k _ => List.length_take_le _ _⟩
    · rcases Nat.eq_zero_or_pos rows.length with h0 | hpos
      · obtain rfl := List.length_eq_zero_iff.mp h0
        have hcount : pageCount size 0 = 0 := Nat.div_eq_of_lt (by omega)
        simp [hcount]
      · rw [pageCount_eq_one hpos hle]
        simp [cutPage, List.take_of_length_le hcut, hle]

end StudyDB.Sqlite
