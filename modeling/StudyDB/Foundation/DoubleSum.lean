import StudyDB.Data.Rounding
import StudyDB.Foundation.Double

/-! Adding Doubles. A sum is exact and then rounded to 53 bits; it has no bits that a
Double lacks at its lower end. Proved: sums of integers that are not too large are the
rounded integers. -/

namespace StudyDB

open Rounding (Representable)

namespace Double

/-- The Double that is nearest to a sum of Doubles. -/
def rounded : Dyadic → Double
  | .zero => .zero
  | .ofOdd n k _ =>
    if fits : FitsDouble (.ofIntWithPrec (Rounding.round 53 n) k) then .finite _ fits else .infinity (decide (n < 0))

def ofInt (n : ℤ) : Double := rounded (.ofInt n)

def add : Double → Double → Double
  | .finite x _, .finite y _ => rounded (x + y)
  | .nan, _ | _, .nan => .nan
  | .infinity s, .infinity t => if s = t then .infinity s else .nan
  | .infinity s, _ | _, .infinity s => .infinity s

/-- The quotient by a positive number, rounded to 53 bits or to the last one of a Double. -/
def divNat : Double → ℕ → Double
  | .finite (.ofOdd n k _) _, d =>
    -- the exponent of the quotient's first bit, which may be one less than that of the operands' bits
    let log : ℤ := Nat.log2 n.natAbs - Nat.log2 d
    let log := if d * 2 ^ log.toNat ≤ n.natAbs * 2 ^ (-log).toNat then log else log - 1
    let e := max (log - 52) (k - 1074)
    let x := Dyadic.ofIntWithPrec (Rounding.divNearest (n * 2 ^ (-e).toNat) (d * 2 ^ e.toNat)) (k - e)
    if fits : FitsDouble x then .finite x fits else .infinity (decide (n < 0))
  | x, _ => x

/-- The integer part of a dyadic number, rounded towards zero. -/
def truncate : Dyadic → ℤ
  | .zero => 0
  | .ofOdd n k _ => if k ≤ 0 then n * 2 ^ (-k).toNat else n.tdiv (2 ^ k.toNat)

/-- `Int(_: Double)`, which traps on a number out of range. -/
def int? : Double → Option Int64
  | .finite x _ => int64? (truncate x)
  | _ => none

end Double

/-! ### Integers as Doubles -/

/-- An integer as an odd multiple of a power of two. -/
theorem exists_ofInt_eq_ofOdd {n : ℤ} (hn : n ≠ 0) :
    ∃ (m : ℤ) (t : ℕ) (h : m % 2 = 1), m * 2 ^ t = n ∧ Dyadic.ofInt n = .ofOdd m (-t) h := by
  refine ⟨n >>> n.trailingZeros, n.trailingZeros, Int.shiftRight_trailingZeros_mod_two hn, ?_, ?_⟩
  · rw [← Int.shiftLeft_eq, Int.shiftRight_shiftLeft_cancel (Int.two_pow_trailingZeros_dvd hn)]
  · rw [Dyadic.ofInt, Dyadic.ofIntWithPrec, dif_neg hn]
    simp only [Int.zero_sub]

theorem ofInt_mul_two_pow (n : ℤ) (t : ℕ) : Dyadic.ofInt (n * 2 ^ t) = .ofIntWithPrec n (-t) := by
  have h := @Dyadic.ofIntWithPrec_shiftLeft_add n (-t) t
  rwa [Int.shiftLeft_eq, Int.add_left_neg] at h

private theorem exponent_lt {m t b : ℕ} (hm : 1 ≤ m) (h : m * 2 ^ t < 2 ^ b) : t < b := by
  by_contra hge
  have hlarge : 2 ^ b ≤ 2 ^ t := Nat.pow_le_pow_right (by decide) (Nat.le_of_not_lt hge)
  exact Nat.not_lt.mpr (hlarge.trans (Nat.le_mul_of_pos_left _ hm)) h

/-- Integers of 53 bits that are not too large are Doubles. -/
theorem fitsDouble_ofInt {n : ℤ} (h : Representable 53 n) (hn : |n| < 2 ^ 1024) : FitsDouble (.ofInt n) := by
  by_cases h0 : n = 0
  · rw [h0]
    trivial
  obtain ⟨m, t, hodd, hmt, heq⟩ := exists_ofInt_eq_ofOdd h0
  obtain ⟨a, e, ha, hae⟩ := h
  have hpow : (0 : ℤ) < 2 ^ t := Int.pow_pos (by decide)
  have hm : |m| < 2 ^ 53 := by
    rcases Nat.lt_or_ge t e with hlt | hge
    · -- an odd number has no further factor of two
      have hexp : e = (e - t - 1) + 1 + t := by omega
      rw [hexp, Int.pow_add, ← Int.mul_assoc, ← hmt] at hae
      have hma := Int.eq_of_mul_eq_mul_right hpow.ne' hae
      rw [Int.pow_succ, ← Int.mul_assoc] at hma
      omega
    · have hexp : t = (t - e) + e := by omega
      rw [hexp, Int.pow_add, ← Int.mul_assoc, ← hae] at hmt
      have hpow' : (0 : ℤ) < 2 ^ e := Int.pow_pos (by decide)
      have ham := Int.eq_of_mul_eq_mul_right hpow'.ne' hmt
      rw [← ham, abs_mul, abs_of_pos (Int.pow_pos (by decide))] at ha
      exact (le_mul_of_one_le_right (abs_nonneg m) (Int.pow_pos (by decide))).trans_lt ha
  have hn' : m.natAbs * 2 ^ t < 2 ^ 1024 := by
    rw [← hmt, abs_mul, abs_of_pos hpow, Int.abs_eq_natAbs] at hn
    exact_mod_cast hn
  have hone : 1 ≤ m.natAbs := by omega
  have ht : t < 1024 := exponent_lt hone hn'
  have hexp : (1024 + -(t : ℤ)).toNat + t = 1024 := by omega
  rw [heq]
  refine ⟨by rw [Int.abs_eq_natAbs] at hm; exact_mod_cast hm, by omega, ?_⟩
  rw [← hexp, Nat.pow_add] at hn'
  exact Nat.lt_of_mul_lt_mul_right hn'

namespace Double

/-- Rounding an integer gives the Double of the rounded integer. -/
theorem ofInt_eq {n : ℤ} (h : |Rounding.round 53 n| < 2 ^ 1024) :
    ofInt n = .finite (.ofInt (Rounding.round 53 n))
      (fitsDouble_ofInt (Rounding.representable_round (by decide) n) h) := by
  by_cases h0 : n = 0
  · subst h0
    rfl
  obtain ⟨m, t, hodd, hmt, heq⟩ := exists_ofInt_eq_ofOdd h0
  have hround : Dyadic.ofIntWithPrec (Rounding.round 53 m) (-t) = .ofInt (Rounding.round 53 n) := by
    rw [← ofInt_mul_two_pow, ← Rounding.round_mul_two_pow, hmt]
  have hfits := fitsDouble_ofInt (Rounding.representable_round (by decide) n) h
  rw [ofInt, heq, rounded]
  simp only [hround, hfits, dif_pos]

theorem add_finite_ofInt {a b : ℤ} {ha : FitsDouble (.ofInt a)} {hb : FitsDouble (.ofInt b)} :
    add (.finite (.ofInt a) ha) (.finite (.ofInt b) hb) = ofInt (a + b) := by
  have hsum : Dyadic.ofInt a + Dyadic.ofInt b = Dyadic.ofInt (a + b) := by
    apply Dyadic.toRat_inj.mp
    rw [Dyadic.toRat_add]
    exact ((congrArg₂ _ (Dyadic.toRat_intCast a) (Dyadic.toRat_intCast b)).trans (Rat.intCast_add a b).symm).trans
      (Dyadic.toRat_intCast (a + b)).symm
  rw [add, hsum, ofInt]

theorem truncate_ofInt (n : ℤ) : truncate (.ofInt n) = n := by
  by_cases h0 : n = 0
  · subst h0
    rfl
  obtain ⟨m, t, hodd, hmt, heq⟩ := exists_ofInt_eq_ofOdd h0
  rw [heq, truncate, if_pos (by omega), Int.neg_neg, Int.toNat_natCast, hmt]

end Double

end StudyDB
