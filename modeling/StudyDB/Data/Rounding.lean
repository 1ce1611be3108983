import Mathlib.Algebra.Order.Ring.Abs
import Mathlib.Algebra.Order.Ring.Int
import Mathlib.Data.List.Basic

/-! Rounding to a number of bits, ties to the even neighbour, and sums that are rounded at
every step. Proved: rounding gives a number of so many bits, leaves such numbers as they
are, and no such number is nearer; a rounded sum is exact where the numbers and their
partial sums have so many bits, and only then if no sum but the last is rounded. -/

namespace StudyDB.Rounding

/-! ### The nearest quotient -/

/-- The integer that is nearest to a quotient. -/
def divNearest (n : ℤ) (d : ℕ) : ℤ :=
  if 2 * (n % d) < d then n / d
  else if d < 2 * (n % d) then n / d + 1
  else if n / d % 2 = 0 then n / d else n / d + 1

/-- The remainder that is left is at most half of the divisor. -/
theorem two_mul_abs_divNearest_sub {d : ℕ} (hd : 0 < d) (n : ℤ) : 2 * |divNearest n d * d - n| ≤ d := by
  have hmod := Int.emod_nonneg n (Int.natCast_ne_zero.mpr (Nat.pos_iff_ne_zero.mp hd))
  have hlt := Int.emod_lt_of_pos n (Int.natCast_pos.mpr hd)
  have hdiv := Int.ediv_mul_add_emod n d
  have hdown : n / d * d - n = -(n % d) := by omega
  have hup : (n / d + 1) * d - n = d - n % d := by
    rw [Int.add_mul, Int.one_mul]
    omega
  unfold divNearest
  split_ifs with hlow hhigh heven
  · rw [hdown, abs_neg, abs_of_nonneg hmod]
    omega
  · rw [hup, abs_of_nonneg (by omega)]
    omega
  · rw [hdown, abs_neg, abs_of_nonneg hmod]
    omega
  · rw [hup, abs_of_nonneg (by omega)]
    omega

theorem divNearest_mul {d : ℕ} (hd : 0 < d) (k : ℤ) : divNearest (k * d) d = k := by
  have hd' : (d : ℤ) ≠ 0 := Int.natCast_ne_zero.mpr (Nat.pos_iff_ne_zero.mp hd)
  rw [divNearest, Int.mul_emod_left, Int.mul_ediv_cancel k hd', if_pos (by omega)]

theorem divNearest_mul_mul (n : ℤ) (d : ℕ) {c : ℕ} (hc : 0 < c) : divNearest (n * c) (d * c) = divNearest n d := by
  have hc' : (0 : ℤ) < c := Int.natCast_pos.mpr hc
  have hlow : 2 * (n % d * c) < d * c ↔ 2 * (n % d) < d := by
    rw [← Int.mul_assoc]
    exact mul_lt_mul_iff_left₀ hc'
  have hhigh : (d : ℤ) * c < 2 * (n % d * c) ↔ (d : ℤ) < 2 * (n % d) := by
    rw [← Int.mul_assoc]
    exact mul_lt_mul_iff_left₀ hc'
  have hmod : n * c % (d * c) = n % d * c := by
    rw [Int.mul_comm n, Int.mul_comm (d : ℤ), Int.mul_emod_mul_of_pos _ _ hc', Int.mul_comm]
  rw [divNearest, divNearest, Nat.cast_mul, hmod, Int.mul_ediv_mul_of_pos_left _ _ hc']
  simp only [hlow, hhigh]

/-- No multiple of the divisor is nearer. -/
theorem abs_divNearest_sub_le {d : ℕ} (hd : 0 < d) (n k : ℤ) : |divNearest n d * d - n| ≤ |k * d - n| := by
  have hhalf := two_mul_abs_divNearest_sub hd n
  by_cases hk : k = divNearest n d
  · rw [hk]
  · -- two different multiples are a divisor apart
    have hapart : (d : ℤ) ≤ |k * d - divNearest n d * d| := by
      rw [← Int.sub_mul, abs_mul, Nat.abs_cast]
      exact le_mul_of_one_le_left (Int.natCast_nonneg d) (Int.one_le_abs (sub_ne_zero.mpr hk))
    have htriangle := abs_sub_le (k * d) n (divNearest n d * d)
    rw [abs_sub_comm n] at htriangle
    omega

/-! ### Numbers of so many bits -/

/-- A multiple of a power of two by a number of at most `p` bits. -/
def Representable (p : ℕ) (n : ℤ) : Prop := ∃ (m : ℤ) (e : ℕ), |m| < 2 ^ p ∧ m * 2 ^ e = n

/-- The exponent of the last of `p` bits. -/
def exponent (p : ℕ) (n : ℤ) : ℕ := Nat.log2 n.natAbs + 1 - p

/-- The nearest number of `p` bits. -/
def round (p : ℕ) (n : ℤ) : ℤ := divNearest n (2 ^ exponent p n) * 2 ^ exponent p n

theorem abs_lt_two_pow (p : ℕ) (n : ℤ) : |n| < 2 ^ (p + exponent p n) := by
  have hlog : n.natAbs < 2 ^ (Nat.log2 n.natAbs + 1) := Nat.lt_log2_self
  have hle : (2 : ℕ) ^ (Nat.log2 n.natAbs + 1) ≤ 2 ^ (p + exponent p n) :=
    Nat.pow_le_pow_right (by decide) (by unfold exponent; omega)
  rw [Int.abs_eq_natAbs]
  exact_mod_cast hlog.trans_le hle

/-- A number with more than `p` bits has a one in front of the last of them. -/
theorem two_pow_le_abs {p : ℕ} {n : ℤ} (hp : 0 < p) (h : 0 < exponent p n) :
    2 ^ (p - 1) * 2 ^ exponent p n ≤ |n| := by
  unfold exponent at h ⊢
  have hn : n.natAbs ≠ 0 := by
    intro h0
    rw [h0, Nat.log2_zero] at h
    omega
  have hle : 2 ^ Nat.log2 n.natAbs ≤ n.natAbs := Nat.log2_self_le hn
  have hexp : p - 1 + (Nat.log2 n.natAbs + 1 - p) = Nat.log2 n.natAbs := by omega
  rw [← Int.pow_add, hexp, Int.abs_eq_natAbs]
  exact_mod_cast hle

theorem two_mul_abs_round_sub (p : ℕ) (n : ℤ) : 2 * |round p n - n| ≤ 2 ^ exponent p n := by
  have h := two_mul_abs_divNearest_sub (Nat.two_pow_pos (exponent p n)) n
  rwa [Nat.cast_pow, Nat.cast_ofNat] at h

theorem representable_round {p : ℕ} (hp : 0 < p) (n : ℤ) : Representable p (round p n) := by
  have hpow : (0 : ℤ) < 2 ^ exponent p n := Int.pow_pos (by decide)
  have hround := two_mul_abs_round_sub p n
  have hn := abs_lt_two_pow p n
  rw [Int.pow_add] at hn
  have htriangle : |round p n| ≤ |round p n - n| + |n| := by
    have h := abs_add_le (round p n - n) n
    rwa [Int.sub_add_cancel] at h
  have hm : |divNearest n (2 ^ exponent p n)| ≤ 2 ^ p := by
    have hlt : 2 * |divNearest n (2 ^ exponent p n)| * 2 ^ exponent p n < (1 + 2 * 2 ^ p) * 2 ^ exponent p n := by
      rw [Int.mul_assoc, Int.add_mul, Int.one_mul, Int.mul_assoc]
      rw [round, abs_mul, abs_of_pos hpow] at htriangle
      rw [round] at hround
      omega
    have := lt_of_mul_lt_mul_right hlt hpow.le
    omega
  rcases hm.lt_or_eq with hlt | heq
  · exact ⟨_, _, hlt, rfl⟩
  · -- a carry into the next power of two
    have hone : (1 : ℤ) < 2 ^ p := by exact_mod_cast Nat.one_lt_two_pow hp.ne'
    rcases abs_eq (Int.pow_nonneg (by decide)) |>.mp heq with hpos | hneg
    · exact ⟨1, p + exponent p n, hone, by rw [round, hpos, Int.pow_add, Int.one_mul]⟩
    · exact ⟨-1, p + exponent p n, hone, by rw [round, hneg, Int.pow_add, Int.neg_mul, Int.neg_mul, Int.one_mul]⟩

theorem round_of_representable {p : ℕ} {n : ℤ} (h : Representable p n) : round p n = n := by
  obtain ⟨m, e, hm, rfl⟩ := h
  have hdvd : (2 : ℤ) ^ exponent p (m * 2 ^ e) ∣ m * 2 ^ e := by
    by_cases hn : m * 2 ^ e = 0
    · rw [hn]
      exact Int.dvd_zero _
    · have habs : (m * 2 ^ e).natAbs < 2 ^ (p + e) := by
        have hlt : |m * 2 ^ e| < 2 ^ (p + e) := by
          rw [abs_mul, abs_of_nonneg (Int.pow_nonneg (by decide)), Int.pow_add]
          exact mul_lt_mul_of_pos_right hm (Int.pow_pos (by decide))
        rw [Int.abs_eq_natAbs] at hlt
        exact_mod_cast hlt
      have hlog := (Nat.log2_lt (Int.natAbs_ne_zero.mpr hn)).mpr habs
      have hle : exponent p (m * 2 ^ e) ≤ e := by
        unfold exponent
        omega
      exact Int.dvd_trans (pow_dvd_pow 2 hle) (Int.dvd_mul_left _ _)
  obtain ⟨k, hk⟩ := hdvd
  have hdiv := divNearest_mul (Nat.two_pow_pos (exponent p (m * 2 ^ e))) k
  rw [Nat.cast_pow, Nat.cast_ofNat, Int.mul_comm k, ← hk] at hdiv
  rw [round, hdiv, Int.mul_comm k, ← hk]

/-- Rounding commutes with shifting. -/
theorem round_mul_two_pow (p : ℕ) (n : ℤ) (t : ℕ) : round p (n * 2 ^ t) = round p n * 2 ^ t := by
  by_cases hn : n = 0
  · simp [hn, round, divNearest]
  by_cases h : exponent p n = 0
  · have hlt : |n| < 2 ^ p := by simpa [h] using abs_lt_two_pow p n
    have hsmall : Representable p n := ⟨n, 0, hlt, Int.mul_one n⟩
    rw [round_of_representable hsmall, round_of_representable ⟨n, t, hlt, rfl⟩]
  · have hlog : Nat.log2 (n * 2 ^ t).natAbs = Nat.log2 n.natAbs + t := by
      have hnat : n.natAbs ≠ 0 := Int.natAbs_ne_zero.mpr hn
      have hle : 2 ^ Nat.log2 n.natAbs ≤ n.natAbs := Nat.log2_self_le hnat
      have hlt : n.natAbs < 2 ^ (Nat.log2 n.natAbs + 1) := Nat.lt_log2_self
      have habs : (n * 2 ^ t).natAbs = n.natAbs * 2 ^ t := by rw [Int.natAbs_mul, Int.natAbs_pow]; rfl
      rw [habs, Nat.log2_eq_iff (Nat.mul_ne_zero hnat (Nat.two_pow_pos t).ne'), Nat.pow_add,
        Nat.add_right_comm, Nat.pow_add 2 _ t]
      exact ⟨Nat.mul_le_mul_right _ hle, Nat.mul_lt_mul_of_pos_right hlt (Nat.two_pow_pos t)⟩
    have hexp : exponent p (n * 2 ^ t) = exponent p n + t := by
      unfold exponent at h ⊢
      rw [hlog]
      omega
    have hdiv := divNearest_mul_mul n (2 ^ exponent p n) (Nat.two_pow_pos t)
    rw [Nat.cast_pow, Nat.cast_ofNat, ← Nat.pow_add] at hdiv
    rw [round, hexp, hdiv, round, Int.pow_add, Int.mul_assoc]

/-- No number of `p` bits is nearer. -/
theorem abs_round_sub_le {p : ℕ} (hp : 0 < p) (n : ℤ) {m : ℤ} (h : Representable p m) : |round p n - n| ≤ |m - n| := by
  have hmultiple : ∀ k : ℤ, |round p n - n| ≤ |k * 2 ^ exponent p n - n| := fun k => by
    have hk := abs_divNearest_sub_le (Nat.two_pow_pos (exponent p n)) n k
    rwa [Nat.cast_pow, Nat.cast_ofNat] at hk
  by_cases hdvd : (2 : ℤ) ^ exponent p n ∣ m
  · obtain ⟨k, rfl⟩ := hdvd
    rw [Int.mul_comm]
    exact hmultiple k
  · -- such a number is smaller than the smallest multiple with `p` bits
    obtain ⟨k, e, hk, rfl⟩ := h
    have he : e < exponent p n := by
      by_contra hge
      exact hdvd (Int.dvd_trans (pow_dvd_pow 2 (Nat.le_of_not_lt hge)) (Int.dvd_mul_left _ _))
    have hn := two_pow_le_abs hp (Nat.zero_lt_of_lt he)
    have hm : |k * 2 ^ e| ≤ 2 ^ (p - 1) * 2 ^ exponent p n := by
      rw [abs_mul, abs_of_nonneg (Int.pow_nonneg (by decide)), ← Int.pow_add]
      calc |k| * 2 ^ e ≤ 2 ^ p * 2 ^ e := Int.mul_le_mul_of_nonneg_right hk.le (Int.pow_nonneg (by decide))
        _ = 2 ^ (p + e) := (Int.pow_add ..).symm
        _ ≤ 2 ^ (p - 1 + exponent p n) := pow_le_pow_right₀ (by decide) (by omega)
    rcases le_total 0 n with hpos | hneg
    · have hnear := hmultiple (2 ^ (p - 1))
      have hle := (le_abs_self (k * 2 ^ e)).trans hm
      have hfar := le_abs_self (n - k * 2 ^ e)
      rw [abs_of_nonneg hpos] at hn
      have hB : |2 ^ (p - 1) * 2 ^ exponent p n - n| = n - 2 ^ (p - 1) * 2 ^ exponent p n := by
        rw [abs_sub_comm, abs_of_nonneg (Int.sub_nonneg.mpr hn)]
      rw [hB] at hnear
      rw [abs_sub_comm (k * 2 ^ e)]
      omega
    · have hnear := hmultiple (-2 ^ (p - 1))
      have hle := (neg_le_abs (k * 2 ^ e)).trans hm
      have hfar := le_abs_self (k * 2 ^ e - n)
      rw [abs_of_nonpos hneg] at hn
      have hB : |-(2 ^ (p - 1) * 2 ^ exponent p n) - n| = -(2 ^ (p - 1) * 2 ^ exponent p n) - n :=
        abs_of_nonneg (by omega)
      rw [Int.neg_mul, hB] at hnear
      omega

theorem representable_zero (p : ℕ) : Representable p 0 := ⟨0, 0, by simp, Int.zero_mul _⟩

theorem abs_round_le (p : ℕ) (hp : 0 < p) (n : ℤ) : |round p n| ≤ 2 * |n| := by
  have hnear := abs_round_sub_le hp n (representable_zero p)
  rw [Int.zero_sub, abs_neg] at hnear
  have htriangle := abs_add_le (round p n - n) n
  rw [Int.sub_add_cancel] at htriangle
  omega

/-! ### Rounded sums -/

/-- Numbers added to a start, each of them and each sum rounded. -/
def sumFrom (p : ℕ) (start : ℤ) (ns : List ℤ) : ℤ := ns.foldl (fun s n => round p (s + round p n)) start

variable {p : ℕ}

theorem sumFrom_concat (start : ℤ) (ns : List ℤ) (n : ℤ) :
    sumFrom p start (ns ++ [n]) = round p (sumFrom p start ns + round p n) := by
  rw [sumFrom, List.foldl_append]
  rfl

/-- One step moves a sum by at most four times the number. -/
theorem abs_sumFrom_le (hp : 0 < p) {start b : ℤ} (hstart : Representable p start) {ns : List ℤ}
    (h : ∀ n ∈ ns, |n| ≤ b) : |sumFrom p start ns| ≤ |start| + 4 * b * ns.length := by
  induction ns generalizing start with
  | nil => simp [sumFrom]
  | cons n ns ih =>
    have hn := abs_round_le p hp n
    have hb := h n List.mem_cons_self
    -- the start is itself a number of `p` bits
    have hstep := abs_round_sub_le hp (start + round p n) hstart
    have hrest := ih (representable_round hp (start + round p n)) fun m hm => h m (List.mem_cons_of_mem n hm)
    have htriangle := abs_add_le (round p (start + round p n) - (start + round p n)) (start + round p n)
    have hsum := abs_add_le start (round p n)
    rw [Int.sub_add_cancel] at htriangle
    have hback : start - (start + round p n) = -round p n := by omega
    rw [hback, abs_neg] at hstep
    rw [sumFrom, List.foldl_cons, ← sumFrom, List.length_cons, Nat.cast_add, Nat.cast_one, Int.mul_add, Int.mul_one]
    omega

/-- Where every number and every partial sum has `p` bits, nothing is rounded. -/
theorem sumFrom_of_representable {start : ℤ} {ns : List ℤ} (hns : ∀ n ∈ ns, Representable p n)
    (hsums : ∀ pre, pre <+: ns → Representable p (start + pre.sum)) : sumFrom p start ns = start + ns.sum := by
  induction ns generalizing start with
  | nil => simp [sumFrom]
  | cons n ns ih =>
    have hfirst := hsums [n] ⟨ns, rfl⟩
    rw [List.sum_singleton] at hfirst
    rw [sumFrom, List.foldl_cons, ← sumFrom, round_of_representable (hns n List.mem_cons_self),
      round_of_representable hfirst, ih (fun m hm => hns m (List.mem_cons_of_mem n hm)), List.sum_cons, Int.add_assoc]
    intro pre hpre
    have hlonger := hsums (n :: pre) (List.cons_prefix_cons.mpr ⟨rfl, hpre⟩)
    rwa [List.sum_cons, ← Int.add_assoc] at hlonger

/-- Where only the last sum may be rounded, the rounded sum is exact only if that one has
`p` bits, too. -/
theorem representable_of_sumFrom_eq (hp : 0 < p) {ns : List ℤ} (hns : ∀ n ∈ ns, Representable p n)
    (hsums : ∀ pre, pre <+: ns → pre ≠ ns → Representable p pre.sum) (h : sumFrom p 0 ns = ns.sum) :
    Representable p ns.sum := by
  rcases List.eq_nil_or_concat' ns with rfl | ⟨init, n, rfl⟩
  · exact representable_zero p
  · have hinit : sumFrom p 0 init = 0 + init.sum := by
      refine sumFrom_of_representable (fun m hm => hns m ?_) fun pre hpre => ?_
      · exact List.mem_append_left _ hm
      · rw [Int.zero_add]
        refine hsums pre (hpre.trans (List.prefix_append _ _)) fun heq => ?_
        have hle := hpre.length_le
        rw [heq, List.length_append, List.length_singleton] at hle
        omega
    rw [← h, sumFrom_concat]
    exact representable_round hp _

end StudyDB.Rounding
