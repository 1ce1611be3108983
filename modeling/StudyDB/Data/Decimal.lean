import Mathlib.Data.List.Basic
import Mathlib.Data.Int.Notation

/-! Integers in decimal notation: written without superfluous zeros, read with or
without a sign. -/

namespace StudyDB.Decimal

def print (n : ℤ) : List Char :=
  if n < 0 then '-' :: Nat.toDigits 10 n.natAbs else Nat.toDigits 10 n.natAbs

/-- The number that digits stand for. -/
def value (ds : List Char) : ℕ := Nat.ofDigitChars 10 ds 0

/-- The digits in front, and the rest. -/
def digits (s : List Char) : List Char × List Char := (s.takeWhile Char.isDigit, s.dropWhile Char.isDigit)

/-- The sign in front, and the rest. -/
def sign : List Char → ℤ × List Char
  | '-' :: s => (-1, s)
  | '+' :: s => (1, s)
  | s => (1, s)

/-- The integer that a whole text stands for. -/
def parse? (s : List Char) : Option ℤ :=
  match digits (sign s).2 with
  | (_ :: _, _ :: _) | ([], _) => none
  | (ds, []) => some ((sign s).1 * value ds)

/-- The integer that a text starts with, zero if there is none. -/
def leading (s : List Char) : ℤ := (sign s).1 * value (digits (sign s).2).1

theorem ne_of_isDigit {c d : Char} (hc : c.isDigit = true) (hd : d.isDigit = false) : c ≠ d := by
  rintro rfl
  rw [hc] at hd
  cases hd

theorem toDigits_isDigit (n : ℕ) : ∀ c ∈ Nat.toDigits 10 n, c.isDigit = true :=
  fun _ hc => Nat.isDigit_of_mem_toDigits (by decide) (by decide) hc

theorem value_toDigits (n : ℕ) : value (Nat.toDigits 10 n) = n := Nat.ofDigitChars_ten_toDigits

/-- A written natural number starts with a digit. -/
theorem toDigits_cons (n : ℕ) : ∃ c t, Nat.toDigits 10 n = c :: t ∧ c.isDigit = true := by
  cases h : Nat.toDigits 10 n with
  | nil => exact absurd h Nat.toDigits_ne_nil
  | cons c t => exact ⟨c, t, rfl, toDigits_isDigit n c (h ▸ List.mem_cons_self)⟩

/-- A written integer starts with a digit or a minus sign. -/
theorem print_cons (n : ℤ) : ∃ c t, print n = c :: t ∧ (c = '-' ∨ c.isDigit = true) := by
  unfold print
  split_ifs
  · exact ⟨'-', _, rfl, .inl rfl⟩
  · obtain ⟨c, t, ht, hc⟩ := toDigits_cons n.natAbs
    exact ⟨c, t, ht, .inr hc⟩

/-- Only zero is written with a zero in front. -/
theorem head_toDigits (n : ℕ) (hn : 0 < n) : (Nat.toDigits 10 n).head? ≠ some '0' := by
  induction n using Nat.strongRecOn with
  | _ n ih =>
    rw [Nat.toDigits_eq_if (by decide)]
    split_ifs with h
    · simpa using by omega
    · rw [List.head?_append_of_ne_nil _ Nat.toDigits_ne_nil]
      exact ih (n / 10) (by omega) (by omega)

theorem digits_append {ds rest : List Char} (hds : ∀ c ∈ ds, c.isDigit = true)
    (hrest : ∀ c ∈ rest.head?, c.isDigit = false) : digits (ds ++ rest) = (ds, rest) := by
  have hnone : rest.takeWhile Char.isDigit = [] ∧ rest.dropWhile Char.isDigit = rest := by
    cases rest with
    | nil => exact ⟨rfl, rfl⟩
    | cons c rest => simp [hrest c rfl]
  rw [digits, List.takeWhile_append_of_pos hds, List.dropWhile_append_of_pos hds, hnone.1, hnone.2,
    List.append_nil]

theorem sign_toDigits (n : ℕ) (rest : List Char) :
    sign (Nat.toDigits 10 n ++ rest) = (1, Nat.toDigits 10 n ++ rest) := by
  obtain ⟨c, t, ht, hc⟩ := toDigits_cons n
  rw [ht, List.cons_append]
  unfold sign
  split
  · rename_i heq
    exact absurd (List.cons.inj heq).1 (ne_of_isDigit hc (by decide))
  · rename_i heq
    exact absurd (List.cons.inj heq).1 (ne_of_isDigit hc (by decide))
  · rfl

/-- The sign and the digits of a written integer give the integer. -/
theorem sign_print (n : ℤ) (rest : List Char) :
    ∃ s : ℤ, sign (print n ++ rest) = (s, Nat.toDigits 10 n.natAbs ++ rest) ∧ s * n.natAbs = n := by
  by_cases hneg : n < 0
  · exact ⟨-1, by simp [print, hneg, sign], by omega⟩
  · exact ⟨1, by simp [print, hneg, sign_toDigits], by omega⟩

theorem parse?_print (n : ℤ) : parse? (print n) = some n := by
  obtain ⟨s, hs, hn⟩ := sign_print n []
  obtain ⟨c, t, ht, _⟩ := toDigits_cons n.natAbs
  have hdigits : digits (Nat.toDigits 10 n.natAbs ++ []) = (Nat.toDigits 10 n.natAbs, []) :=
    digits_append (toDigits_isDigit n.natAbs) (by simp)
  have hval := value_toDigits n.natAbs
  rw [List.append_nil] at hs hdigits
  rw [List.append_nil, ht] at hs
  rw [ht] at hdigits hval
  rw [parse?, hs]
  simp only [hdigits]
  rw [hval, hn]

end StudyDB.Decimal
