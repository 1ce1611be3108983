import Mathlib.Data.List.Infix

/-! Patterns with wildcards over any alphabet: one symbol stands for any word, another
for any letter, and every other symbol for the letters that it is the same as. Proved:
which words are like a pattern, by the first symbol of the pattern. -/

namespace StudyDB

/-- The two wildcards of an alphabet, and which letters the other symbols stand for. -/
structure Wildcards (α : Type*) where
  all : α
  one : α
  one_ne_all : one ≠ all
  same : α → α → Prop

namespace Wildcards
variable {α : Type*} (W : Wildcards α)

/-- A word is like a pattern. -/
inductive Like : List α → List α → Prop
  | nil : Like [] []
  | skip {p t : List α} : Like p t → Like (W.all :: p) t
  | extend {p t : List α} {d : α} : Like (W.all :: p) t → Like (W.all :: p) (d :: t)
  | one {p t : List α} {d : α} : Like p t → Like (W.one :: p) (d :: t)
  | letter {p t : List α} {c d : α} (hall : c ≠ W.all) (hone : c ≠ W.one) (hsame : W.same c d) :
      Like p t → Like (c :: p) (d :: t)

variable {W} {p t : List α} {c d : α}

@[simp] theorem like_nil_iff : W.Like [] t ↔ t = [] := by
  constructor
  · intro h
    cases h
    rfl
  · rintro rfl
    exact .nil

/-- What the first symbol of the pattern can have stood for. -/
theorem Like.cases_cons (h : W.Like (c :: p) t) :
    (c = W.all ∧ (W.Like p t ∨ ∃ d s, t = d :: s ∧ W.Like (W.all :: p) s)) ∨
    (c = W.one ∧ ∃ d s, t = d :: s ∧ W.Like p s) ∨
    (c ≠ W.all ∧ c ≠ W.one ∧ ∃ d s, t = d :: s ∧ W.same c d ∧ W.Like p s) := by
  cases h with
  | skip h => exact .inl ⟨rfl, .inl h⟩
  | extend h => exact .inl ⟨rfl, .inr ⟨_, _, rfl, h⟩⟩
  | one h => exact .inr (.inl ⟨rfl, _, _, rfl, h⟩)
  | letter hall hone hsame h => exact .inr (.inr ⟨hall, hone, _, _, rfl, hsame, h⟩)

/-! ### Any word -/

@[simp] theorem like_all_nil_iff : W.Like (W.all :: p) [] ↔ W.Like p [] := by
  constructor
  · intro h
    obtain ⟨-, h | ⟨d, s, hs, -⟩⟩ | ⟨-, d, s, hs, -⟩ | ⟨hall, -⟩ := h.cases_cons
    · exact h
    · cases hs
    · cases hs
    · exact absurd rfl hall
  · exact .skip

theorem like_all_cons_iff : W.Like (W.all :: p) (d :: t) ↔ W.Like p (d :: t) ∨ W.Like (W.all :: p) t := by
  constructor
  · intro h
    obtain ⟨-, h | ⟨d, s, hs, h⟩⟩ | ⟨hone, -⟩ | ⟨hall, -⟩ := h.cases_cons
    · exact .inl h
    · cases hs
      exact .inr h
    · exact absurd hone.symm W.one_ne_all
    · exact absurd rfl hall
  · rintro (h | h)
    · exact .skip h
    · exact .extend h

theorem like_all_iff_suffix : W.Like (W.all :: p) t ↔ ∃ s, s <:+ t ∧ W.Like p s := by
  induction t with
  | nil => simp
  | cons d t ih =>
    rw [like_all_cons_iff, ih]
    simp only [List.suffix_cons_iff, or_and_right, exists_or, exists_eq_left]

theorem like_all (t : List α) : W.Like [W.all] t := like_all_iff_suffix.mpr ⟨[], List.nil_suffix, .nil⟩

@[simp] theorem like_all_all_iff : W.Like (W.all :: W.all :: p) t ↔ W.Like (W.all :: p) t := by
  constructor
  · intro h
    obtain ⟨s, hs, hp⟩ := like_all_iff_suffix.mp h
    obtain ⟨s', hs', hp'⟩ := like_all_iff_suffix.mp hp
    exact like_all_iff_suffix.mpr ⟨s', hs'.trans hs, hp'⟩
  · exact .skip

/-! ### Any letter -/

theorem not_like_one_nil : ¬W.Like (W.one :: p) [] := by
  intro h
  obtain ⟨hall, -⟩ | ⟨-, d, s, hs, -⟩ | ⟨-, hone, -⟩ := h.cases_cons
  · exact W.one_ne_all hall
  · cases hs
  · exact hone rfl

theorem like_one_cons_iff : W.Like (W.one :: p) (d :: t) ↔ W.Like p t := by
  constructor
  · intro h
    obtain ⟨hall, -⟩ | ⟨-, d, s, hs, h⟩ | ⟨-, hone, -⟩ := h.cases_cons
    · exact absurd hall W.one_ne_all
    · cases hs
      exact h
    · exact absurd rfl hone
  · exact .one

theorem not_like_all_one_nil : ¬W.Like (W.all :: W.one :: p) [] := like_all_nil_iff.not.mpr not_like_one_nil

/-- The two wildcards may change places. -/
theorem like_all_one_cons_iff : W.Like (W.all :: W.one :: p) (d :: t) ↔ W.Like (W.all :: p) t := by
  induction t generalizing d with
  | nil =>
    rw [like_all_cons_iff, like_one_cons_iff, like_all_nil_iff, like_all_nil_iff]
    exact or_iff_left not_like_one_nil
  | cons e t ih => rw [like_all_cons_iff, like_one_cons_iff, ih, ← like_all_cons_iff]

/-! ### A letter -/

theorem not_like_letter_nil (hall : c ≠ W.all) : ¬W.Like (c :: p) [] := by
  intro h
  obtain ⟨hc, -⟩ | ⟨-, d, s, hs, -⟩ | ⟨-, -, d, s, hs, -⟩ := h.cases_cons
  · exact hall hc
  · cases hs
  · cases hs

theorem like_letter_cons_iff (hall : c ≠ W.all) (hone : c ≠ W.one) :
    W.Like (c :: p) (d :: t) ↔ W.same c d ∧ W.Like p t := by
  constructor
  · intro h
    obtain ⟨hc, -⟩ | ⟨hc, -⟩ | ⟨-, -, d, s, hs, hsame, h⟩ := h.cases_cons
    · exact absurd hc hall
    · exact absurd hc hone
    · cases hs
      exact ⟨hsame, h⟩
  · rintro ⟨hsame, h⟩
    exact .letter hall hone hsame h

/-- A letter is looked for at each place. -/
theorem like_all_letter_cons_iff (hall : c ≠ W.all) (hone : c ≠ W.one) :
    W.Like (W.all :: c :: p) (d :: t) ↔ W.same c d ∧ W.Like p t ∨ W.Like (W.all :: c :: p) t := by
  rw [like_all_cons_iff, like_letter_cons_iff hall hone]

/-- Where the letter stands, what follows it stands too. -/
theorem like_all_of_like_all_letter (hall : c ≠ W.all) (hone : c ≠ W.one) (h : W.Like (W.all :: c :: p) t) :
    W.Like (W.all :: p) t := by
  obtain ⟨s, hs, hp⟩ := like_all_iff_suffix.mp h
  cases s with
  | nil => exact absurd hp (not_like_letter_nil hall)
  | cons d s =>
    exact like_all_iff_suffix.mpr ⟨s, (List.suffix_cons d s).trans hs, ((like_letter_cons_iff hall hone).mp hp).2⟩

/-- Where no end of a word is like a pattern, none with a letter more is like the pattern
with a symbol for one letter more. -/
theorem not_like_cons_of_suffix (hall : c ≠ W.all) (h : ∀ s, s <:+ t → ¬W.Like p s) {s : List α} (hs : s <:+ d :: t) :
    ¬W.Like (c :: p) s := by
  have htail : ∀ e s', s = e :: s' → s' <:+ t := by
    rintro e s' rfl
    rcases List.suffix_cons_iff.mp hs with hs | hs
    · exact (List.cons.inj hs).2 ▸ List.suffix_rfl
    · exact (List.suffix_cons e s').trans hs
  intro hlike
  obtain ⟨hc, -⟩ | ⟨-, e, s', hs', hlike'⟩ | ⟨-, -, e, s', hs', -, hlike'⟩ := hlike.cases_cons
  · exact hall hc
  · exact h s' (htail e s' hs') hlike'
  · exact h s' (htail e s' hs') hlike'

/-- A word has the letters of the pattern that stand for themselves alone. -/
theorem Like.count_le [DecidableEq α] (h : W.Like p t) (hall : c ≠ W.all) (hone : c ≠ W.one)
    (hsame : ∀ d, W.same c d → d = c) : p.count c ≤ t.count c := by
  induction h with
  | nil => exact le_rfl
  | skip _ ih => rwa [List.count_cons_of_ne (Ne.symm hall)]
  | extend _ ih => exact ih.trans (List.count_le_count_cons)
  | one _ ih =>
    rw [List.count_cons_of_ne (Ne.symm hone)]
    exact ih.trans (List.count_le_count_cons)
  | @letter p t e d _ _ he _ ih =>
    by_cases hec : e = c
    · subst hec
      rw [hsame d he, List.count_cons_self, List.count_cons_self]
      exact Nat.succ_le_succ ih
    · rw [List.count_cons_of_ne hec]
      exact ih.trans (List.count_le_count_cons)

end Wildcards

end StudyDB
