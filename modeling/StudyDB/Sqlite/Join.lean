import Mathlib.Data.List.Nodup
import Mathlib.Data.List.Perm.Basic

/-! Joins of two tables. Proved: two joins whose rows show the key of the left row they
come from have the same rows exactly if they have the same ones for each left row. -/

namespace StudyDB.Sqlite

variable {α β γ κ : Type*}

/-- Values are equal in SQL if they are equal and not NULL. -/
def sqlEq [DecidableEq κ] (a b : Option κ) : Bool := decide (a.isSome ∧ a = b)

/-- JOIN with ON, by a loop over the right rows for each left one. -/
def joinOn (on : α → β → Bool) (left : List α) (right : List β) : List (α × β) :=
  left.flatMap fun a => (right.filter (on a)).map fun b => (a, b)

/-- A condition on the left rows can be tried before the join. -/
theorem filter_joinOn (on : α → β → Bool) (p : α → Bool) (left : List α) (right : List β) :
    (joinOn on left right).filter (fun r => p r.1) = joinOn on (left.filter p) right := by
  induction left with
  | nil => rfl
  | cons a left ih =>
    rw [joinOn, List.flatMap_cons, List.filter_append, ← joinOn, ih, List.filter_map, List.filter_cons]
    cases hp : p a with
    | true =>
      have hall : (right.filter (on a)).filter ((fun r : α × β => p r.1) ∘ fun b => (a, b)) = right.filter (on a) :=
        List.filter_eq_self.mpr fun b _ => hp
      rw [hall, if_pos rfl, joinOn, joinOn, List.flatMap_cons]
    | false =>
      have hnone : (right.filter (on a)).filter ((fun r : α × β => p r.1) ∘ fun b => (a, b)) = [] :=
        List.filter_eq_nil_iff.mpr fun b _ => by simp [hp]
      rw [hnone, List.map_nil, List.nil_append, if_neg Bool.false_ne_true]

section Keys
variable [DecidableEq κ] (id : α → κ) (key : β → κ) {left : List α} {f g : α → List β}

/-- Rows that show a key are those made of the left row with that key. -/
theorem filter_flatMap (hleft : (left.map id).Nodup) (hf : ∀ a ∈ left, ∀ b ∈ f a, key b = id a) {a : α}
    (ha : a ∈ left) : (left.flatMap f).filter (fun b => key b = id a) = f a := by
  induction left with
  | nil => cases ha
  | cons a' left ih =>
    rw [List.map_cons, List.nodup_cons] at hleft
    rw [List.flatMap_cons, List.filter_append]
    rcases List.mem_cons.mp ha with rfl | ha
    · have hself : (f a).filter (fun b => key b = id a) = f a :=
        List.filter_eq_self.mpr fun b hb => decide_eq_true (hf a List.mem_cons_self b hb)
      have hrest : (left.flatMap f).filter (fun b => key b = id a) = [] :=
        List.filter_eq_nil_iff.mpr fun b hb hkey => by
          obtain ⟨a', ha', hb⟩ := List.mem_flatMap.mp hb
          have heq := hf a' (List.mem_cons_of_mem a ha') b hb
          exact hleft.1 (List.mem_map.mpr ⟨a', ha', heq.symm.trans (of_decide_eq_true hkey)⟩)
      rw [hself, hrest, List.append_nil]
    · have hother : (f a').filter (fun b => key b = id a) = [] :=
        List.filter_eq_nil_iff.mpr fun b hb hkey => by
          have heq := hf a' List.mem_cons_self b hb
          exact hleft.1 (List.mem_map.mpr ⟨a, ha, (of_decide_eq_true hkey).symm.trans heq⟩)
      rw [hother, List.nil_append]
      exact ih hleft.2 (fun a' ha' => hf a' (List.mem_cons_of_mem _ ha')) ha

theorem flatMap_perm_iff (hleft : (left.map id).Nodup) (hf : ∀ a ∈ left, ∀ b ∈ f a, key b = id a)
    (hg : ∀ a ∈ left, ∀ b ∈ g a, key b = id a) :
    (left.flatMap f).Perm (left.flatMap g) ↔ ∀ a ∈ left, (f a).Perm (g a) := by
  constructor
  · intro h a ha
    have hrows := h.filter fun b => key b = id a
    rwa [filter_flatMap id key hleft hf ha, filter_flatMap id key hleft hg ha] at hrows
  · exact fun h => .flatMap_left left h

end Keys

/-- A list has the same elements as its last one alone, if it has no more. -/
theorem getLast?_perm_iff (l : List α) : l.getLast?.toList.Perm l ↔ l.length ≤ 1 := by
  constructor
  · intro h
    rw [← h.length_eq]
    cases l.getLast? with
    | none => exact Nat.zero_le 1
    | some a => exact Nat.le_refl 1
  · intro h
    match l with
    | [] => exact .refl _
    | [a] => exact .refl _
    | a :: b :: l =>
      rw [List.length_cons, List.length_cons] at h
      omega

end StudyDB.Sqlite
