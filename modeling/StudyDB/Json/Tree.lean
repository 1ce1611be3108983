import Mathlib.Algebra.Group.Int.Defs
import Mathlib.Data.List.Nodup
import Mathlib.Data.String.Basic

/-! JSON values. An object is a list of members; the objects made here keep
their members sorted by key, so that equal dictionaries are equal values. A value
is portable when every JSON library carries it unchanged: its numbers are 64-bit
integers, and its objects are sorted with distinct keys. -/

namespace StudyDB

/-- The value `mantissa * 10 ^ exponent` of a numeral is kept as it is written. -/
inductive Json where
  | null
  | bool (b : Bool)
  | number (mantissa exponent : ℤ)
  | string (s : String)
  | array (items : List Json)
  | object (members : List (String × Json))

namespace Json

/-- An integer. -/
def int (n : ℤ) : Json := .number n 0

/-- The member of an object under a key. -/
def member? (k : String) : Json → Option Json
  | .object ms => ms.lookup k
  | _ => none

/-- The object with the given members, sorted by key. -/
def ofMembers (ms : List (String × Json)) : Json :=
  .object (ms.mergeSort fun a b => decide (a.1 ≤ b.1))

/-- Arrays and objects: what a JSON text was at first allowed to be. -/
def isContainer : Json → Bool
  | .array _ | .object _ => true
  | _ => false

/-- Carried unchanged by every JSON library. -/
inductive Portable : Json → Prop
  | null : Portable .null
  | bool (b : Bool) : Portable (.bool b)
  | int {n : ℤ} (h : -2 ^ 63 ≤ n ∧ n < 2 ^ 64) : Portable (.int n)
  | string (s : String) : Portable (.string s)
  | array {items : List Json} (h : ∀ j ∈ items, Portable j) : Portable (.array items)
  | object {ms : List (String × Json)} (sorted : ms.Pairwise fun a b => a.1 < b.1)
      (h : ∀ e ∈ ms, Portable e.2) : Portable (.object ms)

/-! ### Lookup in a list of members -/

/-- With distinct keys, a key's value is the one it is listed with. -/
theorem lookup_eq_some_iff_mem {ν : Type*} {ms : List (String × ν)} (h : (ms.map Prod.fst).Nodup) {k : String}
    {v : ν} : ms.lookup k = some v ↔ (k, v) ∈ ms := by
  induction ms with
  | nil => simp
  | cons e ms ih =>
    obtain ⟨k', v'⟩ := e
    rw [List.map_cons, List.nodup_cons] at h
    rw [List.lookup_cons, List.mem_cons, Prod.mk.injEq]
    by_cases hk : k = k'
    · subst hk
      have hnot : (k, v) ∉ ms := fun hmem => h.1 (List.mem_map.mpr ⟨_, hmem, rfl⟩)
      simp [hnot, eq_comm]
    · rw [beq_eq_false_iff_ne.mpr hk]
      simp only [hk, false_and, false_or]
      exact ih h.2

/-- With distinct keys, lookup does not depend on the order of the members. -/
theorem lookup_perm {ν : Type*} {ms ms' : List (String × ν)} (hp : ms.Perm ms') (h : (ms.map Prod.fst).Nodup)
    (k : String) : ms.lookup k = ms'.lookup k := by
  have h' : (ms'.map Prod.fst).Nodup := (hp.map Prod.fst).nodup_iff.mp h
  ext v
  rw [lookup_eq_some_iff_mem h, lookup_eq_some_iff_mem h', hp.mem_iff]

theorem member?_ofMembers {ms : List (String × Json)} (h : (ms.map Prod.fst).Nodup) (k : String) :
    (ofMembers ms).member? k = ms.lookup k :=
  (lookup_perm (List.mergeSort_perm ms _).symm h k).symm

/-- An object made of members with distinct keys has them in the order of the keys. -/
theorem ofMembers_sorted {ms : List (String × Json)} (h : (ms.map Prod.fst).Nodup) :
    ∃ ms', ofMembers ms = .object ms' ∧ ms'.Perm ms ∧ ms'.Pairwise fun a b => a.1 < b.1 := by
  have hperm := List.mergeSort_perm ms fun a b => decide (a.1 ≤ b.1)
  have hsorted : (ms.mergeSort fun a b => decide (a.1 ≤ b.1)).Pairwise fun a b => decide (a.1 ≤ b.1) :=
    List.pairwise_mergeSort
      (fun a b c hab hbc => by simpa using le_trans (of_decide_eq_true hab) (of_decide_eq_true hbc))
      (fun a b => by simpa using le_total a.1 b.1) ms
  have hnodup : ((ms.mergeSort fun a b => decide (a.1 ≤ b.1)).map Prod.fst).Nodup :=
    (hperm.map Prod.fst).nodup_iff.mpr h
  rw [List.Nodup, List.pairwise_map] at hnodup
  exact ⟨_, rfl, hperm, (hsorted.and hnodup).imp fun ⟨hle, hne⟩ => lt_of_le_of_ne (of_decide_eq_true hle) hne⟩

/-- Sorting makes an object of portable members portable. -/
theorem portable_ofMembers {ms : List (String × Json)} (h : (ms.map Prod.fst).Nodup)
    (hms : ∀ e ∈ ms, e.2.Portable) : (ofMembers ms).Portable := by
  obtain ⟨ms', heq, hperm, hsorted⟩ := ofMembers_sorted h
  rw [heq]
  exact .object hsorted fun e he => hms e (hperm.mem_iff.mp he)

end Json

end StudyDB
