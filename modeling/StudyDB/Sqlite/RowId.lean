import Mathlib.Algebra.Group.Int.Defs
import Mathlib.Algebra.Group.Nat.Defs
import Mathlib.Data.List.Basic

/-! Tables whose integer primary key numbers the rows by itself: their rows stand in
the order of the key. Proved: rows that come without a number are appended; what the rows
are made of does not matter to an insertion. -/

namespace StudyDB.Sqlite

/-- A table's rows under their keys, in the order in which a scan meets them. -/
structure RowIdTable (ρ : Type*) where
  entries : List (Int64 × ρ)
  sorted : entries.Pairwise fun a b => a.1 < b.1
  /-- No file is large enough for more rows. -/
  length_lt : entries.length < 2 ^ 63

namespace RowIdTable
variable {ρ : Type*}

@[ext] theorem ext {T T' : RowIdTable ρ} (h : T.entries = T'.entries) : T = T' := by
  cases T
  cases T'
  cases h
  rfl

def empty : RowIdTable ρ := ⟨[], .nil, Nat.pow_pos (by decide)⟩

def ids (T : RowIdTable ρ) : List Int64 := T.entries.map Prod.fst

theorem nodup_ids (T : RowIdTable ρ) : T.ids.Nodup := by
  rw [ids, List.Nodup, List.pairwise_map]
  exact T.sorted.imp fun h => Int64.ne_of_lt h

/-- The largest key there ever was: no row is deleted but to be replaced. -/
def sequence (T : RowIdTable ρ) : ℤ := T.ids.foldl (fun n id => max n id.toInt) 0

/-- The entries with the one under the key put in, in the place of an old one. -/
def put (id : Int64) (row : ρ) (entries : List (Int64 × ρ)) : List (Int64 × ρ) :=
  (entries.filter fun e => e.1 < id) ++ (id, row) :: entries.filter fun e => id < e.1

theorem sorted_put (id : Int64) (row : ρ) {entries : List (Int64 × ρ)} (h : entries.Pairwise fun a b => a.1 < b.1) :
    (put id row entries).Pairwise fun a b => a.1 < b.1 := by
  rw [put, List.pairwise_append, List.pairwise_cons]
  refine ⟨h.filter _, ⟨fun e he => ?_, h.filter _⟩, fun a ha b hb => ?_⟩
  · exact of_decide_eq_true (List.mem_filter.mp he).2
  · have hlt : a.1 < id := of_decide_eq_true (List.mem_filter.mp ha).2
    rcases List.mem_cons.mp hb with rfl | hb
    · exact hlt
    · exact Int64.lt_trans hlt (of_decide_eq_true (List.mem_filter.mp hb).2)

/-- INSERT OR REPLACE. A row without a key gets the next one, and there may be none
left, or no space. -/
def insertOrReplace (id : Option Int64) (row : ρ) (T : RowIdTable ρ) : Option (RowIdTable ρ) :=
  match id with
  | some id =>
    if h : (put id row T.entries).length < 2 ^ 63 then some ⟨_, sorted_put id row T.sorted, h⟩ else none
  | none =>
    if T.sequence < 2 ^ 63 - 1 then
      let id := Int64.ofInt (T.sequence + 1)
      if h : (put id row T.entries).length < 2 ^ 63 then some ⟨_, sorted_put id row T.sorted, h⟩ else none
    else none

/-- Several rows in one transaction. -/
def insertOrReplaceAll (rows : List (Option Int64 × ρ)) (T : RowIdTable ρ) : Option (RowIdTable ρ) :=
  rows.foldlM (fun T r => T.insertOrReplace r.1 r.2) T

/-! ### Rows without a key -/

theorem le_foldl_max (ids : List Int64) (n : ℤ) : n ≤ ids.foldl (fun n id => max n id.toInt) n := by
  induction ids generalizing n with
  | nil => exact Int.le_refl n
  | cons id ids ih => exact Int.le_trans (Int.le_max_left n id.toInt) (ih _)

theorem toInt_le_sequence (T : RowIdTable ρ) {id : Int64} (h : id ∈ T.ids) : id.toInt ≤ T.sequence := by
  rw [sequence]
  generalize T.ids = ids at h
  generalize (0 : ℤ) = n
  induction ids generalizing n with
  | nil => cases h
  | cons id' ids ih =>
    rcases List.mem_cons.mp h with rfl | h
    · exact Int.le_trans (Int.le_max_right n id.toInt) (le_foldl_max ids _)
    · exact ih h _

theorem sequence_nonneg (T : RowIdTable ρ) : 0 ≤ T.sequence := le_foldl_max T.ids 0

/-- A row without a key comes last. -/
theorem entries_insertOrReplace_none {T T' : RowIdTable ρ} {row : ρ} (h : T.insertOrReplace none row = some T') :
    T'.entries = T.entries ++ [(Int64.ofInt (T.sequence + 1), row)] := by
  simp only [insertOrReplace] at h
  split_ifs at h with hseq
  obtain rfl := Option.some.inj h
  have hnonneg := T.sequence_nonneg
  have hid : (Int64.ofInt (T.sequence + 1)).toInt = T.sequence + 1 :=
    Int64.toInt_ofInt_of_le (by omega) (by omega)
  have hlt : ∀ e ∈ T.entries, e.1 < Int64.ofInt (T.sequence + 1) := fun e he => by
    have hle := T.toInt_le_sequence (List.mem_map_of_mem he)
    rw [Int64.lt_iff_toInt_lt, hid]
    omega
  have hbelow : (T.entries.filter fun e => e.1 < Int64.ofInt (T.sequence + 1)) = T.entries :=
    List.filter_eq_self.mpr fun e he => decide_eq_true (hlt e he)
  have habove : (T.entries.filter fun e => Int64.ofInt (T.sequence + 1) < e.1) = [] :=
    List.filter_eq_nil_iff.mpr fun e he hgt => Int64.lt_irrefl (Int64.lt_trans (hlt e he) (of_decide_eq_true hgt))
  simp only [put, hbelow, habove]

/-- Rows without keys are appended in their order. -/
theorem rows_insertOrReplaceAll_none {T T' : RowIdTable ρ} {rows : List ρ}
    (h : T.insertOrReplaceAll (rows.map fun r => (none, r)) = some T') :
    T'.entries.map Prod.snd = T.entries.map Prod.snd ++ rows := by
  induction rows generalizing T with
  | nil =>
    obtain rfl := Option.some.inj h
    simp
  | cons r rows ih =>
    rw [insertOrReplaceAll, List.map_cons, List.foldlM_cons] at h
    obtain ⟨T₁, h₁, hrest⟩ := Option.bind_eq_some_iff.mp h
    rw [ih hrest, entries_insertOrReplace_none h₁]
    simp

/-! ### What the rows have in common -/

section Forall
variable {P : ρ → Prop} {T T' : RowIdTable ρ}

theorem forall_insertOrReplace {key : Option Int64} {row : ρ} (h : T.insertOrReplace key row = some T') (hrow : P row)
    (hT : ∀ e ∈ T.entries, P e.2) : ∀ e ∈ T'.entries, P e.2 := by
  have hput : ∀ id, ∀ e ∈ put id row T.entries, P e.2 := fun id e he => by
    rcases List.mem_append.mp he with he | he
    · exact hT e (List.mem_filter.mp he).1
    · rcases List.mem_cons.mp he with rfl | he
      · exact hrow
      · exact hT e (List.mem_filter.mp he).1
  cases key with
  | some key =>
    simp only [insertOrReplace] at h
    split_ifs at h
    obtain rfl := Option.some.inj h
    exact hput key
  | none =>
    simp only [insertOrReplace] at h
    split_ifs at h
    obtain rfl := Option.some.inj h
    exact hput _

theorem forall_insertOrReplaceAll {rows : List (Option Int64 × ρ)} (h : T.insertOrReplaceAll rows = some T')
    (hrows : ∀ r ∈ rows, P r.2) (hT : ∀ e ∈ T.entries, P e.2) : ∀ e ∈ T'.entries, P e.2 := by
  induction rows generalizing T with
  | nil =>
    obtain rfl := Option.some.inj h
    exact hT
  | cons r rows ih =>
    rw [insertOrReplaceAll, List.foldlM_cons] at h
    obtain ⟨T₁, h₁, hrest⟩ := Option.bind_eq_some_iff.mp h
    have hT₁ := forall_insertOrReplace h₁ (hrows r List.mem_cons_self) hT
    exact ih hrest (fun r' hr' => hrows r' (List.mem_cons_of_mem r hr')) hT₁

end Forall

/-! ### Tables of other rows -/

section Map
variable {σ : Type*} (f : ρ → σ)

/-- The table with other rows under the same keys. -/
def map (T : RowIdTable ρ) : RowIdTable σ where
  entries := T.entries.map (Prod.map id f)
  sorted := List.pairwise_map.mpr T.sorted
  length_lt := by
    rw [List.length_map]
    exact T.length_lt

theorem sequence_map (T : RowIdTable ρ) : (T.map f).sequence = T.sequence := by
  rw [sequence, sequence, ids, ids, map, List.map_map]
  rfl

theorem put_map (key : Int64) (row : ρ) (entries : List (Int64 × ρ)) :
    put key (f row) (entries.map (Prod.map id f)) = (put key row entries).map (Prod.map id f) := by
  rw [put, put, List.map_append, List.map_cons, List.filter_map, List.filter_map]
  rfl

theorem insertOrReplace_some_map (key : Int64) (row : ρ) (T : RowIdTable ρ) :
    (T.map f).insertOrReplace (some key) (f row) = (T.insertOrReplace (some key) row).map (map f) := by
  have hput : put key (f row) (T.map f).entries = (put key row T.entries).map (Prod.map id f) := put_map f key row _
  have hlength : (put key (f row) (T.map f).entries).length = (put key row T.entries).length := by
    rw [hput, List.length_map]
  simp only [insertOrReplace]
  by_cases h : (put key row T.entries).length < 2 ^ 63
  · rw [dif_pos h, dif_pos (hlength ▸ h)]
    exact congrArg some (ext hput)
  · rw [dif_neg h, dif_neg (hlength ▸ h)]
    rfl

/-- A row without a key is a row under the next one. -/
theorem insertOrReplace_none (row : ρ) (T : RowIdTable ρ) :
    T.insertOrReplace none row =
      if T.sequence < 2 ^ 63 - 1 then T.insertOrReplace (some (Int64.ofInt (T.sequence + 1))) row else none := rfl

theorem insertOrReplace_map (key : Option Int64) (row : ρ) (T : RowIdTable ρ) :
    (T.map f).insertOrReplace key (f row) = (T.insertOrReplace key row).map (map f) := by
  cases key with
  | some key => exact insertOrReplace_some_map f key row T
  | none =>
    rw [insertOrReplace_none, insertOrReplace_none, sequence_map]
    split_ifs
    · exact insertOrReplace_some_map f _ row T
    · rfl

theorem insertOrReplaceAll_map (rows : List (Option Int64 × ρ)) (T : RowIdTable ρ) :
    (T.map f).insertOrReplaceAll (rows.map (Prod.map id f)) = (T.insertOrReplaceAll rows).map (map f) := by
  induction rows generalizing T with
  | nil => rfl
  | cons r rows ih =>
    rw [insertOrReplaceAll, insertOrReplaceAll, List.map_cons, List.foldlM_cons, List.foldlM_cons, Prod.map_fst,
      Prod.map_snd, id_eq, insertOrReplace_map]
    cases T.insertOrReplace r.1 r.2 with
    | none => rfl
    | some T' => exact ih T'

end Map

end RowIdTable

end StudyDB.Sqlite
