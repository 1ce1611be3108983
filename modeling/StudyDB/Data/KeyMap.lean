import Mathlib.Data.List.Basic

/-! Finite maps whose keys are compared by a given equivalence, which need not
be equality. Storing under a key that is equivalent to a stored one replaces the
value and keeps the stored key; distinct entries never have equivalent keys.
Entries are kept in the order in which their keys were first stored, which
nothing here depends on. -/

namespace StudyDB

/-- A comparison of keys: a decidable equivalence. -/
structure KeyEq (κ : Type*) where
  eqv : κ → κ → Bool
  refl : ∀ a, eqv a a = true
  symm : ∀ {a b}, eqv a b = true → eqv b a = true
  trans : ∀ {a b c}, eqv a b = true → eqv b c = true → eqv a c = true

namespace KeyEq

variable {κ : Type*}

/-- Keys compared by what a function makes of them. -/
def on {β : Type*} [DecidableEq β] (f : κ → β) : KeyEq κ where
  eqv a b := decide (f a = f b)
  refl a := by simp
  symm h := by simpa using (of_decide_eq_true h).symm
  trans h₁ h₂ := by simpa using (of_decide_eq_true h₁).trans (of_decide_eq_true h₂)

/-- Keys compared by equality. -/
def ofDecidableEq (κ : Type*) [DecidableEq κ] : KeyEq κ := on id

@[simp] theorem ofDecidableEq_eqv [DecidableEq κ] (a b : κ) : (ofDecidableEq κ).eqv a b = decide (a = b) :=
  rfl

variable (E : KeyEq κ)

theorem comm (a b : κ) : E.eqv a b = E.eqv b a :=
  Bool.eq_iff_iff.mpr ⟨E.symm, E.symm⟩

/-- Equivalent keys are equivalent to the same keys. -/
theorem congr_left {a b : κ} (h : E.eqv a b = true) (c : κ) : E.eqv a c = E.eqv b c :=
  Bool.eq_iff_iff.mpr ⟨E.trans (E.symm h), E.trans h⟩

end KeyEq

/-- A map with keys compared by `E`. -/
@[ext] structure KeyMap (κ ν : Type*) (E : KeyEq κ) where
  entries : List (κ × ν)
  distinct : entries.Pairwise fun a b => E.eqv a.1 b.1 = false

namespace KeyMap

variable {κ ν : Type*} {E : KeyEq κ}

def empty : KeyMap κ ν E := ⟨[], .nil⟩

def get (m : KeyMap κ ν E) (k : κ) : Option ν :=
  (m.entries.find? fun e => E.eqv e.1 k).map Prod.snd

def keys (m : KeyMap κ ν E) : List κ := m.entries.map Prod.fst

def values (m : KeyMap κ ν E) : List ν := m.entries.map Prod.snd

def count (m : KeyMap κ ν E) : ℕ := m.entries.length

/-- Some stored key is equivalent to `k`. -/
def contains (m : KeyMap κ ν E) (k : κ) : Bool := m.entries.any fun e => E.eqv e.1 k

/-- Store `v` under `k`: in the entry of an equivalent key, else in a new one. -/
def set (m : KeyMap κ ν E) (k : κ) (v : ν) : KeyMap κ ν E :=
  if h : m.contains k = true then
    ⟨m.entries.map fun e => if E.eqv e.1 k then (e.1, v) else e, by
      rw [List.pairwise_map]
      refine m.distinct.imp fun {a b} hab => ?_
      split_ifs <;> exact hab⟩
  else
    ⟨m.entries ++ [(k, v)], by
      rw [List.pairwise_append]
      refine ⟨m.distinct, List.pairwise_singleton _ _, fun a ha b hb => ?_⟩
      rw [List.mem_singleton.mp hb]
      simp only [contains, List.any_eq_true, not_exists, not_and, Bool.not_eq_true] at h
      exact h a ha⟩

def remove (m : KeyMap κ ν E) (k : κ) : KeyMap κ ν E :=
  ⟨m.entries.filter fun e => !E.eqv e.1 k, m.distinct.sublist List.filter_sublist⟩

/-- Assign through an optional: a value is stored, `none` removes the key. -/
def assign (m : KeyMap κ ν E) (k : κ) : Option ν → KeyMap κ ν E
  | some v => m.set k v
  | none => m.remove k

/-- Store the entries of a list one after the other. -/
def ofList (l : List (κ × ν)) : KeyMap κ ν E := l.foldl (fun m e => m.set e.1 e.2) empty

@[simp] theorem get_empty (k : κ) : (empty : KeyMap κ ν E).get k = none := rfl

theorem contains_iff {m : KeyMap κ ν E} {k : κ} :
    m.contains k = true ↔ ∃ e ∈ m.entries, E.eqv e.1 k = true := by
  simp [contains]

theorem get_eq_none_iff {m : KeyMap κ ν E} {k : κ} : m.get k = none ↔ m.contains k = false := by
  simp [get, contains]

theorem exists_mem_of_get {m : KeyMap κ ν E} {k : κ} {v : ν} (h : m.get k = some v) :
    ∃ e ∈ m.entries, E.eqv e.1 k = true := by
  rw [← contains_iff]
  by_contra hc
  rw [get_eq_none_iff.mpr (Bool.eq_false_iff.mpr hc)] at h
  cases h

private theorem find_replace_of_ne {k k' : κ} {v : ν} (hk : E.eqv k k' = false) (l : List (κ × ν)) :
    ((l.map fun e => if E.eqv e.1 k then (e.1, v) else e).find? fun e => E.eqv e.1 k').map Prod.snd =
      (l.find? fun e => E.eqv e.1 k').map Prod.snd := by
  induction l with
  | nil => rfl
  | cons e l ih =>
    rw [List.map_cons, List.find?_cons, List.find?_cons]
    by_cases he : E.eqv e.1 k = true
    · have hk' : E.eqv e.1 k' = false := (E.congr_left he k').trans hk
      simpa only [he, if_true, hk'] using ih
    · simp only [he, Bool.false_eq_true, if_false]
      cases E.eqv e.1 k' with
      | true => rfl
      | false => exact ih

private theorem find_replace_of_eqv {k k' : κ} {v : ν} (hk : E.eqv k k' = true) {l : List (κ × ν)}
    (hl : ∃ e ∈ l, E.eqv e.1 k = true) :
    ((l.map fun e => if E.eqv e.1 k then (e.1, v) else e).find? fun e => E.eqv e.1 k').map Prod.snd =
      some v := by
  induction l with
  | nil => simp at hl
  | cons e l ih =>
    rw [List.map_cons, List.find?_cons]
    by_cases he : E.eqv e.1 k = true
    · simp [he, (E.congr_left he k').trans hk]
    · have hk' : E.eqv e.1 k' = false := by
        rw [Bool.eq_false_iff]
        exact fun h => he (E.trans h (E.symm hk))
      simp only [he, Bool.false_eq_true, if_false, hk']
      exact ih (by simpa [he] using hl)

theorem get_set (m : KeyMap κ ν E) (k k' : κ) (v : ν) :
    (m.set k v).get k' = if E.eqv k k' then some v else m.get k' := by
  unfold set
  split
  · rename_i h
    cases hk : E.eqv k k' with
    | true => exact find_replace_of_eqv hk (contains_iff.mp h)
    | false => exact find_replace_of_ne hk m.entries
  · rename_i h
    simp only [get, List.find?_append, List.find?_singleton]
    cases hk : E.eqv k k' with
    | false => simp
    | true =>
      have hnone : (m.entries.find? fun e => E.eqv e.1 k') = none := by
        rw [List.find?_eq_none]
        exact fun e he hek => h (contains_iff.mpr ⟨e, he, E.trans hek (E.symm hk)⟩)
      simp [hnone]

/-- Values stored one after the other: the last one under the key counts. -/
theorem get_foldl_set (l : List (κ × ν)) (m : KeyMap κ ν E) (k : κ) :
    (l.foldl (fun m e => m.set e.1 e.2) m).get k =
      (((l.filter fun e => E.eqv e.1 k).getLast?).map Prod.snd).or (m.get k) := by
  induction l generalizing m with
  | nil => rfl
  | cons e l ih =>
    rw [List.foldl_cons, ih, get_set, List.filter_cons]
    cases E.eqv e.1 k with
    | false => rfl
    | true =>
      rw [if_pos rfl, if_pos rfl, List.getLast?_cons]
      cases (l.filter fun e => E.eqv e.1 k).getLast? <;> rfl

theorem get_ofList (l : List (κ × ν)) (k : κ) :
    (ofList l : KeyMap κ ν E).get k = ((l.filter fun e => E.eqv e.1 k).getLast?).map Prod.snd := by
  rw [ofList, get_foldl_set, get_empty, Option.or_none]

theorem get_remove (m : KeyMap κ ν E) (k k' : κ) :
    (m.remove k).get k' = if E.eqv k k' then none else m.get k' := by
  simp only [get, remove, List.find?_filter]
  cases hk : E.eqv k k' with
  | true =>
    have : (m.entries.find? fun e => !E.eqv e.1 k && E.eqv e.1 k') = none := by
      simp only [List.find?_eq_none, Bool.and_eq_true, Bool.not_eq_true', not_and]
      intro e _ hek hek'
      rw [E.trans hek' (E.symm hk)] at hek
      cases hek
    simp [this]
  | false =>
    have : (fun e : κ × ν => !E.eqv e.1 k && E.eqv e.1 k') = fun e => E.eqv e.1 k' := by
      funext e
      cases he : E.eqv e.1 k with
      | true => simp [(E.congr_left he k').trans hk]
      | false => simp
    simp [this]

theorem get_assign (m : KeyMap κ ν E) (k k' : κ) (v : Option ν) :
    (m.assign k v).get k' = if E.eqv k k' then v else m.get k' := by
  cases v with
  | some v => exact get_set m k k' v
  | none => exact get_remove m k k'

/-- Every stored value satisfies `P`. -/
def All (P : ν → Prop) (m : KeyMap κ ν E) : Prop := ∀ e ∈ m.entries, P e.2

section All
variable {P : ν → Prop} {m : KeyMap κ ν E}

theorem All.empty : (KeyMap.empty : KeyMap κ ν E).All P := fun _ he => absurd he List.not_mem_nil

theorem All.set (h : m.All P) {v : ν} (hv : P v) (k : κ) : (m.set k v).All P := by
  intro e he
  unfold KeyMap.set at he
  split at he
  · obtain ⟨a, ha, rfl⟩ := List.mem_map.mp he
    split_ifs
    · exact hv
    · exact h a ha
  · rcases List.mem_append.mp he with he | he
    · exact h e he
    · rw [List.mem_singleton.mp he]
      exact hv

theorem All.remove (h : m.All P) (k : κ) : (m.remove k).All P :=
  fun e he => h e (List.mem_filter.mp he).1

theorem All.assign (h : m.All P) {o : Option ν} (ho : ∀ v ∈ o, P v) (k : κ) : (m.assign k o).All P := by
  cases o with
  | none => exact h.remove k
  | some v => exact h.set (ho v rfl) k

end All

theorem set_of_not_contains {m : KeyMap κ ν E} {k : κ} (h : m.contains k = false) (v : ν) :
    (m.set k v).entries = m.entries ++ [(k, v)] := by
  simp [set, h]

/-- Entries with distinct keys make the map that has these entries. -/
theorem ofList_eq {l : List (κ × ν)} (h : l.Pairwise fun a b => E.eqv a.1 b.1 = false) :
    (ofList l : KeyMap κ ν E) = ⟨l, h⟩ := by
  have key : ∀ (l : List (κ × ν)) (m : KeyMap κ ν E),
      (m.entries ++ l).Pairwise (fun a b => E.eqv a.1 b.1 = false) →
      (l.foldl (fun m e => m.set e.1 e.2) m).entries = m.entries ++ l := by
    intro l
    induction l with
    | nil => simp
    | cons e l ih =>
      intro m hm
      have hnot : m.contains e.1 = false := by
        rw [Bool.eq_false_iff, ne_eq, contains_iff]
        rintro ⟨e', he', heq⟩
        rw [(List.pairwise_append.mp hm).2.2 e' he' e List.mem_cons_self] at heq
        cases heq
      have hset := set_of_not_contains hnot e.2
      rw [List.append_cons, ← hset] at hm
      rw [List.foldl_cons, ih _ hm, hset, List.append_assoc, List.singleton_append]
  exact KeyMap.ext (key l empty h)

theorem ofList_entries (m : KeyMap κ ν E) : ofList m.entries = m := ofList_eq m.distinct

/-! ### Images

A map of values of one kind and keys of one comparison, entered entry for entry in
a map of another kind and comparison. The two stay so as long as the comparisons
agree on the keys that are stored. -/

section Image

variable {κ' ν' : Type*} {F : KeyEq κ'}

/-- The comparison of `f k` with every `f k'` is that of `k` with `k'`. -/
def Respects (E : KeyEq κ) (F : KeyEq κ') (f : κ → κ') (k : κ) : Prop :=
  ∀ k', E.eqv k k' = F.eqv (f k) (f k')

/-- The entries of `m'` are those of `m`, translated. -/
def Image (f : κ → κ') (g : ν → ν') (m : KeyMap κ ν E) (m' : KeyMap κ' ν' F) : Prop :=
  m'.entries = m.entries.map (Prod.map f g)

variable {f : κ → κ'} {g : ν → ν'} {m : KeyMap κ ν E} {m' : KeyMap κ' ν' F}

theorem Image.empty : Image f g (KeyMap.empty : KeyMap κ ν E) (KeyMap.empty : KeyMap κ' ν' F) := rfl

section Respected
variable (h : Image f g m m') (hm : ∀ e ∈ m.entries, Respects E F f e.1)
include h hm

theorem Image.get (k : κ) : m'.get (f k) = (m.get k).map g := by
  have hfind : m.entries.find? ((fun e => F.eqv e.1 (f k)) ∘ Prod.map f g) =
      m.entries.find? fun e => E.eqv e.1 k := by
    rw [← List.head?_filter, ← List.head?_filter]
    apply congrArg
    apply List.filter_congr
    intro e he
    exact (hm e he k).symm
  rw [KeyMap.get, h, List.find?_map, hfind, KeyMap.get, Option.map_map, Option.map_map]
  rfl

theorem Image.contains (k : κ) : m'.contains (f k) = m.contains k := by
  rw [Bool.eq_iff_iff, contains_iff, contains_iff, h]
  simp only [List.mem_map, exists_exists_and_eq_and, Prod.map_fst]
  exact exists_congr fun e => and_congr_right fun he => by rw [hm e he k]

theorem Image.set (k : κ) (v : ν) : Image f g (m.set k v) (m'.set (f k) (g v)) := by
  have hc := h.contains hm k
  unfold KeyMap.set Image
  by_cases hk : m.contains k = true
  · rw [dif_pos hk, dif_pos (hc.trans hk)]
    dsimp only
    rw [h, List.map_map, List.map_map]
    apply List.map_congr_left
    intro e he
    show (if F.eqv (f e.1) (f k) = true then (f e.1, g v) else (f e.1, g e.2)) = _
    rw [← hm e he k]
    show _ = Prod.map f g (if E.eqv e.1 k = true then (e.1, v) else e)
    split_ifs <;> rfl
  · rw [dif_neg hk, dif_neg (hc ▸ hk)]
    dsimp only
    rw [h, List.map_append]
    rfl

theorem Image.remove (k : κ) : Image f g (m.remove k) (m'.remove (f k)) := by
  unfold KeyMap.remove Image
  dsimp only
  rw [h, List.filter_map]
  apply congrArg
  apply List.filter_congr
  intro e he
  show (!F.eqv (f e.1) (f k)) = !E.eqv e.1 k
  rw [hm e he k]

theorem Image.assign (k : κ) (v : Option ν) : Image f g (m.assign k v) (m'.assign (f k) (v.map g)) := by
  cases v with
  | none => exact h.remove hm k
  | some v => exact h.set hm k v

/-- Storing under `k` keeps an image readable only where `k` is compared alike. -/
theorem Image.respects_of_get {c : ν' → Option ν} {k : κ} {v : ν} (hc : c (g v) = some v)
    (hget : ∀ k', ((m'.set (f k) (g v)).get (f k')).bind c = (m.set k v).get k') : Respects E F f k := by
  intro k'
  have hk' := hget k'
  rw [get_set, get_set] at hk'
  -- a stored key compared with `k` and `k'` carries the comparison of the two over
  have hstored : ∀ e ∈ m.entries, E.eqv e.1 k' = true → E.eqv k k' = F.eqv (f k) (f k') := by
    intro e he hek'
    have hfe : F.eqv (f e.1) (f k') = true := (hm e he k').symm.trans hek'
    rw [E.comm k, F.comm (f k), ← E.congr_left hek' k, ← F.congr_left hfe (f k), hm e he k]
  cases hE : E.eqv k k' with
  | true =>
    cases hF : F.eqv (f k) (f k') with
    | true => rfl
    | false =>
      rw [hE, hF, h.get hm k'] at hk'
      cases hg : m.get k' with
      | none =>
        rw [hg] at hk'
        cases hk'
      | some w =>
        obtain ⟨e, he, hek'⟩ := exists_mem_of_get hg
        rw [← hE, ← hF]
        exact hstored e he hek'
  | false =>
    cases hF : F.eqv (f k) (f k') with
    | false => rfl
    | true =>
      rw [hE, hF] at hk'
      obtain ⟨e, he, hek'⟩ := exists_mem_of_get (hk'.symm.trans hc)
      rw [← hE, ← hF]
      exact hstored e he hek'

end Respected

/-- The keys stored after an assignment were there, or the key is now. -/
theorem fst_mem_assign {k : κ} {v : Option ν} {e : κ × ν} (he : e ∈ (m.assign k v).entries) :
    (∃ e' ∈ m.entries, e'.1 = e.1) ∨ (e.1 = k ∧ v ≠ none) := by
  cases v with
  | none => exact .inl ⟨e, (List.mem_filter.mp he).1, rfl⟩
  | some v =>
    change e ∈ (m.set k v).entries at he
    unfold KeyMap.set at he
    split at he
    · obtain ⟨e', he', rfl⟩ := List.mem_map.mp he
      refine .inl ⟨e', he', ?_⟩
      split_ifs <;> rfl
    · rcases List.mem_append.mp he with he | he
      · exact .inl ⟨e, he, rfl⟩
      · rw [List.mem_singleton.mp he]
        exact .inr ⟨rfl, Option.some_ne_none v⟩

end Image

end KeyMap

end StudyDB
