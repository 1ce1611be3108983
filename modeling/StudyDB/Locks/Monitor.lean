import Mathlib.Algebra.BigOperators.Group.Finset.Piecewise
import Mathlib.Algebra.GroupWithZero.Nat
import Mathlib.Algebra.Order.BigOperators.Group.Finset
import Mathlib.Data.List.Basic
import Mathlib.Logic.Function.Basic

/-! Monitors: a state that threads change by calls, one section of a call at a time. A
section ends where the call returns, or where it waits on a condition; the thread goes on
with its next section only after it was woken, by a section of another thread or, as
condition variables may, for no reason. Proved: what every section keeps holds after every
run of any threads. -/

namespace StudyDB

/-! ### Sections -/

/-- How a section ends: the call waits at a place, or it returns. -/
inductive Ends (Place Answer : Type*) where
  | wait (place : Place)
  | done (answer : Answer)

/-- A section: the state that it leaves, whom it wakes where, and how it ends. -/
structure Section (State Thread Place Answer : Type*) where
  state : State
  wakes : Place → Thread → Bool := fun _ _ => false
  ends : Ends Place Answer

/-- The sections of the calls, and what the callers promise of a call. -/
structure Monitor (State Thread Call Place Answer : Type*) where
  promised : Call → State → Bool := fun _ _ => true
  enter : Thread → Call → State → Section State Thread Place Answer
  resume : Thread → Call → Place → State → Section State Thread Place Answer

namespace Monitor

/-- Where a thread is; a woken thread waits for the monitor only. -/
inductive Phase (Call Place : Type*) where
  | outside
  | waiting (call : Call) (place : Place) (woken : Bool)

inductive Event (Thread Call : Type*) where
  | call (t : Thread) (c : Call)
  | resume (t : Thread)
  | spurious (t : Thread)

/-- The state, where the threads are, and what the last call of each came to. -/
structure World (State Thread Call Place Answer : Type*) where
  state : State
  phase : Thread → Phase Call Place
  answer : Thread → Option Answer

variable {State Thread Call Place Answer : Type*}

/-! ### Who waits where -/

namespace Phase

def wake (wakes : Place → Bool) : Phase Call Place → Phase Call Place
  | .outside => .outside
  | .waiting c p woken => .waiting c p (woken || wakes p)

variable [DecidableEq Place]

/-- The thread waits at a place. -/
def isAt (p : Place) : Phase Call Place → Bool
  | .outside => false
  | .waiting _ q _ => q = p

/-- The thread waits at a place and was woken. -/
def isWoken (p : Place) : Phase Call Place → Bool
  | .outside => false
  | .waiting _ q woken => q = p && woken

theorem isAt_wake (wakes : Place → Bool) (ph : Phase Call Place) (p : Place) :
    (ph.wake wakes).isAt p = ph.isAt p := by
  cases ph <;> rfl

theorem isWoken_wake (wakes : Place → Bool) (ph : Phase Call Place) (p : Place) :
    (ph.wake wakes).isWoken p = (ph.isWoken p || ph.isAt p && wakes p) := by
  cases ph with
  | outside => rfl
  | waiting c q woken =>
    by_cases hq : q = p
    · simp [wake, isWoken, isAt, hq]
    · simp [wake, isWoken, isAt, hq]

theorem isAt_of_isWoken {ph : Phase Call Place} {p : Place} (h : ph.isWoken p = true) : ph.isAt p = true := by
  cases ph with
  | outside => cases h
  | waiting c q woken => exact (Bool.and_eq_true_iff.mp h).1

end Phase

namespace World
variable [DecidableEq Place] {w : World State Thread Call Place Answer} {t : Thread} {c : Call} {p : Place}

def At (w : World State Thread Call Place Answer) (p : Place) (t : Thread) : Prop := (w.phase t).isAt p

def Woken (w : World State Thread Call Place Answer) (p : Place) (t : Thread) : Prop := (w.phase t).isWoken p

instance : Decidable (w.At p t) := inferInstanceAs (Decidable (_ = true))

instance : Decidable (w.Woken p t) := inferInstanceAs (Decidable (_ = true))

/-- Thread `t` waits at a place, in a call. -/
def Waits (w : World State Thread Call Place Answer) (c : Call) (p : Place) (t : Thread) : Prop :=
  ∃ woken, w.phase t = .waiting c p woken

theorem Woken.at (h : w.Woken p t) : w.At p t := Phase.isAt_of_isWoken h

theorem Woken.phase (h : w.Woken p t) : ∃ c, w.phase t = .waiting c p true := by
  unfold Woken at h
  cases hp : w.phase t with
  | outside => simp [hp, Phase.isWoken] at h
  | waiting c q woken =>
    simp only [hp, Phase.isWoken, Bool.and_eq_true, decide_eq_true_eq] at h
    exact ⟨c, by rw [h.1, h.2]⟩

theorem at_iff_of_phase {q : Place} {woken : Bool} (h : w.phase t = .waiting c p woken) : w.At q t ↔ p = q := by
  simp [At, h, Phase.isAt]

theorem not_at_of_outside (h : w.phase t = .outside) : ¬ w.At p t := by
  simp [At, h, Phase.isAt]

end World

/-! ### Runs -/

/-- Where a thread is after a section of its own. -/
def Phase.ofEnds (c : Call) : Ends Place Answer → Phase Call Place
  | .wait p => .waiting c p false
  | .done _ => .outside

/-- What the section returns, if it does. -/
def answerOfEnds : Ends Place Answer → Option Answer
  | .wait _ => none
  | .done a => some a

namespace World

/-- Before any call. -/
def start (x : State) : World State Thread Call Place Answer := ⟨x, fun _ => .outside, fun _ => none⟩

variable [DecidableEq Thread] (w : World State Thread Call Place Answer)

/-- Thread `t` runs a section of its call `c`. -/
def after (t : Thread) (c : Call) (s : Section State Thread Place Answer) : World State Thread Call Place Answer where
  state := s.state
  phase := Function.update (fun u => (w.phase u).wake fun p => s.wakes p u) t (Phase.ofEnds c s.ends)
  answer := Function.update w.answer t (answerOfEnds s.ends)

/-- Thread `t` is woken for no reason. -/
def wakeUp (t : Thread) : World State Thread Call Place Answer :=
  { w with phase := Function.update w.phase t ((w.phase t).wake fun _ => true) }

end World

variable [DecidableEq Thread] (M : Monitor State Thread Call Place Answer)

/-- A thread outside may call, a woken one may go on, and one that waits may be woken. -/
def step (w : World State Thread Call Place Answer) : Event Thread Call → Option (World State Thread Call Place Answer)
  | .call t c =>
    match w.phase t with
    | .outside => if M.promised c w.state then some (w.after t c (M.enter t c w.state)) else none
    | .waiting .. => none
  | .resume t =>
    match w.phase t with
    | .waiting c p true => some (w.after t c (M.resume t c p w.state))
    | _ => none
  | .spurious t =>
    match w.phase t with
    | .waiting _ _ false => some (w.wakeUp t)
    | _ => none

def run (events : List (Event Thread Call)) (w : World State Thread Call Place Answer) :
    Option (World State Thread Call Place Answer) := events.foldlM M.step w

variable {M} {w w' : World State Thread Call Place Answer}

/-- What an event can have been. -/
theorem step_cases {e : Event Thread Call} (h : M.step w e = some w') :
    (∃ t c, e = .call t c ∧ w.phase t = .outside ∧ M.promised c w.state ∧ w' = w.after t c (M.enter t c w.state)) ∨
    (∃ t c p, e = .resume t ∧ w.phase t = .waiting c p true ∧ w' = w.after t c (M.resume t c p w.state)) ∨
    ∃ t c p, e = .spurious t ∧ w.phase t = .waiting c p false ∧ w' = w.wakeUp t := by
  cases e with
  | call t c =>
    cases hp : w.phase t with
    | outside =>
      simp only [step, hp, Option.ite_none_right_eq_some] at h
      exact .inl ⟨t, c, rfl, hp, h.1, (Option.some.inj h.2).symm⟩
    | waiting c' p woken => simp [step, hp] at h
  | resume t =>
    cases hp : w.phase t with
    | outside => simp [step, hp] at h
    | waiting c p woken =>
      cases woken with
      | true =>
        simp only [step, hp] at h
        exact .inr (.inl ⟨t, c, p, rfl, hp, (Option.some.inj h).symm⟩)
      | false => simp [step, hp] at h
  | spurious t =>
    cases hp : w.phase t with
    | outside => simp [step, hp] at h
    | waiting c p woken =>
      cases woken with
      | true => simp [step, hp] at h
      | false =>
        simp only [step, hp] at h
        exact .inr (.inr ⟨t, c, p, rfl, hp, (Option.some.inj h).symm⟩)

theorem step_resume {t : Thread} {c : Call} {p : Place} (h : w.phase t = .waiting c p true) :
    M.step w (.resume t) = some (w.after t c (M.resume t c p w.state)) := by
  simp [step, h]

/-- What every event of a kind keeps, runs of such events keep. -/
theorem run_invariant {I : World State Thread Call Place Answer → Prop} {K : Event Thread Call → Prop}
    (hstep : ∀ {w w' e}, K e → I w → M.step w e = some w' → I w') {events : List (Event Thread Call)}
    (hevents : ∀ e ∈ events, K e) (h : I w) (hrun : M.run events w = some w') : I w' := by
  induction events generalizing w with
  | nil =>
    cases hrun
    exact h
  | cons e events ih =>
    rw [run, List.foldlM_cons, Option.bind_eq_bind, Option.bind_eq_some_iff] at hrun
    obtain ⟨w₁, he, hrun⟩ := hrun
    exact ih (fun e' he' => hevents e' (List.mem_cons_of_mem e he')) (hstep (hevents e List.mem_cons_self) h he) hrun

section Tally
variable {change change' :
  World State Thread Call Place Answer → Event Thread Call → World State Thread Call Place Answer → ℤ}

/-- What the events of a run change of a count, by the world before and after each. -/
def tally (M : Monitor State Thread Call Place Answer)
    (change : World State Thread Call Place Answer → Event Thread Call → World State Thread Call Place Answer → ℤ) :
    List (Event Thread Call) → World State Thread Call Place Answer → ℤ
  | [], _ => 0
  | e :: events, w =>
    match M.step w e with
    | none => 0
    | some w' => change w e w' + M.tally change events w'

theorem tally_add (events : List (Event Thread Call)) (w : World State Thread Call Place Answer) :
    M.tally (fun w e w' => change w e w' + change' w e w') events w =
      M.tally change events w + M.tally change' events w := by
  induction events generalizing w with
  | nil => rfl
  | cons e events ih =>
    cases he : M.step w e with
    | none => simp only [tally, he, Int.add_zero]
    | some w' =>
      simp only [tally, he, ih]
      omega

/-- A count that every event changes as it should has, after a run, changed by the tally. -/
theorem tally_of_run {I : World State Thread Call Place Answer → Prop}
    {count : World State Thread Call Place Answer → ℤ}
    (hstep : ∀ {w w' e}, I w → M.step w e = some w' → I w' ∧ count w' = count w + change w e w')
    {events : List (Event Thread Call)} (h : I w) (hrun : M.run events w = some w') :
    count w' = count w + M.tally change events w := by
  induction events generalizing w with
  | nil =>
    cases hrun
    exact (Int.add_zero _).symm
  | cons e events ih =>
    rw [run, List.foldlM_cons, Option.bind_eq_bind, Option.bind_eq_some_iff] at hrun
    obtain ⟨w₁, he, hrun⟩ := hrun
    obtain ⟨h₁, hcount⟩ := hstep h he
    simp only [tally, he]
    rw [ih h₁ hrun, hcount, Int.add_assoc]

end Tally

/-! ### Where threads wait after an event -/

/-- A sum of which one term changes. -/
theorem sum_update_add [Fintype Thread] (f : Thread → ℕ) (t : Thread) (n : ℕ) :
    ∑ u, Function.update f t n u + f t = ∑ u, f u + n := by
  rw [Finset.sum_update_of_mem (Finset.mem_univ t), ← Finset.add_sum_erase Finset.univ f (Finset.mem_univ t),
    Finset.sdiff_singleton_eq_erase]
  omega

namespace World
variable [DecidableEq Place] {w : World State Thread Call Place Answer} {t u : Thread} {c : Call} {p q : Place}
  {s : Section State Thread Place Answer}

omit [DecidableEq Place] in
@[simp] theorem state_after : (w.after t c s).state = s.state := rfl

theorem at_after_done {a : Answer} (h : s.ends = .done a) : (w.after t c s).At p u ↔ w.At p u ∧ u ≠ t := by
  by_cases hu : u = t
  · subst hu
    simp [At, after, h, Phase.ofEnds, Phase.isAt]
  · simp [At, after, Phase.isAt_wake, hu]

theorem at_after_wait (h : s.ends = .wait q) : (w.after t c s).At p u ↔ w.At p u ∧ u ≠ t ∨ u = t ∧ q = p := by
  by_cases hu : u = t
  · subst hu
    simp [At, after, h, Phase.ofEnds, Phase.isAt]
  · simp [At, after, Phase.isAt_wake, hu]

theorem at_after_of_outside {a : Answer} (ht : w.phase t = .outside) (h : s.ends = .done a) :
    (w.after t c s).At p u ↔ w.At p u := by
  rw [at_after_done h, and_iff_left_iff_imp]
  rintro hu rfl
  exact not_at_of_outside ht hu

theorem at_after_again {woken : Bool} (ht : w.phase t = .waiting c p woken) (h : s.ends = .wait p) :
    (w.after t c s).At q u ↔ w.At q u := by
  rw [at_after_wait h, ← at_iff_of_phase ht]
  by_cases hu : u = t
  · simp [hu]
  · simp [hu]

omit [DecidableEq Place] in
theorem waits_after {c' : Call} :
    (w.after t c s).Waits c' p u ↔ u ≠ t ∧ w.Waits c' p u ∨ u = t ∧ c' = c ∧ s.ends = .wait p := by
  by_cases hu : u = t
  · subst hu
    cases h : s.ends <;> simp [Waits, World.after, h, Phase.ofEnds, eq_comm]
  · cases h : w.phase u <;> simp [Waits, World.after, h, Phase.wake, hu]

theorem woken_after : (w.after t c s).Woken p u ↔ u ≠ t ∧ (w.Woken p u ∨ w.At p u ∧ s.wakes p u = true) := by
  by_cases hu : u = t
  · subst hu
    cases h : s.ends <;> simp [Woken, after, h, Phase.ofEnds, Phase.isWoken]
  · simp [Woken, At, after, Phase.isWoken_wake, hu]

theorem at_wakeUp : (w.wakeUp t).At p u ↔ w.At p u := by
  by_cases hu : u = t
  · subst hu
    simp [At, wakeUp, Phase.isAt_wake]
  · simp [At, wakeUp, Function.update_of_ne hu]

theorem Woken.wakeUp (h : w.Woken p u) (t : Thread) : (w.wakeUp t).Woken p u := by
  by_cases hu : u = t
  · subst hu
    simp only [Woken, World.wakeUp, Function.update_self, Phase.isWoken_wake] at h ⊢
    simp [h]
  · simpa [Woken, World.wakeUp, Function.update_of_ne hu] using h

/-- How many threads wait at a place. -/
def waiters [Fintype Thread] (w : World State Thread Call Place Answer) (p : Place) : ℕ := ∑ t, ((w.phase t).isAt p).toNat

variable [Fintype Thread]

omit [DecidableEq Thread] in
theorem waiters_pos (h : w.At p t) : 0 < w.waiters p := by
  refine Finset.sum_pos' (fun _ _ => Nat.zero_le _) ⟨t, Finset.mem_univ t, ?_⟩
  rw [show (w.phase t).isAt p = true from h]
  exact Nat.one_pos

theorem waiters_after : (w.after t c s).waiters p + ((w.phase t).isAt p).toNat =
    w.waiters p + ((Phase.ofEnds c s.ends : Phase Call Place).isAt p).toNat := by
  have hphase : ∀ u, (((w.after t c s).phase u).isAt p).toNat = Function.update
      (fun u => ((w.phase u).isAt p).toNat) t ((Phase.ofEnds c s.ends : Phase Call Place).isAt p).toNat u := by
    intro u
    by_cases hu : u = t
    · subst hu
      simp [after]
    · simp [after, Function.update_of_ne hu, Phase.isAt_wake]
  simp only [waiters, hphase]
  exact sum_update_add _ t _

theorem waiters_after_of_outside {a : Answer} (ht : w.phase t = .outside) (h : s.ends = .done a) :
    (w.after t c s).waiters p = w.waiters p := by
  have := waiters_after (w := w) (t := t) (c := c) (p := p) (s := s)
  simpa [ht, h, Phase.isAt, Phase.ofEnds] using this

theorem waiters_wakeUp : (w.wakeUp t).waiters p = w.waiters p := by
  refine Finset.sum_congr rfl fun u _ => ?_
  rw [Bool.eq_iff_iff.mpr (show _ ↔ _ from at_wakeUp)]

end World

/-! ### Queues -/

/-- The threads that wait at a place, in the order of a queue; only the first may be woken. -/
structure Queue [DecidableEq Place] (w : World State Thread Call Place Answer) (p : Place) (queue : List Thread) : Prop where
  nodup : queue.Nodup
  mem_iff : ∀ t, t ∈ queue ↔ w.At p t
  head_of_woken : ∀ t, w.Woken p t → queue.head? = some t

namespace Queue
variable [DecidableEq Place] {w : World State Thread Call Place Answer} {p : Place} {queue : List Thread} {t : Thread} {c : Call}
  {s : Section State Thread Place Answer}

/-- A thread from elsewhere, which does not stop here, and wakes at most the first. -/
theorem keep (h : Queue w p queue) (ht : ¬ w.At p t) (hends : s.ends ≠ .wait p)
    (hwakes : ∀ u, s.wakes p u = true → queue.head? = some u) : Queue (w.after t c s) p queue where
  nodup := h.nodup
  mem_iff u := by
    have hut : w.At p u → u ≠ t := by
      rintro hu rfl
      exact ht hu
    cases he : s.ends with
    | done a => rw [World.at_after_done he, h.mem_iff, and_iff_left_of_imp hut]
    | wait q =>
      have hq : q ≠ p := fun hq => hends (by rw [he, hq])
      rw [World.at_after_wait he, h.mem_iff, and_iff_left_of_imp hut]
      simp [hq]
  head_of_woken u hu := by
    obtain ⟨-, hu | ⟨-, hu⟩⟩ := World.woken_after.mp hu
    · exact h.head_of_woken u hu
    · exact hwakes u hu

/-- A thread from elsewhere that stops here. -/
theorem push (h : Queue w p queue) (ht : ¬ w.At p t) (hends : s.ends = .wait p)
    (hwakes : ∀ u, s.wakes p u = false) : Queue (w.after t c s) p (queue ++ [t]) where
  nodup := by
    refine List.nodup_append.mpr ⟨h.nodup, List.nodup_singleton t, fun u hu v hv => ?_⟩
    rintro rfl
    rw [List.mem_singleton.mp hv] at hu
    exact ht ((h.mem_iff t).mp hu)
  mem_iff u := by
    have hut : w.At p u → u ≠ t := by
      rintro hu rfl
      exact ht hu
    rw [World.at_after_wait hends, List.mem_append, h.mem_iff, List.mem_singleton, and_iff_left_of_imp hut,
      and_iff_left rfl]
  head_of_woken u hu := by
    obtain ⟨-, hu | ⟨-, hu⟩⟩ := World.woken_after.mp hu
    · rw [List.head?_append, h.head_of_woken u hu]
      rfl
    · cases (hwakes u).symm.trans hu

/-- The first is woken and goes elsewhere. -/
theorem pop (h : Queue w p queue) (ht : w.Woken p t) (hends : s.ends ≠ .wait p) (hwakes : ∀ u, s.wakes p u = false) :
    Queue (w.after t c s) p queue.tail := by
  obtain ⟨rest, rfl⟩ := List.head?_eq_some_iff.mp (h.head_of_woken t ht)
  obtain ⟨hnot, hnodup⟩ := List.nodup_cons.mp h.nodup
  refine ⟨hnodup, fun u => ?_, fun u hu => ?_⟩
  · have hat : (w.after t c s).At p u ↔ w.At p u ∧ u ≠ t := by
      cases he : s.ends with
      | done a => exact World.at_after_done he
      | wait q =>
        have hq : q ≠ p := fun hq => hends (by rw [he, hq])
        rw [World.at_after_wait he]
        simp [hq]
    rw [hat, ← h.mem_iff, List.tail_cons, List.mem_cons]
    constructor
    · intro hu
      exact ⟨.inr hu, fun hut => hnot (hut ▸ hu)⟩
    · rintro ⟨rfl | hu, hut⟩
      · exact absurd rfl hut
      · exact hu
  · obtain ⟨hut, hu | ⟨-, hu⟩⟩ := World.woken_after.mp hu
    · exact absurd (Option.some.inj (h.head_of_woken u hu)).symm hut
    · cases (hwakes u).symm.trans hu

/-- The first is woken and stops here again. -/
theorem popPush (h : Queue w p queue) (ht : w.Woken p t) (hends : s.ends = .wait p) (hwakes : ∀ u, s.wakes p u = false) :
    Queue (w.after t c s) p (queue.tail ++ [t]) := by
  obtain ⟨rest, rfl⟩ := List.head?_eq_some_iff.mp (h.head_of_woken t ht)
  refine ⟨?_, fun u => ?_, fun u hu => ?_⟩
  · exact List.nodup_append_comm.mp (show ([t] ++ rest).Nodup from h.nodup)
  · have hmem := h.mem_iff u
    rw [List.mem_cons] at hmem
    rw [World.at_after_wait hends, ← hmem, List.tail_cons, List.mem_append, List.mem_singleton]
    by_cases hut : u = t <;> simp [hut]
  · obtain ⟨hut, hu | ⟨-, hu⟩⟩ := World.woken_after.mp hu
    · exact absurd (Option.some.inj (h.head_of_woken u hu)).symm hut
    · cases (hwakes u).symm.trans hu

end Queue

end Monitor

end StudyDB
