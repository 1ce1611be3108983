import Mathlib.Data.Finset.Card
import Mathlib.Logic.Function.Basic
import Mathlib.Logic.Relation

/-! Threads that share one object behind a read-write lock. A thread runs its
calls one after the other; a call acquires the lock in the mode its code asks
for, runs its body, and releases. Steps of different threads interleave in any
order. The lock is what a `rwlock` keeps: a count of readers and a writer flag.
Proved: exactly when no reachable state has a thread inside a call that modifies
the object while another thread is inside any call. -/

namespace StudyDB.ReadWriteLock

/-! ### The lock -/

inductive Mode where
  | read | write
  deriving DecidableEq, Repr

/-- The two counters of a read-write lock. -/
structure Lock where
  readers : ℕ
  writer : Bool
  deriving DecidableEq, Repr

namespace Lock

def free : Lock := ⟨0, false⟩

/-- Granted to a reader unless there is a writer, to a writer only when the
lock is free; `none` means that the caller blocks. -/
def acquire : Mode → Lock → Option Lock
  | .read, l => if l.writer then none else some { l with readers := l.readers + 1 }
  | .write, l => if l.writer || l.readers != 0 then none else some { l with writer := true }

def release (l : Lock) : Lock :=
  if l.writer then { l with writer := false } else { l with readers := l.readers - 1 }

theorem acquire_read_eq_some {l l' : Lock} (h : l.acquire .read = some l') :
    l.writer = false ∧ l' = ⟨l.readers + 1, false⟩ := by
  obtain ⟨r, _ | _⟩ := l
  · exact ⟨rfl, (Option.some.inj h).symm⟩
  · cases h

theorem acquire_write_eq_some {l l' : Lock} (h : l.acquire .write = some l') :
    l.writer = false ∧ l.readers = 0 ∧ l' = ⟨0, true⟩ := by
  obtain ⟨_ | r, _ | _⟩ := l
  · exact ⟨rfl, rfl, (Option.some.inj h).symm⟩
  all_goals cases h

/-- A granted lock, released at once, is back where it was. -/
theorem release_of_acquire {m : Mode} {l l' : Lock} (h : l.acquire m = some l') :
    l'.release = l := by
  obtain ⟨r, w⟩ := l
  cases m with
  | read =>
    obtain ⟨rfl, rfl⟩ := acquire_read_eq_some h
    rfl
  | write =>
    obtain ⟨rfl, rfl, rfl⟩ := acquire_write_eq_some h
    rfl

end Lock

/-! ### The threads -/

variable {Thread Call Shared : Type*}

/-- What the calls of a class do: the mode each asks for, whether its body
modifies the shared object, and what the body can make of the object. -/
structure Discipline (Call Shared : Type*) where
  mode : Call → Mode
  modifies : Call → Prop
  body : Call → Shared → Shared → Prop

/-- No body gets stuck. -/
def Discipline.Total (D : Discipline Call Shared) : Prop := ∀ c x, ∃ y, D.body c x y

/-- Where a thread is. Inside a call it holds the lock; the flag says whether
the body has already taken effect. -/
inductive Phase (Call : Type*) where
  | outside
  | inside (call : Call) (done : Bool)

structure State (Thread Call Shared : Type*) where
  lock : Lock
  phase : Thread → Phase Call
  todo : Thread → List Call
  shared : Shared

namespace State

/-- The state before any step: every thread is outside, with its calls to do. -/
def initial (prog : Thread → List Call) (shared : Shared) : State Thread Call Shared :=
  ⟨.free, fun _ => .outside, prog, shared⟩

/-- Thread `t` is inside call `c`, between its acquire and its release. -/
def Inside (s : State Thread Call Shared) (t : Thread) (c : Call) : Prop :=
  ∃ done, s.phase t = .inside c done

/-- Thread `t` is inside a call that asked for mode `m`. -/
def Holds (D : Discipline Call Shared) (s : State Thread Call Shared) (t : Thread) (m : Mode) : Prop :=
  ∃ c, s.Inside t c ∧ D.mode c = m

/-- No thread is inside a modifying call while another is inside any call. -/
def Exclusive (D : Discipline Call Shared) (s : State Thread Call Shared) : Prop :=
  ∀ t u c d, t ≠ u → s.Inside t c → D.modifies c → ¬ s.Inside u d

theorem Inside.unique {s : State Thread Call Shared} {t : Thread} {c d : Call}
    (hc : s.Inside t c) (hd : s.Inside t d) : c = d := by
  obtain ⟨_, hc⟩ := hc
  obtain ⟨_, hd⟩ := hd
  rw [hc] at hd
  exact (Phase.inside.inj hd).1

end State

open State

/-- One step of one thread. -/
inductive Step [DecidableEq Thread] (D : Discipline Call Shared) :
    State Thread Call Shared → State Thread Call Shared → Prop
  | acquire {s : State Thread Call Shared} {t : Thread} {c : Call} {rest : List Call} {l : Lock}
      (out : s.phase t = .outside) (next : s.todo t = c :: rest)
      (grant : s.lock.acquire (D.mode c) = some l) :
      Step D s { s with
        lock := l
        phase := Function.update s.phase t (.inside c false)
        todo := Function.update s.todo t rest }
  | body {s : State Thread Call Shared} {t : Thread} {c : Call} {x : Shared}
      (at_body : s.phase t = .inside c false) (effect : D.body c s.shared x) :
      Step D s { s with
        phase := Function.update s.phase t (.inside c true)
        shared := x }
  | release {s : State Thread Call Shared} {t : Thread} {c : Call}
      (at_end : s.phase t = .inside c true) :
      Step D s { s with
        lock := s.lock.release
        phase := Function.update s.phase t .outside }

/-- Any number of steps, in any order of the threads. -/
def Run [DecidableEq Thread] (D : Discipline Call Shared) :
    State Thread Call Shared → State Thread Call Shared → Prop :=
  Relation.ReflTransGen (Step D)

/-! ### The lock invariant -/

/-- The counters say who is inside: the readers are counted, the writer flag is
set exactly while a writer is inside, and a writer is the only one inside. -/
structure Invariant (D : Discipline Call Shared) (s : State Thread Call Shared) : Prop where
  readers : ∃ R : Finset Thread, (∀ t, t ∈ R ↔ s.Holds D t .read) ∧ s.lock.readers = R.card
  writer : s.lock.writer = true ↔ ∃ t, s.Holds D t .write
  alone : ∀ t u c, s.Holds D t .write → s.Inside u c → u = t

variable {D : Discipline Call Shared} {s s' : State Thread Call Shared}

theorem invariant_initial (prog : Thread → List Call) (shared : Shared) :
    Invariant D (State.initial prog shared) where
  readers := ⟨∅, by simp [Holds, Inside, State.initial], rfl⟩
  writer := by simp [Holds, Inside, State.initial, Lock.free]
  alone := by simp [Inside, State.initial]

theorem not_inside_of_outside {t : Thread} (h : s.phase t = .outside) (c : Call) : ¬ s.Inside t c := by
  simp [Inside, h]

/-- With both counters at zero nobody is inside. -/
theorem Invariant.not_inside_of_free (hi : Invariant D s) (hw : s.lock.writer = false)
    (hr : s.lock.readers = 0) (t : Thread) (c : Call) : ¬ s.Inside t c := by
  intro hc
  cases hm : D.mode c with
  | read =>
    obtain ⟨R, hR, hcard⟩ := hi.readers
    have hmem : t ∈ R := (hR t).mpr ⟨c, hc, hm⟩
    rw [Finset.card_eq_zero.mp (hcard.symm.trans hr)] at hmem
    exact absurd hmem (Finset.notMem_empty t)
  | write =>
    have hset := hi.writer.mpr ⟨t, c, hc, hm⟩
    rw [hw] at hset
    cases hset

/-- Whoever is inside in read mode is inside with no writer. -/
theorem Invariant.writer_of_read (hi : Invariant D s) {t : Thread} {c : Call} (hc : s.Inside t c)
    (hm : D.mode c = .read) : s.lock.writer = false := by
  cases hw : s.lock.writer with
  | false => rfl
  | true =>
    obtain ⟨u, d, hd, hdm⟩ := hi.writer.mp hw
    obtain rfl := hi.alone u t c ⟨d, hd, hdm⟩ hc
    rw [hc.unique hd, hdm] at hm
    cases hm

/-- The invariant reads the phases only through who is inside which call. -/
theorem Invariant.congr (hi : Invariant D s) (hl : s'.lock = s.lock)
    (hs : ∀ t c, s'.Inside t c ↔ s.Inside t c) : Invariant D s' := by
  have hh : ∀ t m, s'.Holds D t m ↔ s.Holds D t m := fun t m => by simp only [Holds, hs]
  obtain ⟨⟨R, hR, hcard⟩, hw, ha⟩ := hi
  refine ⟨⟨R, fun t => (hR t).trans (hh t _).symm, by rw [hl]; exact hcard⟩, ?_, ?_⟩
  · simp only [hl, hw, hh]
  · intro t u c ht hu
    exact ha t u c ((hh t _).mp ht) ((hs u c).mp hu)

section Steps
variable [DecidableEq Thread]

/-- A step moves one thread: `s'` has it inside `c`, and the others as in `s`. -/
def Entered (s s' : State Thread Call Shared) (t : Thread) (c : Call) : Prop :=
  ∀ u d, s'.Inside u d ↔ if u = t then d = c else s.Inside u d

/-- A step moves one thread: `s'` has it outside, and the others as in `s`. -/
def Left (s s' : State Thread Call Shared) (t : Thread) : Prop :=
  ∀ u d, s'.Inside u d ↔ u ≠ t ∧ s.Inside u d

theorem entered_update (t : Thread) (c : Call) (done : Bool) (l : Lock) (todo : Thread → List Call)
    (x : Shared) : Entered s ⟨l, Function.update s.phase t (.inside c done), todo, x⟩ t c := by
  intro u d
  by_cases hu : u = t
  · subst hu
    simp [Inside, eq_comm]
  · simp [Inside, hu]

theorem left_update (t : Thread) (l : Lock) (todo : Thread → List Call) (x : Shared) :
    Left s ⟨l, Function.update s.phase t .outside, todo, x⟩ t := by
  intro u d
  by_cases hu : u = t
  · subst hu
    simp [Inside]
  · simp [Inside, hu]

theorem Invariant.enter_read (hi : Invariant D s) {t : Thread} {c : Call} (out : s.phase t = .outside)
    (hm : D.mode c = .read) (he : Entered s s' t c) (hw : s.lock.writer = false)
    (hl : s'.lock = ⟨s.lock.readers + 1, false⟩) : Invariant D s' := by
  obtain ⟨R, hR, hcard⟩ := hi.readers
  have hno : ∀ u, ¬ s.Holds D u .write := fun u hu => by simp [hi.writer.mpr ⟨u, hu⟩] at hw
  have htR : t ∉ R := fun h => by
    obtain ⟨d, hd, _⟩ := (hR t).mp h
    exact not_inside_of_outside out d hd
  have hwrite : ∀ u, ¬ s'.Holds D u .write := by
    rintro u ⟨d, hd, hdm⟩
    rw [he] at hd
    split_ifs at hd with hu
    · rw [hd, hm] at hdm
      cases hdm
    · exact hno u ⟨d, hd, hdm⟩
  refine ⟨⟨insert t R, fun u => ?_, ?_⟩, ?_, fun u v d hu => absurd hu (hwrite u)⟩
  · by_cases hu : u = t
    · subst hu
      simp [Holds, he u, hm]
    · simp [Holds, he u, hu, hR u]
  · rw [hl, Finset.card_insert_of_notMem htR, hcard]
  · simp [hl, hwrite]

theorem Invariant.enter_write (hi : Invariant D s) {t : Thread} {c : Call}
    (hm : D.mode c = .write) (he : Entered s s' t c) (hw : s.lock.writer = false)
    (hr : s.lock.readers = 0) (hl : s'.lock = ⟨0, true⟩) : Invariant D s' := by
  have hnone := hi.not_inside_of_free hw hr
  have honly : ∀ u d, s'.Inside u d → u = t ∧ d = c := by
    intro u d hd
    rw [he] at hd
    split_ifs at hd with hu
    · exact ⟨hu, hd⟩
    · exact absurd hd (hnone u d)
  have htc : s'.Inside t c := (he t c).mpr (by simp)
  refine ⟨⟨∅, fun u => ?_, by rw [hl]; rfl⟩, ?_, ?_⟩
  · simp only [Finset.notMem_empty, false_iff]
    rintro ⟨d, hd, hdm⟩
    rw [(honly u d hd).2, hm] at hdm
    cases hdm
  · simp only [hl, true_iff]
    exact ⟨t, c, htc, hm⟩
  · rintro u v d ⟨e, hue, _⟩ hv
    rw [(honly v d hv).1, (honly u e hue).1]

theorem Invariant.leave (hi : Invariant D s) {t : Thread} {c : Call} (hc : s.Inside t c)
    (hf : Left s s' t) (hl : s'.lock = s.lock.release) : Invariant D s' := by
  obtain ⟨R, hR, hcard⟩ := hi.readers
  cases hm : D.mode c with
  | read =>
    have hw := hi.writer_of_read hc hm
    have hno : ∀ u, ¬ s.Holds D u .write := fun u hu => by simp [hi.writer.mpr ⟨u, hu⟩] at hw
    have hwrite : ∀ u, ¬ s'.Holds D u .write := fun u ⟨d, hd, hdm⟩ => hno u ⟨d, ((hf u d).mp hd).2, hdm⟩
    have htR : t ∈ R := (hR t).mpr ⟨c, hc, hm⟩
    refine ⟨⟨R.erase t, fun u => ?_, ?_⟩, ?_, fun u v d hu => absurd hu (hwrite u)⟩
    · simp only [Finset.mem_erase, hR u, Holds, hf u]
      exact ⟨fun ⟨hu, d, hd, hdm⟩ => ⟨d, ⟨hu, hd⟩, hdm⟩, fun ⟨d, ⟨hu, hd⟩, hdm⟩ => ⟨hu, d, hd, hdm⟩⟩
    · rw [hl, Finset.card_erase_of_mem htR, ← hcard]
      simp [Lock.release, hw]
    · simp [hl, Lock.release, hw, hwrite]
  | write =>
    have hset : s.lock.writer = true := hi.writer.mpr ⟨t, c, hc, hm⟩
    have hnone : ∀ u d, ¬ s'.Inside u d := fun u d hd =>
      ((hf u d).mp hd).1 (hi.alone t u d ⟨c, hc, hm⟩ ((hf u d).mp hd).2)
    have hempty : R = ∅ := by
      refine Finset.eq_empty_of_forall_notMem fun u hu => ?_
      obtain ⟨d, hd, hdm⟩ := (hR u).mp hu
      obtain rfl := hi.alone t u d ⟨c, hc, hm⟩ hd
      rw [hd.unique hc, hm] at hdm
      cases hdm
    refine ⟨⟨∅, fun u => ?_, ?_⟩, ?_, fun u v d _ hv => absurd hv (hnone v d)⟩
    · simp [Holds, hnone]
    · rw [hl]
      simp [Lock.release, hset, hcard, hempty]
    · simp [hl, Lock.release, hset, Holds, hnone]

/-- Every step keeps the counters in agreement with who is inside. -/
theorem Invariant.step (hi : Invariant D s) (h : Step D s s') : Invariant D s' := by
  cases h with
  | @acquire t c rest l out next grant =>
    cases hm : D.mode c with
    | read =>
      rw [hm] at grant
      obtain ⟨hw, rfl⟩ := Lock.acquire_read_eq_some grant
      exact hi.enter_read out hm (entered_update t c false _ _ _) hw rfl
    | write =>
      rw [hm] at grant
      obtain ⟨hw, hr, rfl⟩ := Lock.acquire_write_eq_some grant
      exact hi.enter_write hm (entered_update t c false _ _ _) hw hr rfl
  | @body t c x at_body effect =>
    refine hi.congr rfl fun u d => ?_
    rw [entered_update t c true _ _ _ u d]
    split_ifs with hu
    · subst hu
      simp [Inside, at_body, eq_comm]
    · rfl
  | @release t c at_end => exact hi.leave ⟨true, at_end⟩ (left_update t _ _ _) rfl

theorem Invariant.run (hi : Invariant D s) (h : Run D s s') : Invariant D s' := by
  induction h with
  | refl => exact hi
  | tail _ hstep ih => exact ih.step hstep

/-- A thread is only ever inside calls of its own list. -/
def Scheduled (prog : Thread → List Call) (s : State Thread Call Shared) : Prop :=
  ∀ t, (∀ c, s.Inside t c → c ∈ prog t) ∧ s.todo t ⊆ prog t

theorem Scheduled.step {prog : Thread → List Call} (hs : Scheduled prog s) (h : Step D s s') :
    Scheduled prog s' := by
  intro u
  cases h with
  | @acquire t c rest l out next grant =>
    have hsub : c :: rest ⊆ prog t := next ▸ (hs t).2
    constructor
    · intro d hd
      rw [entered_update t c false _ _ _ u d] at hd
      split_ifs at hd with hu
      · rw [hu, hd]
        exact hsub List.mem_cons_self
      · exact (hs u).1 d hd
    · dsimp only
      by_cases hu : u = t
      · subst hu
        rw [Function.update_self]
        exact fun d hd => hsub (List.mem_cons_of_mem c hd)
      · rw [Function.update_of_ne hu]
        exact (hs u).2
  | @body t c x at_body effect =>
    refine ⟨fun d hd => ?_, (hs u).2⟩
    rw [entered_update t c true _ _ _ u d] at hd
    split_ifs at hd with hu
    · rw [hu, hd]
      exact (hs t).1 c ⟨false, at_body⟩
    · exact (hs u).1 d hd
  | @release t c at_end =>
    exact ⟨fun d hd => (hs u).1 d ((left_update t _ _ _ u d).mp hd).2, (hs u).2⟩

theorem Scheduled.run {prog : Thread → List Call} (hs : Scheduled prog s) (h : Run D s s') :
    Scheduled prog s' := by
  induction h with
  | refl => exact hs
  | tail _ hstep ih => exact ih.step hstep

/-! ### Runs of one thread alone -/

/-- From a free lock, a thread can take its next call through all three steps. -/
theorem run_call {t : Thread} {c : Call} {rest : List Call} (total : D.Total) (free : s.lock = .free)
    (out : s.phase t = .outside) (next : s.todo t = c :: rest) :
    ∃ x, Run D s { s with todo := Function.update s.todo t rest, shared := x } := by
  obtain ⟨x, effect⟩ := total c s.shared
  obtain ⟨l, grant⟩ : ∃ l, s.lock.acquire (D.mode c) = some l := by
    rw [free, ← Option.isSome_iff_exists]
    cases D.mode c <;> rfl
  have h₁ := Step.acquire out next grant
  refine ⟨x, (Relation.ReflTransGen.single h₁).tail (.body (t := t) (c := c) (by simp) effect) |>.tail ?_⟩
  have h₂ := Step.release (D := D) (t := t) (c := c)
    (s := ⟨l, Function.update (Function.update s.phase t (.inside c false)) t (.inside c true),
      Function.update s.todo t rest, x⟩) (by simp)
  have hphase : Function.update s.phase t .outside = s.phase := by rw [← out, Function.update_eq_self]
  simpa only [Lock.release_of_acquire grant, Function.update_idem, hphase] using h₂

/-- From a free lock, a thread can take any first part of its calls. -/
theorem run_calls {t : Thread} {pre rest : List Call} (total : D.Total) (free : s.lock = .free)
    (out : s.phase t = .outside) (next : s.todo t = pre ++ rest) :
    ∃ x, Run D s { s with todo := Function.update s.todo t rest, shared := x } := by
  induction pre generalizing s with
  | nil =>
    refine ⟨s.shared, ?_⟩
    rw [List.nil_append] at next
    rw [← next, Function.update_eq_self]
    exact .refl
  | cons c pre ih =>
    have next₁ : s.todo t = c :: (pre ++ rest) := next
    obtain ⟨x, h₁⟩ := run_call total free out next₁
    obtain ⟨y, h₂⟩ := ih (s := { s with todo := Function.update s.todo t (pre ++ rest), shared := x })
      free out (Function.update_self ..)
    rw [Function.update_idem] at h₂
    exact ⟨y, h₁.trans h₂⟩

/-- From a free lock, two threads whose next calls are readers can both go in. -/
theorem run_meet {t u : Thread} {c d : Call} {rest rest' : List Call} (hne : t ≠ u)
    (free : s.lock = .free) (out : s.phase t = .outside) (out' : s.phase u = .outside)
    (next : s.todo t = c :: rest) (next' : s.todo u = d :: rest')
    (hc : D.mode c = .read) (hd : D.mode d = .read) :
    ∃ s', Run D s s' ∧ s'.Inside t c ∧ s'.Inside u d := by
  have h₁ := Step.acquire (D := D) (l := ⟨1, false⟩) out next (by rw [hc, free]; rfl)
  have h₂ := Step.acquire (D := D) (t := u) (c := d) (l := ⟨2, false⟩)
    (s := ⟨⟨1, false⟩, Function.update s.phase t (.inside c false), Function.update s.todo t rest, s.shared⟩)
    ((Function.update_of_ne hne.symm ..).trans out') ((Function.update_of_ne hne.symm ..).trans next')
    (by rw [hd]; rfl)
  refine ⟨_, (Relation.ReflTransGen.single h₁).tail h₂, ⟨false, ?_⟩, ⟨false, Function.update_self ..⟩⟩
  exact (Function.update_of_ne hne ..).trans (Function.update_self ..)

/-! ### Exclusion -/

/-- Thread `t` has a call that modifies under a read lock, and thread `u` a call
that takes a read lock too. -/
def Discipline.Races (D : Discipline Call Shared) (prog : Thread → List Call) (t u : Thread) : Prop :=
  ∃ c ∈ prog t, D.modifies c ∧ D.mode c = .read ∧ ∃ d ∈ prog u, D.mode d = .read

omit [DecidableEq Thread] in
/-- Whoever are inside together came in as readers. -/
theorem Invariant.read_read (hi : Invariant D s) {t u : Thread} {c d : Call} (hne : t ≠ u)
    (hc : s.Inside t c) (hd : s.Inside u d) : D.mode c = .read ∧ D.mode d = .read := by
  constructor
  · cases hm : D.mode c with
    | read => rfl
    | write => exact absurd (hi.alone t u d ⟨c, hc, hm⟩ hd).symm hne
  · cases hm : D.mode d with
    | read => rfl
    | write => exact absurd (hi.alone u t c ⟨d, hd, hm⟩ hc) hne

/-- Two threads with calls that race can both be brought inside. -/
theorem exists_run_of_races {prog : Thread → List Call} {t u : Thread} (total : D.Total) (hne : t ≠ u)
    (hr : D.Races prog t u) (shared : Shared) :
    ∃ s c d, Run D (State.initial prog shared) s ∧ s.Inside t c ∧ D.modifies c ∧ s.Inside u d := by
  obtain ⟨c, hc, hmod, hcm, d, hd, hdm⟩ := hr
  obtain ⟨pre, rest, hpre⟩ := List.append_of_mem hc
  obtain ⟨pre', rest', hpre'⟩ := List.append_of_mem hd
  -- one after the other, the threads run up to the calls that race
  obtain ⟨x, h₁⟩ := run_calls (D := D) (s := State.initial prog shared) total rfl rfl hpre
  have next' : Function.update prog t (c :: rest) u = pre' ++ d :: rest' :=
    (Function.update_of_ne hne.symm ..).trans hpre'
  obtain ⟨y, h₂⟩ := run_calls (D := D) (t := u)
    (s := ⟨.free, fun _ => .outside, Function.update prog t (c :: rest), x⟩) total rfl rfl next'
  -- then both take their read locks
  have next : Function.update (Function.update prog t (c :: rest)) u (d :: rest') t = c :: rest :=
    (Function.update_of_ne hne ..).trans (Function.update_self ..)
  obtain ⟨s, h₃, hsc, hsd⟩ := run_meet (D := D) hne
    (s := ⟨.free, fun _ => .outside, Function.update (Function.update prog t (c :: rest)) u (d :: rest'), y⟩)
    rfl rfl rfl next (Function.update_self ..) hcm hdm
  exact ⟨s, c, d, (h₁.trans h₂).trans h₃, hsc, hmod, hsd⟩

/-- Where no two threads have calls that race, no reachable state breaks exclusion. -/
theorem exclusive_of_not_races {prog : Thread → List Call} {shared : Shared}
    (h : ∀ t u, t ≠ u → ¬ D.Races prog t u) (hrun : Run D (State.initial prog shared) s) :
    s.Exclusive D := by
  intro t u c d hne hc hmod hd
  have hs : Scheduled prog s := Scheduled.run
    (fun v => ⟨fun e he => absurd he (not_inside_of_outside rfl e), List.Subset.refl _⟩) hrun
  obtain ⟨hcm, hdm⟩ := ((invariant_initial prog shared).run hrun).read_read hne hc hd
  exact h t u hne ⟨c, (hs t).1 c hc, hmod, hcm, d, (hs u).1 d hd, hdm⟩

/-- No reachable state breaks exclusion, exactly when no two threads have calls
that race. -/
theorem exclusive_iff (total : D.Total) (prog : Thread → List Call) (shared : Shared) :
    (∀ s, Run D (State.initial prog shared) s → s.Exclusive D) ↔
      ∀ t u, t ≠ u → ¬ D.Races prog t u := by
  constructor
  · intro h t u hne hr
    obtain ⟨s, c, d, hrun, hc, hmod, hd⟩ := exists_run_of_races total hne hr shared
    exact h s hrun t u c d hne hc hmod hd
  · intro h s hrun
    exact exclusive_of_not_races h hrun

/-- Where every call that modifies takes the write lock, exclusion holds. -/
theorem exclusive_of_write (hD : ∀ c, D.modifies c → D.mode c = .write) {prog : Thread → List Call}
    {shared : Shared} (hrun : Run D (State.initial prog shared) s) : s.Exclusive D := by
  refine exclusive_of_not_races ?_ hrun
  rintro t u _ ⟨c, _, hmod, hcm, _⟩
  rw [hD c hmod] at hcm
  cases hcm

end Steps

end StudyDB.ReadWriteLock
