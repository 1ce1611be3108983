import StudyDB.Locks.Method
import Mathlib.Algebra.BigOperators.Fin
import Mathlib.Algebra.Order.BigOperators.Group.Finset

/-! Threads behind a read-write lock, one access of the shared object at a time. A
call's code is a tree of reads and writes; between any two of them every other thread
may take a step, and a thrown error ends the process for all. Proved: where no two
threads have calls that race, every run is one of the calls taken whole, one after
the other, in the order of their unlocks; no run is longer than the calls' accesses allow;
and a state without a next step has all calls done or a call that threw. -/

namespace StudyDB

open ReadWriteLock (Mode Lock Discipline)

universe u v

theorem Method.run_map {ε : Type v} {σ α β : Type u} {method : Method ε σ α} {o o' : Object σ} {a : α}
    (h : method o = .ok (a, o')) (f : α → β) : (f <$> method) o = .ok (f a, o') := by
  show (method o).bind _ = _
  rw [h]
  rfl

/-! ### Code -/

/-- Code on a shared object, one access after the other. -/
inductive Code (ε : Type v) (σ α : Type u) where
  | pure (a : α)
  | throw (e : ε)
  | read (next : σ → Code ε σ α)
  | write (x : σ) (next : Code ε σ α)

namespace Code

variable {ε : Type v} {σ α β : Type u}

def bind : Code ε σ α → (α → Code ε σ β) → Code ε σ β
  | pure a, f => f a
  | throw e, _ => throw e
  | read next, f => read fun x => (next x).bind f
  | write x next, f => write x (next.bind f)

instance : Monad (Code ε σ) where
  pure := Code.pure
  bind := Code.bind

/-- Changing the object is reading it, then writing it. -/
instance : MonadStateOf σ (Code ε σ) where
  get := read pure
  set x := write x (pure ⟨⟩)
  modifyGet f := read fun x => write (f x).2 (pure (f x).1)

instance : MonadLift (Except ε) (Code ε σ) where
  monadLift
    | .ok a => pure a
    | .error e => throw e

/-- The code run whole, with no other thread in between. -/
def exec : Code ε σ α → Body ε σ α
  | pure a, x => .ok (a, x)
  | throw e, _ => .error e
  | read next, x => (next x).exec x
  | write y next, _ => next.exec y

theorem exec_bind (code : Code ε σ α) (next : α → Code ε σ β) :
    (code >>= next).exec = code.exec >>= fun a => (next a).exec := by
  funext x
  show (code.bind next).exec x = (code.exec x).bind fun r => (next r.1).exec r.2
  induction code generalizing x with
  | pure a => rfl
  | throw e => rfl
  | read rest ih => exact ih x x
  | write y rest ih => exact ih y

theorem exec_map (f : α → β) (code : Code ε σ α) : (f <$> code).exec = f <$> code.exec := by
  show (code >>= fun a => pure (f a)).exec = _
  rw [exec_bind]
  rfl

theorem exec_lift (result : Except ε α) : (liftM result : Code ε σ α).exec = liftM result := by
  cases result <;> rfl

/-- No access of the code is a write. -/
def ReadOnly : Code ε σ α → Prop
  | pure _ => True
  | throw _ => True
  | read next => ∀ x, (next x).ReadOnly
  | write _ _ => False

theorem ReadOnly.bind {code : Code ε σ α} {next : α → Code ε σ β} (h : code.ReadOnly)
    (hnext : ∀ a, (next a).ReadOnly) : (code >>= next).ReadOnly := by
  show (code.bind next).ReadOnly
  induction code with
  | pure a => exact hnext a
  | throw e => trivial
  | read rest ih =>
    intro x
    exact ih x (h x)
  | write y rest => exact h.elim

theorem ReadOnly.lift (result : Except ε α) : (liftM result : Code ε σ α).ReadOnly := by
  cases result <;> trivial

theorem ReadOnly.reads {code : Code ε σ α} (h : code.ReadOnly) : code.exec.Reads := by
  intro x a y hrun
  induction code with
  | pure b =>
    cases hrun
    rfl
  | throw e => cases hrun
  | read rest ih => exact ih x (h x) hrun
  | write z rest => exact h.elim

/-- No run of the code makes more than `n` accesses. -/
def Within : ℕ → Code ε σ α → Prop
  | _, pure _ => True
  | _, throw _ => True
  | n + 1, read next => ∀ x, Within n (next x)
  | n + 1, write _ next => Within n next
  | 0, read _ => False
  | 0, write _ _ => False

theorem Within.mono {m n : ℕ} (hmn : m ≤ n) {code : Code ε σ α} (h : code.Within m) : code.Within n := by
  induction code generalizing m n with
  | pure a => cases n <;> trivial
  | throw e => cases n <;> trivial
  | read rest ih =>
    obtain _ | m := m
    · exact h.elim
    · obtain _ | n := n
      · omega
      · exact fun x => ih x (by omega) (h x)
  | write y rest ih =>
    obtain _ | m := m
    · exact h.elim
    · obtain _ | n := n
      · omega
      · exact ih (m := m) (n := n) (by omega) h

theorem Within.lift (n : ℕ) (result : Except ε α) : (liftM result : Code ε σ α).Within n := by
  cases result <;> cases n <;> trivial

theorem Within.bind {m n : ℕ} {code : Code ε σ α} {next : α → Code ε σ β} (h : code.Within m)
    (hnext : ∀ a, (next a).Within n) : (code >>= next).Within (m + n) := by
  show (code.bind next).Within (m + n)
  induction code generalizing m with
  | pure a => exact (hnext a).mono (by omega)
  | throw e => cases m + n <;> trivial
  | read rest ih =>
    obtain _ | m := m
    · exact h.elim
    · rw [Nat.succ_add]
      exact fun x => ih x (h x)
  | write y rest ih =>
    obtain _ | m := m
    · exact h.elim
    · rw [Nat.succ_add]
      exact ih (m := m) h

/-- A locked method, its result passed on, is locked around code that runs as its body. -/
theorem locked_map {mode : Mode} {method : Method ε σ α} {body : Body ε σ α} {code : Code ε σ α}
    (h : Method.Locked mode method body) (hexec : code.exec = body) (f : α → β) :
    Method.Locked mode (f <$> method) (f <$> code).exec := by
  intro o
  rw [exec_map, hexec]
  change (method o).bind _ = ((body o.contents).bind _).map _
  rw [h o]
  cases body o.contents <;> rfl

/-- The code throws nothing, whatever it reads. -/
def NoThrow : Code ε σ α → Prop
  | pure _ => True
  | throw _ => False
  | read next => ∀ x, (next x).NoThrow
  | write _ next => next.NoThrow

theorem NoThrow.bind {code : Code ε σ α} {next : α → Code ε σ β} (h : code.NoThrow)
    (hnext : ∀ a, (next a).NoThrow) : (code >>= next).NoThrow := by
  show (code.bind next).NoThrow
  induction code with
  | pure a => exact hnext a
  | throw e => exact h.elim
  | read rest ih =>
    intro x
    exact ih x (h x)
  | write y rest ih => exact ih h

end Code

/-! ### Threads -/

/-- A class whose calls run code on the shared object under the lock. -/
structure Guarded (Call ε : Type v) (σ α : Type u) where
  mode : Call → Mode
  modifies : Call → Prop
  code : Call → Code ε σ α
  readOnly : ∀ c, ¬ modifies c → (code c).ReadOnly

namespace Guarded

variable {Thread : Type*} {Call ε : Type v} {σ α : Type u}

/-- What the lock sees of the class. -/
def discipline (G : Guarded Call ε σ α) : Discipline Call Unit where
  mode := G.mode
  modifies := G.modifies
  body _ _ _ := True

/-- A call that has given back the lock, and what it is about to return. -/
structure Entry (Thread : Type*) (Call : Type v) (α : Type u) where
  thread : Thread
  call : Call
  answer : α

/-- A thread is outside, or inside a call with the rest of its code to run. The
history is the calls that have given back the lock, in the order of their unlocks; no step
reads it. A call is over with its unlock, for nothing but its answer is left to return. -/
structure State (Thread : Type*) (Call ε : Type v) (σ α : Type u) where
  lock : Lock
  running : Thread → Option (Call × Code ε σ α)
  todo : Thread → List Call
  shared : σ
  history : List (Entry Thread Call α)

namespace State

def initial (prog : Thread → List Call) (shared : σ) : State Thread Call ε σ α :=
  ⟨.free, fun _ => none, prog, shared, []⟩

/-- A call has thrown `e`, and no thread takes a step any more. -/
def Ended (s : State Thread Call ε σ α) (e : ε) : Prop := ∃ t c, s.running t = some (c, .throw e)

/-- No thread is in a call, and none has one left. -/
def Done (s : State Thread Call ε σ α) : Prop := ∀ t, s.running t = none ∧ s.todo t = []

def phase : Option (Call × Code ε σ α) → ReadWriteLock.Phase Call
  | none => .outside
  | some (c, _) => .inside c false

/-- The state as the lock sees it. -/
def outline (s : State Thread Call ε σ α) : ReadWriteLock.State Thread Call Unit :=
  ⟨s.lock, phase ∘ s.running, s.todo, ()⟩

theorem inside_outline {s : State Thread Call ε σ α} {t : Thread} {c : Call} :
    s.outline.Inside t c ↔ ∃ rest, s.running t = some (c, rest) := by
  show (∃ done, phase (s.running t) = .inside c done) ↔ _
  cases s.running t with
  | none => simp [phase]
  | some r =>
    obtain ⟨d, rest⟩ := r
    simp [phase]

end State

open State

variable [DecidableEq Thread]

/-- One step of one thread, while no call has thrown. -/
inductive Step (G : Guarded Call ε σ α) : State Thread Call ε σ α → State Thread Call ε σ α → Prop
  | acquire {s : State Thread Call ε σ α} {t : Thread} {c : Call} {rest : List Call} {l : Lock}
      (alive : ∀ e, ¬ s.Ended e) (out : s.running t = none) (next : s.todo t = c :: rest)
      (grant : s.lock.acquire (G.mode c) = some l) :
      Step G s { s with
        lock := l
        running := Function.update s.running t (some (c, G.code c))
        todo := Function.update s.todo t rest }
  | read {s : State Thread Call ε σ α} {t : Thread} {c : Call} {next : σ → Code ε σ α}
      (alive : ∀ e, ¬ s.Ended e) (at_read : s.running t = some (c, .read next)) :
      Step G s { s with running := Function.update s.running t (some (c, next s.shared)) }
  | write {s : State Thread Call ε σ α} {t : Thread} {c : Call} {x : σ} {next : Code ε σ α}
      (alive : ∀ e, ¬ s.Ended e) (at_write : s.running t = some (c, .write x next)) :
      Step G s { s with
        running := Function.update s.running t (some (c, next))
        shared := x }
  | release {s : State Thread Call ε σ α} {t : Thread} {c : Call} {a : α}
      (alive : ∀ e, ¬ s.Ended e) (at_end : s.running t = some (c, .pure a)) :
      Step G s { s with
        lock := s.lock.release
        running := Function.update s.running t none
        history := s.history ++ [⟨t, c, a⟩] }

/-- Any number of steps, in any order of the threads. -/
def Run (G : Guarded Call ε σ α) : State Thread Call ε σ α → State Thread Call ε σ α → Prop :=
  Relation.ReflTransGen (Step G)

variable {G : Guarded Call ε σ α} {s s' : State Thread Call ε σ α}

/-! ### The lock's view -/

/-- An access in the middle of a call is nothing to the lock. -/
theorem phase_update {t : Thread} {c : Call} {code : Code ε σ α} (h : s.running t = some (c, code))
    (rest : Code ε σ α) : phase ∘ Function.update s.running t (some (c, rest)) = phase ∘ s.running := by
  have hphase : phase (some (c, rest)) = (phase ∘ s.running) t := (congrArg phase h).symm
  rw [Function.comp_update, hphase, Function.update_eq_self]

/-- Each step is what the lock sees as one step, none, or two. -/
theorem Step.outline (h : Step G s s') : ReadWriteLock.Run G.discipline s.outline s'.outline := by
  cases h with
  | @acquire t c rest l alive out next grant =>
    have hstep := ReadWriteLock.Step.acquire (D := G.discipline) (s := s.outline) (t := t)
      (congrArg phase out) next grant
    refine Relation.ReflTransGen.single ?_
    show ReadWriteLock.Step _ _ ⟨l, phase ∘ Function.update s.running t _, _, ()⟩
    rw [Function.comp_update]
    exact hstep
  | read alive at_read =>
    show ReadWriteLock.Run _ _ ⟨s.lock, phase ∘ _, s.todo, ()⟩
    rw [phase_update at_read]
    exact .refl
  | write alive at_write =>
    show ReadWriteLock.Run _ _ ⟨s.lock, phase ∘ _, s.todo, ()⟩
    rw [phase_update at_write]
    exact .refl
  | @release t c a alive at_end =>
    have hbody := ReadWriteLock.Step.body (D := G.discipline) (s := s.outline) (t := t) (c := c) (x := ())
      (congrArg phase at_end) trivial
    have hrelease := ReadWriteLock.Step.release (D := G.discipline) (t := t) (c := c)
      (s := { s.outline with phase := Function.update s.outline.phase t (.inside c true), shared := () })
      (Function.update_self ..)
    refine (Relation.ReflTransGen.single hbody).tail ?_
    show ReadWriteLock.Step _ _ ⟨s.lock.release, phase ∘ Function.update s.running t none, s.todo, ()⟩
    rw [Function.comp_update]
    rw [Function.update_idem] at hrelease
    exact hrelease

theorem Run.outline (h : Run G s s') : ReadWriteLock.Run G.discipline s.outline s'.outline := by
  induction h with
  | refl => exact .refl
  | tail _ hstep ih => exact ih.trans hstep.outline

/-- No two threads of the programs have calls that race. -/
def RaceFree (G : Guarded Call ε σ α) (prog : Thread → List Call) : Prop :=
  ∀ t u, t ≠ u → ¬ G.discipline.Races prog t u

theorem Run.exclusive {prog : Thread → List Call} {shared : σ} (hrace : RaceFree G prog)
    (h : Run G (State.initial prog shared) s) : s.outline.Exclusive G.discipline :=
  ReadWriteLock.exclusive_of_not_races hrace h.outline

/-! ### Runs of one thread alone -/

section Alone
variable {t : Thread} {c : Call} {a : α} {y : σ}

omit [DecidableEq Thread] in
theorem not_ended_of_alone {code : Code ε σ α} {x : σ} (others : ∀ u, u ≠ t → s.running u = none)
    (ht : s.running t = some (c, code)) (hexec : code.exec x = .ok (a, y)) (e : ε) : ¬ s.Ended e := by
  rintro ⟨u, d, hu⟩
  by_cases hut : u = t
  · subst hut
    rw [ht] at hu
    cases hu
    cases hexec
  · rw [others u hut] at hu
    cases hu

/-- The code of a call, run with no other thread in a call. -/
theorem run_code {code : Code ε σ α} (others : ∀ u, u ≠ t → s.running u = none)
    (ht : s.running t = some (c, code)) (hexec : code.exec s.shared = .ok (a, y)) :
    Run G s { s with running := Function.update s.running t (some (c, .pure a)), shared := y } := by
  have alive := not_ended_of_alone others ht hexec
  induction code generalizing s with
  | pure b =>
    cases hexec
    rw [← ht, Function.update_eq_self]
    exact .refl
  | throw e => cases hexec
  | read next ih =>
    have hrest := ih s.shared (s := { s with running := Function.update s.running t (some (c, next s.shared)) })
      (fun u hu => (Function.update_of_ne hu ..).trans (others u hu)) (Function.update_self ..) hexec
      (not_ended_of_alone (t := t) (fun u hu => (Function.update_of_ne hu ..).trans (others u hu))
        (Function.update_self ..) hexec)
    rw [Function.update_idem] at hrest
    exact .head (.read alive ht) hrest
  | write x next ih =>
    have hrest := ih (s := { s with running := Function.update s.running t (some (c, next)), shared := x })
      (fun u hu => (Function.update_of_ne hu ..).trans (others u hu)) (Function.update_self ..) hexec
      (not_ended_of_alone (t := t) (fun u hu => (Function.update_of_ne hu ..).trans (others u hu))
        (Function.update_self ..) hexec)
    rw [Function.update_idem] at hrest
    exact .head (.write alive ht) hrest

/-- With nobody inside, a thread can take its next call whole. -/
theorem run_call {rest : List Call} (out : ∀ u, s.running u = none) (free : s.lock = .free)
    (next : s.todo t = c :: rest) (hexec : (G.code c).exec s.shared = .ok (a, y)) :
    Run G s ⟨.free, s.running, Function.update s.todo t rest, y, s.history ++ [⟨t, c, a⟩]⟩ := by
  obtain ⟨l, grant⟩ : ∃ l, s.lock.acquire (G.mode c) = some l := by
    rw [free, ← Option.isSome_iff_exists]
    cases G.mode c <;> rfl
  have alive : ∀ e, ¬ s.Ended e := by
    rintro e ⟨u, d, hu⟩
    rw [out u] at hu
    cases hu
  have h₁ := Step.acquire (G := G) alive (out t) next grant
  have h₂ := run_code (G := G) (t := t) (c := c)
    (s := ⟨l, Function.update s.running t (some (c, G.code c)), Function.update s.todo t rest, s.shared, s.history⟩)
    (fun u hu => (Function.update_of_ne hu ..).trans (out u)) (Function.update_self ..) hexec
  have h₃ := Step.release (G := G) (t := t) (c := c) (a := a)
    (s := ⟨l, Function.update s.running t (some (c, .pure a)), Function.update s.todo t rest, y, s.history⟩)
    (not_ended_of_alone (t := t) (x := y) (fun u hu => (Function.update_of_ne hu ..).trans (out u))
      (Function.update_self ..) rfl) (Function.update_self ..)
  rw [Function.update_idem] at h₂
  rw [Function.update_idem, ← out t, Function.update_eq_self, Lock.release_of_acquire grant, free] at h₃
  exact .head h₁ (h₂.tail h₃)

end Alone

/-! ### The history -/

section Replays
omit [DecidableEq Thread]
variable {run : Call → Body ε σ α} {entries : List (Entry Thread Call α)} {x y z : σ}

/-- The calls, one after the other and each run whole, give these answers and make `y`
of `x`. -/
def Replays (run : Call → Body ε σ α) : List (Entry Thread Call α) → σ → σ → Prop
  | [], x, y => x = y
  | entry :: entries, x, z => ∃ y, run entry.call x = .ok (entry.answer, y) ∧ Replays run entries y z

theorem Replays.append {t : Thread} {c : Call} {a : α} (h : Replays run entries x y)
    (hrun : run c y = .ok (a, z)) : Replays run (entries ++ [⟨t, c, a⟩]) x z := by
  induction entries generalizing x with
  | nil =>
    obtain rfl : x = y := h
    exact ⟨z, hrun, rfl⟩
  | cons entry entries ih =>
    obtain ⟨w, hw, hrest⟩ := h
    exact ⟨w, hw, ih hrest⟩

/-- Where each call answers of related objects the same and leaves related objects, a
history of the one is a history of the other. -/
theorem Replays.of_simulation {τ : Type u} (run' : Call → Body ε τ α) (R : τ → σ → Prop) (P : Call → Prop)
    {x₀ : τ} (hsim : ∀ c, P c → ∀ x y a y', R x y → run c y = .ok (a, y') →
      ∃ x', run' c x = .ok (a, x') ∧ R x' y')
    (hP : ∀ entry ∈ entries, P entry.call) (hR : R x₀ x) (h : Replays run entries x y) :
    ∃ x', Replays run' entries x₀ x' ∧ R x' y := by
  induction entries generalizing x x₀ with
  | nil =>
    obtain rfl : x = y := h
    exact ⟨x₀, rfl, hR⟩
  | cons entry entries ih =>
    obtain ⟨w, hw, hrest⟩ := h
    obtain ⟨z, hz, hRz⟩ := hsim entry.call (hP entry List.mem_cons_self) x₀ x entry.answer w hR hw
    obtain ⟨x', hx', hRy⟩ := ih (fun e he => hP e (List.mem_cons_of_mem _ he)) hRz hrest
    exact ⟨x', ⟨z, hz, hx'⟩, hRy⟩

end Replays

/-- What a state of an interleaved run has to do with the calls taken one by one: the
history replays to `x`; a call that is running is on its way to what it does to `x`;
and the object is `x` while none that modifies is running. -/
structure Explained (G : Guarded Call ε σ α) (x₀ : σ) (s : State Thread Call ε σ α) (x : σ) : Prop where
  replays : Replays (fun c => (G.code c).exec) s.history x₀ x
  running : ∀ t c rest, s.running t = some (c, rest) →
    rest.exec s.shared = (G.code c).exec x ∧ (¬ G.modifies c → rest.ReadOnly)
  settled : (∀ t c, s.outline.Inside t c → ¬ G.modifies c) → s.shared = x

omit [DecidableEq Thread] in
theorem explained_initial (prog : Thread → List Call) (x₀ : σ) : Explained G x₀ (initial prog x₀) x₀ where
  replays := rfl
  running t c rest h := by cases h
  settled _ := rfl

section Step
variable {x₀ x : σ} {t u : Thread} {c d : Call} {code rest : Code ε σ α}

omit [DecidableEq Thread] in
theorem not_modifies_of_ne (hex : s.outline.Exclusive G.discipline) (ht : s.running t = some (c, code))
    (hu : s.running u = some (d, rest)) (hne : t ≠ u) : ¬ G.modifies c := fun hmod =>
  hex t u c d hne (inside_outline.mpr ⟨code, ht⟩) hmod (inside_outline.mpr ⟨rest, hu⟩)

theorem running_update {r : Option (Call × Code ε σ α)}
    (h : Function.update s.running t r u = some (d, rest)) :
    (u = t ∧ r = some (d, rest)) ∨ (u ≠ t ∧ s.running u = some (d, rest)) := by
  by_cases hut : u = t
  · rw [hut, Function.update_self] at h
    exact .inl ⟨hut, h⟩
  · rw [Function.update_of_ne hut] at h
    exact .inr ⟨hut, h⟩

/-- Whoever is let in meets the object as the history makes it. -/
theorem Explained.shared_of_acquire (hs : Explained G x₀ s x) (out : s.running t = none)
    {l : Lock} {todo : Thread → List Call}
    (hex : State.outline ⟨l, Function.update s.running t (some (c, code)), todo, s.shared, s.history⟩
      |>.Exclusive G.discipline) : s.shared = x := by
  apply hs.settled
  intro u d hd
  obtain ⟨rest, hu⟩ := inside_outline.mp hd
  have hne : u ≠ t := by
    rintro rfl
    rw [out] at hu
    cases hu
  exact not_modifies_of_ne hex ((Function.update_of_ne hne ..).trans hu) (Function.update_self ..) hne

theorem Explained.acquire (hs : Explained G x₀ s x) (hshared : s.shared = x) (l : Lock)
    (todo : Thread → List Call) :
    Explained G x₀ ⟨l, Function.update s.running t (some (c, G.code c)), todo, s.shared, s.history⟩ x where
  replays := hs.replays
  running u d rest hu := by
    rcases running_update hu with ⟨rfl, hr⟩ | ⟨_, hu⟩
    · cases hr
      exact ⟨by rw [hshared], G.readOnly c⟩
    · exact hs.running u d rest hu
  settled _ := hshared

theorem Explained.read {next : σ → Code ε σ α} (hs : Explained G x₀ s x)
    (at_read : s.running t = some (c, .read next)) :
    Explained G x₀ { s with running := Function.update s.running t (some (c, next s.shared)) } x where
  replays := hs.replays
  running u d rest hu := by
    rcases running_update hu with ⟨rfl, hr⟩ | ⟨_, hu⟩
    · cases hr
      obtain ⟨hexec, hreads⟩ := hs.running u c _ at_read
      exact ⟨hexec, fun hmod => hreads hmod s.shared⟩
    · exact hs.running u d rest hu
  settled h := by
    apply hs.settled
    rw [State.outline, phase_update at_read] at h
    exact h

/-- A call that writes is one that modifies, and so is in by itself. -/
theorem Explained.write {y : σ} (hs : Explained G x₀ s x) (hex : s.outline.Exclusive G.discipline)
    (at_write : s.running t = some (c, .write y rest)) :
    Explained G x₀ { s with running := Function.update s.running t (some (c, rest)), shared := y } x := by
  obtain ⟨hexec, hreads⟩ := hs.running t c _ at_write
  have hmod : G.modifies c := by
    by_contra hmod
    exact hreads hmod
  refine ⟨hs.replays, fun u d code hu => ?_, fun h => ?_⟩
  · rcases running_update hu with ⟨rfl, hr⟩ | ⟨hut, hu⟩
    · cases hr
      exact ⟨hexec, fun hnot => absurd hmod hnot⟩
    · exact absurd hmod (not_modifies_of_ne hex at_write hu (Ne.symm hut))
  · exact absurd hmod (h t c (inside_outline.mpr ⟨rest, Function.update_self ..⟩))

/-- A call takes its place in the order with its unlock: those still running then have
only read, or there are none. -/
theorem Explained.release {a : α} (hs : Explained G x₀ s x) (hex : s.outline.Exclusive G.discipline)
    (at_end : s.running t = some (c, .pure a)) :
    Explained G x₀ { s with
      lock := s.lock.release
      running := Function.update s.running t none
      history := s.history ++ [⟨t, c, a⟩] } s.shared := by
  have hexec : (G.code c).exec x = .ok (a, s.shared) := (hs.running t c _ at_end).1.symm
  refine ⟨hs.replays.append hexec, fun u d rest hu => ?_, fun _ => rfl⟩
  rcases running_update hu with ⟨_, hr⟩ | ⟨hut, hu⟩
  · cases hr
  · have hreads := (G.readOnly c (not_modifies_of_ne hex at_end hu (Ne.symm hut))).reads
    have hshared : s.shared = x := hreads x a s.shared hexec
    have hrunning := hs.running u d rest hu
    rw [← hshared] at hrunning
    exact hrunning

theorem Explained.step (hs : Explained G x₀ s x) (hex : s.outline.Exclusive G.discipline)
    (hex' : s'.outline.Exclusive G.discipline) (h : Step G s s') : ∃ x', Explained G x₀ s' x' := by
  cases h with
  | acquire alive out next grant => exact ⟨x, hs.acquire (hs.shared_of_acquire out hex') _ _⟩
  | read alive at_read => exact ⟨x, hs.read at_read⟩
  | write alive at_write => exact ⟨x, hs.write hex at_write⟩
  | release alive at_end => exact ⟨s.shared, hs.release hex at_end⟩

end Step

theorem Explained.run {prog : Thread → List Call} {x₀ : σ} (hrace : RaceFree G prog)
    (h : Run G (initial prog x₀) s) : ∃ x, Explained G x₀ s x := by
  induction h with
  | refl => exact ⟨x₀, explained_initial prog x₀⟩
  | tail hrun hstep ih =>
    obtain ⟨x, hx⟩ := ih
    exact hx.step (Run.exclusive hrace hrun) (Run.exclusive hrace (hrun.tail hstep)) hstep

omit [DecidableEq Thread] in
/-- A call that has thrown throws on the object as the history makes it. -/
theorem Explained.throws {x₀ x : σ} (hs : Explained G x₀ s x) {e : ε} (h : s.Ended e) :
    ∃ c, (∃ t, s.outline.Inside t c) ∧ (G.code c).exec x = .error e := by
  obtain ⟨t, c, ht⟩ := h
  exact ⟨c, ⟨t, inside_outline.mpr ⟨_, ht⟩⟩, (hs.running t c _ ht).1.symm⟩

/-! ### The order -/

/-- The calls of a thread: those that are over, the one it is in, and those to come. -/
def State.calls (s : State Thread Call ε σ α) (t : Thread) : List Call :=
  (s.history.filter fun entry => entry.thread = t).map Entry.call ++
    ((s.running t).map Prod.fst).toList ++ s.todo t

theorem Step.calls (h : Step G s s') (t : Thread) : s'.calls t = s.calls t := by
  unfold State.calls
  cases h with
  | @acquire u c rest l alive out next grant =>
    by_cases htu : t = u
    · subst htu
      simp [out, next]
    · simp [htu]
  | @read u c next alive at_read =>
    by_cases htu : t = u
    · subst htu
      simp [at_read]
    · simp [htu]
  | @write u c x next alive at_write =>
    by_cases htu : t = u
    · subst htu
      simp [at_write]
    · simp [htu]
  | @release u c a alive at_end =>
    by_cases htu : t = u
    · subst htu
      simp [at_end]
    · simp [htu, Ne.symm htu]

/-- Every thread makes its calls in the order of its program. -/
theorem Run.calls {prog : Thread → List Call} {x₀ : σ} (h : Run G (initial prog x₀) s) (t : Thread) :
    s.calls t = prog t := by
  induction h with
  | refl => rfl
  | tail _ hstep ih => exact (hstep.calls t).trans ih

/-- Whatever is over is a call of its thread's program. -/
theorem Run.mem_of_history {prog : Thread → List Call} {x₀ : σ} (h : Run G (initial prog x₀) s)
    {entry : Entry Thread Call α} (he : entry ∈ s.history) : entry.call ∈ prog entry.thread := by
  rw [← h.calls entry.thread, State.calls, List.append_assoc]
  refine List.mem_append_left _ (List.mem_map_of_mem ?_)
  simpa using he

/-- A call keeps its place: whatever comes to its unlock later comes later. -/
theorem Run.history (h : Run G s s') : s.history <+: s'.history := by
  induction h with
  | refl => exact List.prefix_refl _
  | tail _ hstep ih =>
    refine ih.trans ?_
    cases hstep with
    | release => exact List.prefix_append _ _
    | acquire | read | write => exact List.prefix_refl _

/-! ### Progress -/

/-- With nobody inside, the lock is free. -/
theorem lock_eq_free {prog : Thread → List Call} {x₀ : σ} (h : Run G (initial prog x₀) s)
    (hout : ∀ t, s.running t = none) : s.lock = .free := by
  have hi : ReadWriteLock.Invariant G.discipline s.outline :=
    (ReadWriteLock.invariant_initial prog ()).run h.outline
  have hnot : ∀ t c, ¬ s.outline.Inside t c := fun t c hc => by
    obtain ⟨rest, hrest⟩ := inside_outline.mp hc
    rw [hout t] at hrest
    cases hrest
  obtain ⟨R, hR, hcard⟩ := hi.readers
  have hempty : R = ∅ := by
    refine Finset.eq_empty_of_forall_notMem fun t ht => ?_
    obtain ⟨c, hc, _⟩ := (hR t).mp ht
    exact hnot t c hc
  have hwriter : ¬ s.lock.writer = true := fun hw => by
    obtain ⟨t, c, hc, _⟩ := hi.writer.mp hw
    exact hnot t c hc
  show (⟨s.lock.readers, s.lock.writer⟩ : Lock) = ⟨0, false⟩
  rw [show s.lock.readers = 0 from hcard.trans (Finset.card_eq_zero.mpr hempty),
    Bool.eq_false_iff.mpr hwriter]

/-- Where no code throws, no call has thrown, races or not. -/
theorem Run.not_ended (hcode : ∀ c, (G.code c).NoThrow) {prog : Thread → List Call} {x₀ : σ}
    (h : Run G (initial prog x₀) s) (e : ε) : ¬ s.Ended e := by
  have hrest : ∀ t c rest, s.running t = some (c, rest) → rest.NoThrow := by
    induction h with
    | refl =>
      intro t c rest ht
      cases ht
    | tail _ hstep ih =>
      intro u d rest hu
      cases hstep with
      | acquire alive out next grant =>
        rcases running_update hu with ⟨_, hr⟩ | ⟨_, hu⟩
        · cases hr
          exact hcode d
        · exact ih u d rest hu
      | read alive at_read =>
        rcases running_update hu with ⟨_, hr⟩ | ⟨_, hu⟩
        · cases hr
          exact ih _ _ (.read _) at_read _
        · exact ih u d rest hu
      | write alive at_write =>
        rcases running_update hu with ⟨_, hr⟩ | ⟨_, hu⟩
        · cases hr
          exact ih _ _ (.write _ rest) at_write
        · exact ih u d rest hu
      | release alive at_end =>
        rcases running_update hu with ⟨_, hr⟩ | ⟨_, hu⟩
        · cases hr
        · exact ih u d rest hu
  rintro ⟨t, c, ht⟩
  exact hrest t c _ ht

/-- While no call has thrown and some call is not done, some thread can take a step. -/
theorem Run.progress {prog : Thread → List Call} {x₀ : σ} (h : Run G (initial prog x₀) s)
    (alive : ∀ e, ¬ s.Ended e) (hdone : ¬ s.Done) : ∃ s', Step G s s' := by
  by_cases hout : ∀ t, s.running t = none
  · -- nobody is inside, so the lock is free for whoever has a call to make
    obtain ⟨t, ht⟩ : ∃ t, s.todo t ≠ [] := by
      by_contra hnone
      exact hdone fun t => ⟨hout t, by_contra fun ht => hnone ⟨t, ht⟩⟩
    obtain ⟨c, rest, next⟩ := List.exists_cons_of_ne_nil ht
    obtain ⟨l, grant⟩ : ∃ l, s.lock.acquire (G.mode c) = some l := by
      rw [lock_eq_free h hout, ← Option.isSome_iff_exists]
      cases G.mode c <;> rfl
    exact ⟨_, .acquire alive (hout t) next grant⟩
  · obtain ⟨t, ht⟩ := not_forall.mp hout
    obtain ⟨⟨c, rest⟩, hrest⟩ := Option.ne_none_iff_exists'.mp ht
    cases rest with
    | pure a => exact ⟨_, .release alive hrest⟩
    | throw e => exact absurd ⟨t, c, hrest⟩ (alive e)
    | read next => exact ⟨_, .read alive hrest⟩
    | write x next => exact ⟨_, .write alive hrest⟩

/-- A state in which no thread can take a step, though no call has thrown, has every
call past its unlock, each thread's in the order of its program. -/
theorem Run.returned {prog : Thread → List Call} {x₀ : σ} (h : Run G (initial prog x₀) s)
    (alive : ∀ e, ¬ s.Ended e) (hstuck : ¬ ∃ s', Step G s s') :
    (∀ t, s.running t = none) ∧
      ∀ t, (s.history.filter fun entry => entry.thread = t).map Entry.call = prog t := by
  have hdone : s.Done := by
    by_contra hdone
    exact hstuck (h.progress alive hdone)
  refine ⟨fun t => (hdone t).1, fun t => ?_⟩
  have hcalls := h.calls t
  rw [State.calls, (hdone t).1, (hdone t).2] at hcalls
  simpa using hcalls

/-! ### How long a run can be -/

section Bound
variable {bound : Call → ℕ}

/-- A thread has at most `n` steps to go: two for the lock and one for each access of
every call to come, and the rest of the call it is in. -/
def Within (bound : Call → ℕ) (running : Option (Call × Code ε σ α)) (todo : List Call) (n : ℕ) : Prop :=
  ∃ m, n = m + (todo.map fun c => bound c + 2).sum ∧
    ∀ c rest, running = some (c, rest) → ∃ k, m = k + 1 ∧ rest.Within k

omit [DecidableEq Thread] in
theorem Within.next (hbound : ∀ c, (G.code c).Within (bound c)) {c : Call} {rest : List Call} {n : ℕ}
    (h : Within bound (none : Option (Call × Code ε σ α)) (c :: rest) n) :
    ∃ n', n = n' + 1 ∧ Within bound (some (c, G.code c)) rest n' := by
  obtain ⟨m, rfl, _⟩ := h
  refine ⟨m + (bound c + 1 + (rest.map fun c => bound c + 2).sum), ?_, m + bound c + 1, by omega, ?_⟩
  · rw [List.map_cons, List.sum_cons]
    omega
  · rintro d code hd
    cases hd
    exact ⟨m + bound c, rfl, (hbound c).mono (by omega)⟩

omit [DecidableEq Thread] in
/-- An access, and the release, each use up a step. -/
theorem Within.running {c : Call} {code : Code ε σ α} {todo : List Call} {n : ℕ}
    (h : Within bound (some (c, code)) todo n) (running : Option (Call × Code ε σ α))
    (hnext : ∀ k, code.Within k →
      ∀ d rest, running = some (d, rest) → ∃ j, k = j + 1 ∧ rest.Within j) :
    ∃ n', n = n' + 1 ∧ Within bound running todo n' := by
  obtain ⟨m, rfl, hm⟩ := h
  obtain ⟨k, rfl, hk⟩ := hm c code rfl
  exact ⟨k + (todo.map fun c => bound c + 2).sum, by omega, k, rfl, hnext k hk⟩

/-- A step of a thread leaves it one step less to go, and the others as many. -/
theorem Step.within (hbound : ∀ c, (G.code c).Within (bound c)) (h : Step G s s') {f : Thread → ℕ}
    (hf : ∀ t, Within bound (s.running t) (s.todo t) (f t)) :
    ∃ t n, f t = n + 1 ∧ ∀ u, Within bound (s'.running u) (s'.todo u) (Function.update f t n u) := by
  have hmove : ∀ t n running todo, Within bound running todo n → ∀ u,
      Within bound (Function.update s.running t running u) (Function.update s.todo t todo u)
        (Function.update f t n u) := by
    intro t n running todo hn u
    by_cases hut : u = t
    · subst hut
      simpa using hn
    · simpa [hut] using hf u
  cases h with
  | @acquire t c rest l alive out next grant =>
    have ht := hf t
    rw [out, next] at ht
    obtain ⟨n, hn, hwithin⟩ := ht.next hbound
    exact ⟨t, n, hn, hmove t n _ _ hwithin⟩
  | @read t c next alive at_read =>
    have ht := hf t
    rw [at_read] at ht
    obtain ⟨n, hn, hwithin⟩ := ht.running (some (c, next s.shared)) fun k hk d rest hd => by
      cases hd
      obtain _ | k := k
      · exact hk.elim
      · exact ⟨k, rfl, hk s.shared⟩
    refine ⟨t, n, hn, fun u => ?_⟩
    simpa using hmove t n _ _ hwithin u
  | @write t c x next alive at_write =>
    have ht := hf t
    rw [at_write] at ht
    obtain ⟨n, hn, hwithin⟩ := ht.running (some (c, next)) fun k hk d rest hd => by
      cases hd
      obtain _ | k := k
      · exact hk.elim
      · exact ⟨k, rfl, hk⟩
    refine ⟨t, n, hn, fun u => ?_⟩
    simpa using hmove t n _ _ hwithin u
  | @release t c a alive at_end =>
    have ht := hf t
    rw [at_end] at ht
    obtain ⟨n, hn, hwithin⟩ := ht.running none fun k hk d rest hd => by cases hd
    refine ⟨t, n, hn, fun u => ?_⟩
    simpa using hmove t n _ _ hwithin u

theorem length_le_of_within [Fintype Thread] (hbound : ∀ c, (G.code c).Within (bound c))
    {states : List (State Thread Call ε σ α)} (h : (s :: states).IsChain (Step G)) {f : Thread → ℕ}
    (hf : ∀ t, Within bound (s.running t) (s.todo t) (f t)) : states.length ≤ ∑ t, f t := by
  induction states generalizing s f with
  | nil => exact Nat.zero_le _
  | cons s' states ih =>
    rw [List.isChain_cons_cons] at h
    obtain ⟨t, n, hn, hf'⟩ := h.1.within hbound hf
    have hrest := ih h.2 hf'
    have hsum : ∑ u, Function.update f t n u + f t = ∑ u, f u + n := by
      rw [Finset.sum_update_of_mem (Finset.mem_univ t), ← Finset.sum_sdiff (Finset.subset_univ {t}),
        Finset.sum_singleton]
      omega
    rw [List.length_cons]
    omega

/-- No run takes more steps than two for each call of the programs and one for each
access the call may make. -/
theorem length_le [Fintype Thread] (bound : Call → ℕ) (hbound : ∀ c, (G.code c).Within (bound c)) {prog : Thread → List Call}
    {x₀ : σ} {states : List (State Thread Call ε σ α)}
    (h : (initial prog x₀ :: states).IsChain (Step G)) :
    states.length ≤ ∑ t, ((prog t).map fun c => bound c + 2).sum :=
  length_le_of_within hbound h fun t => ⟨0, (Nat.zero_add _).symm, fun c rest hr => by cases hr⟩

end Bound

end Guarded

end StudyDB
