import Mathlib.Data.List.TakeWhile
import StudyDB.Locks.Monitor

/-! `SharedLock`, the lock that the handle pool is built on: shared by readers, exclusive
for a writer, and entered again by the thread that has it. Proved: a writer has the lock
alone; while threads wait, the lock is taken or will be by a thread that was woken; and no
thread overtakes a writer in the queue. -/

namespace StudyDB.WCDB

open Monitor (World)

/-- The members of the class; `threadedReaders` is the thread's own count. -/
structure SharedLock (Thread : Type*) where
  readers : ℕ := 0
  writers : ℕ := 0
  pendingReaders : ℕ := 0
  pendingWriters : List Thread := []
  locking : Option Thread := none
  threadedReaders : Thread → ℕ := fun _ => 0

namespace SharedLock

/-! ### The calls -/

/-- The two condition variables. -/
inductive Place where
  | readers | writers
  deriving DecidableEq, Repr

inductive Call where
  | lock | unlock | lockShared | unlockShared
  deriving DecidableEq, Repr

inductive Level where
  | none | read | write
  deriving DecidableEq, Repr

variable {Thread : Type*} [DecidableEq Thread] (t : Thread) (s : SharedLock Thread)

def level : Level :=
  if s.locking = some t then .write else if 0 < s.threadedReaders t then .read else .none

def addReader : SharedLock Thread :=
  { s with
    readers := s.readers + 1
    threadedReaders := Function.update s.threadedReaders t (s.threadedReaders t + 1) }

def removeReader : SharedLock Thread :=
  { s with
    readers := s.readers - 1
    threadedReaders := Function.update s.threadedReaders t (s.threadedReaders t - 1) }

def addWriter : SharedLock Thread := { s with writers := s.writers + 1, locking := some t }

/-- Returns at once. -/
def done (s : SharedLock Thread) : Section (SharedLock Thread) Thread Place Unit := { state := s, ends := .done () }

def waitAt (p : Place) (s : SharedLock Thread) : Section (SharedLock Thread) Thread Place Unit :=
  { state := s, ends := .wait p }

/-- Apple's systems notify one thread, the first of the queue. -/
def notifyWriter : Place → Thread → Bool := fun p u => p = .writers && s.pendingWriters.head? = some u

def notifyReaders : Place → Thread → Bool := fun p _ => p = .readers

/-- Who writes, or has it before it, makes a reader wait, unless it has the lock. -/
def lockShared : Section (SharedLock Thread) Thread Place Unit :=
  if (if 0 < s.writers then s.locking ≠ some t else s.pendingWriters ≠ [] ∧ s.threadedReaders t = 0) then
    waitAt .readers { s with pendingReaders := s.pendingReaders + 1 }
  else
    done (s.addReader t)

/-- The loop of a reader that was woken. -/
def lockSharedAgain : Section (SharedLock Thread) Thread Place Unit :=
  if 0 < s.writers ∨ s.pendingWriters ≠ [] then
    waitAt .readers s
  else
    done ({ s with pendingReaders := s.pendingReaders - 1 }.addReader t)

def unlockShared : Section (SharedLock Thread) Thread Place Unit :=
  if s.threadedReaders t = 0 then done s
  else if (s.removeReader t).readers = 0 ∧ s.writers = 0 ∧ s.pendingWriters ≠ [] then
    { state := s.removeReader t, wakes := s.notifyWriter, ends := .done () }
  else
    done (s.removeReader t)

/-- The loop of a writer that is in the queue. -/
def lockAgain : Section (SharedLock Thread) Thread Place Unit :=
  if 0 < s.readers ∨ 0 < s.writers ∨ s.pendingWriters.head? ≠ some t then
    waitAt .writers s
  else
    done ({ s with pendingWriters := s.pendingWriters.tail }.addWriter t)

/-- A reader does not become a writer: its call returns without the lock. -/
def lock : Section (SharedLock Thread) Thread Place Unit :=
  if s.threadedReaders t ≠ 0 then done s
  else if s.locking = some t then done (s.addWriter t)
  else { s with pendingWriters := s.pendingWriters ++ [t] }.lockAgain t

def unlock : Section (SharedLock Thread) Thread Place Unit :=
  if s.threadedReaders t ≠ 0 then done s
  else if s.locking ≠ some t then done s
  else if s.writers - 1 = 0 then
    let s' := { s with writers := s.writers - 1, locking := none }
    if s.pendingWriters ≠ [] then { state := s', wakes := s.notifyWriter, ends := .done () }
    else if 0 < s.pendingReaders then { state := s', wakes := notifyReaders, ends := .done () }
    else done s'
  else
    done { s with writers := s.writers - 1 }

def monitor : Monitor (SharedLock Thread) Thread Call Place Unit where
  enter t
    | .lock => lock t
    | .unlock => unlock t
    | .lockShared => lockShared t
    | .unlockShared => unlockShared t
  resume t _
    | .readers => lockSharedAgain t
    | .writers => lockAgain t

/-- A lock and the threads that call it. -/
abbrev Threads (Thread : Type*) := World (SharedLock Thread) Thread Call Place Unit

/-- A lock that no thread has called. -/
def fresh : Threads Thread := .start {}

/-! ### Who has the lock -/

section Sound
variable [Fintype Thread] {t : Thread} {s : SharedLock Thread}

/-- The counts are those of the threads, and a writer is alone with the lock. -/
structure Sound (s : SharedLock Thread) : Prop where
  readers_eq : s.readers = ∑ t, s.threadedReaders t
  writers_pos_iff : 0 < s.writers ↔ s.locking ≠ none
  alone : ∀ t u, s.locking = some t → s.threadedReaders u ≠ 0 → u = t

omit [DecidableEq Thread] in
theorem Sound.threadedReaders_eq_zero (h : s.Sound) (hs : s.readers = 0) (t : Thread) : s.threadedReaders t = 0 :=
  Finset.sum_eq_zero_iff.mp (h.readers_eq.symm.trans hs) t (Finset.mem_univ t)

omit [DecidableEq Thread] in
theorem Sound.locking_eq_none (h : s.Sound) (hs : s.writers = 0) : s.locking = none := by
  by_contra hne
  have := h.writers_pos_iff.mpr hne
  omega

theorem Sound.addReader (h : s.Sound) (ht : ∀ u, s.locking = some u → t = u) : (s.addReader t).Sound where
  readers_eq := by
    have hsum := Monitor.sum_update_add s.threadedReaders t (s.threadedReaders t + 1)
    have hreaders := h.readers_eq
    simp only [SharedLock.addReader]
    omega
  writers_pos_iff := h.writers_pos_iff
  alone v u hv hu := by
    by_cases hut : u = t
    · exact hut.trans (ht v hv)
    · exact h.alone v u hv (by simpa [SharedLock.addReader, Function.update_of_ne hut] using hu)

theorem Sound.removeReader (h : s.Sound) (ht : s.threadedReaders t ≠ 0) : (s.removeReader t).Sound where
  readers_eq := by
    have hsum := Monitor.sum_update_add s.threadedReaders t (s.threadedReaders t - 1)
    have hreaders := h.readers_eq
    simp only [SharedLock.removeReader]
    omega
  writers_pos_iff := h.writers_pos_iff
  alone v u hv hu := by
    by_cases hut : u = t
    · exact h.alone v u hv (by rwa [hut])
    · exact h.alone v u hv (by simpa [SharedLock.removeReader, Function.update_of_ne hut] using hu)

omit [DecidableEq Thread] in
theorem Sound.addWriter (h : s.Sound) (ht : s.locking = some t ∨ s.readers = 0) : (s.addWriter t).Sound where
  readers_eq := h.readers_eq
  writers_pos_iff := by simp [SharedLock.addWriter]
  alone v u hv hu := by
    cases hv
    rcases ht with ht | ht
    · exact h.alone t u ht hu
    · exact absurd (h.threadedReaders_eq_zero ht u) hu

end Sound

/-! ### Who waits -/

section Inv
variable [Fintype Thread] {t : Thread} {w : Threads Thread}

/-- Who waits is counted or queued and has nothing of the lock. Where nothing makes the
readers wait, they were woken; where the lock is free, the first of the writers was. -/
structure Inv (w : Threads Thread) : Prop where
  sound : w.state.Sound
  nodup : w.state.pendingWriters.Nodup
  mem_pendingWriters : ∀ t, t ∈ w.state.pendingWriters ↔ w.At .writers t
  pendingReaders_eq : w.state.pendingReaders = w.waiters .readers
  idle : ∀ p t, w.At p t → w.state.threadedReaders t = 0 ∧ w.state.locking ≠ some t
  readersWoken : w.state.writers = 0 → w.state.pendingWriters = [] → ∀ t, w.At .readers t → w.Woken .readers t
  writerWoken : w.state.writers = 0 → w.state.readers = 0 →
    ∀ t, w.state.pendingWriters.head? = some t → w.Woken .writers t

/-- A call that returns from its first section. -/
theorem Inv.returns (h : Inv w) (ht : w.phase t = .outside) {c : Call} {s' : SharedLock Thread}
    {wakes : Place → Thread → Bool} (hsound : s'.Sound)
    (hwriters : s'.pendingWriters = w.state.pendingWriters) (hreaders : s'.pendingReaders = w.state.pendingReaders)
    (hothers : ∀ u ≠ t, s'.threadedReaders u = w.state.threadedReaders u ∧
      (s'.locking = some u → w.state.locking = some u))
    (hwakes : s'.writers = 0 → s'.pendingWriters = [] →
      w.state.writers = 0 ∨ ∀ u, w.At .readers u → wakes .readers u = true)
    (hwake : s'.writers = 0 → s'.readers = 0 →
      w.state.writers = 0 ∧ w.state.readers = 0 ∨ ∀ u, s'.pendingWriters.head? = some u → wakes .writers u = true) :
    Inv (w.after t c { state := s', wakes := wakes, ends := .done () }) where
  sound := hsound
  nodup := by
    rw [World.state_after, hwriters]
    exact h.nodup
  mem_pendingWriters u := by
    rw [World.at_after_of_outside ht rfl, ← h.mem_pendingWriters, ← hwriters]
    rfl
  pendingReaders_eq := by
    rw [World.waiters_after_of_outside ht rfl, ← h.pendingReaders_eq, ← hreaders]
    rfl
  idle p u hu := by
    rw [World.at_after_of_outside ht rfl] at hu
    have hut : u ≠ t := by
      rintro rfl
      exact World.not_at_of_outside ht hu
    obtain ⟨hzero, hne⟩ := h.idle p u hu
    exact ⟨(hothers u hut).1.trans hzero, fun hl => hne ((hothers u hut).2 hl)⟩
  readersWoken hzero hempty u hu := by
    rw [World.at_after_of_outside ht rfl] at hu
    refine World.woken_after.mpr ⟨?_, ?_⟩
    · rintro rfl
      exact World.not_at_of_outside ht hu
    · rcases hwakes hzero hempty with hold | hnew
      · exact .inl (h.readersWoken hold (hwriters.symm.trans hempty) u hu)
      · exact .inr ⟨hu, hnew u hu⟩
  writerWoken hzero hnone u hu := by
    have hu' : w.state.pendingWriters.head? = some u := by
      rw [← hwriters]
      exact hu
    have hat : w.At .writers u := (h.mem_pendingWriters u).mp (List.mem_of_head? hu')
    refine World.woken_after.mpr ⟨?_, ?_⟩
    · rintro rfl
      exact World.not_at_of_outside ht hat
    · rcases hwake hzero hnone with ⟨hold, hold'⟩ | hnew
      · exact .inl (h.writerWoken hold hold' u hu')
      · exact .inr ⟨hat, hnew u hu⟩

/-- A reader that has nothing of the lock begins to wait. -/
theorem Inv.reader_waits (h : Inv w) (ht : w.phase t = .outside) {c : Call}
    (hidle : w.state.threadedReaders t = 0 ∧ w.state.locking ≠ some t)
    (hblocked : 0 < w.state.writers ∨ w.state.pendingWriters ≠ []) :
    Inv (w.after t c (waitAt .readers { w.state with pendingReaders := w.state.pendingReaders + 1 })) where
  sound := ⟨h.sound.readers_eq, h.sound.writers_pos_iff, h.sound.alone⟩
  nodup := h.nodup
  mem_pendingWriters u := by
    rw [World.at_after_wait rfl, World.state_after, waitAt, h.mem_pendingWriters]
    have hut : w.At .writers u → u ≠ t := by
      rintro hu rfl
      exact World.not_at_of_outside ht hu
    simpa using hut
  pendingReaders_eq := by
    have hcount := World.waiters_after (w := w) (t := t) (c := c) (p := .readers)
      (s := waitAt .readers { w.state with pendingReaders := w.state.pendingReaders + 1 })
    rw [ht] at hcount
    exact (congrArg (· + 1) h.pendingReaders_eq).trans hcount.symm
  idle p u hu := by
    rcases (World.at_after_wait rfl).mp hu with ⟨hu, _⟩ | ⟨rfl, _⟩
    · exact h.idle p u hu
    · exact hidle
  readersWoken hzero hempty := by
    rcases hblocked with hpos | hne
    · exact absurd hzero (Nat.ne_of_gt hpos)
    · exact absurd hempty hne
  writerWoken hzero hnone u hu := by
    have hat : w.At .writers u := (h.mem_pendingWriters u).mp (List.mem_of_head? hu)
    refine World.woken_after.mpr ⟨?_, .inl (h.writerWoken hzero hnone u hu)⟩
    rintro rfl
    exact World.not_at_of_outside ht hat

/-- A writer that has nothing of the lock begins to wait. -/
theorem Inv.writer_waits (h : Inv w) (ht : w.phase t = .outside) {c : Call}
    (hidle : w.state.threadedReaders t = 0 ∧ w.state.locking ≠ some t)
    (hblocked : 0 < w.state.readers ∨ 0 < w.state.writers ∨ (w.state.pendingWriters ++ [t]).head? ≠ some t) :
    Inv (w.after t c (waitAt .writers { w.state with pendingWriters := w.state.pendingWriters ++ [t] })) where
  sound := ⟨h.sound.readers_eq, h.sound.writers_pos_iff, h.sound.alone⟩
  nodup := by
    refine List.nodup_append.mpr ⟨h.nodup, List.nodup_singleton t, fun u hu v hv => ?_⟩
    rintro rfl
    rw [List.mem_singleton.mp hv] at hu
    exact World.not_at_of_outside ht ((h.mem_pendingWriters t).mp hu)
  mem_pendingWriters u := by
    have hut : w.At .writers u → u ≠ t := by
      rintro hu rfl
      exact World.not_at_of_outside ht hu
    rw [World.at_after_wait rfl, World.state_after, waitAt, List.mem_append, h.mem_pendingWriters, List.mem_singleton,
      and_iff_left_of_imp hut, and_iff_left rfl]
  pendingReaders_eq := by
    have hcount := World.waiters_after (w := w) (t := t) (c := c) (p := .readers)
      (s := waitAt .writers { w.state with pendingWriters := w.state.pendingWriters ++ [t] })
    rw [ht] at hcount
    exact h.pendingReaders_eq.trans hcount.symm
  idle p u hu := by
    rcases (World.at_after_wait rfl).mp hu with ⟨hu, _⟩ | ⟨rfl, _⟩
    · exact h.idle p u hu
    · exact hidle
  readersWoken _ hempty := absurd hempty (by simp [waitAt])
  writerWoken hzero hnone u hu := by
    cases hp : w.state.pendingWriters with
    | nil =>
      rw [hp] at hblocked
      rcases hblocked with hpos | hpos | hne
      · exact absurd hnone (Nat.ne_of_gt hpos)
      · exact absurd hzero (Nat.ne_of_gt hpos)
      · exact absurd rfl hne
    | cons v rest =>
      have hhead : w.state.pendingWriters.head? = some u := by
        simpa [waitAt, hp] using hu
      have hat : w.At .writers u := (h.mem_pendingWriters u).mp (List.mem_of_head? hhead)
      refine World.woken_after.mpr ⟨?_, .inl (h.writerWoken hzero hnone u hhead)⟩
      rintro rfl
      exact World.not_at_of_outside ht hat

/-- A woken thread that waits again still has a reason to. -/
theorem Inv.waits_again (h : Inv w) {c : Call} {p : Place} (ht : w.phase t = .waiting c p true)
    (hreader : p = .readers → 0 < w.state.writers ∨ w.state.pendingWriters ≠ [])
    (hwriter : p = .writers → 0 < w.state.readers ∨ 0 < w.state.writers ∨ w.state.pendingWriters.head? ≠ some t) :
    Inv (w.after t c (waitAt p w.state)) where
  sound := h.sound
  nodup := h.nodup
  mem_pendingWriters u := (h.mem_pendingWriters u).trans (World.at_after_again ht rfl).symm
  pendingReaders_eq := by
    have hcount := World.waiters_after (w := w) (t := t) (c := c) (p := .readers) (s := waitAt p w.state)
    rw [ht] at hcount
    exact h.pendingReaders_eq.trans (Nat.add_right_cancel hcount).symm
  idle q u hu := h.idle q u ((World.at_after_again ht rfl).mp hu)
  readersWoken hzero hempty u hu := by
    have hat := (World.at_after_again ht rfl).mp hu
    refine World.woken_after.mpr ⟨?_, .inl (h.readersWoken hzero hempty u hat)⟩
    rintro rfl
    rcases hreader ((World.at_iff_of_phase ht).mp hat) with hpos | hne
    · exact absurd hzero (Nat.ne_of_gt hpos)
    · exact absurd hempty hne
  writerWoken hzero hnone u hu := by
    have hat : w.At .writers u := (h.mem_pendingWriters u).mp (List.mem_of_head? hu)
    refine World.woken_after.mpr ⟨?_, .inl (h.writerWoken hzero hnone u hu)⟩
    rintro rfl
    rcases hwriter ((World.at_iff_of_phase ht).mp hat) with hpos | hpos | hne
    · exact absurd hnone (Nat.ne_of_gt hpos)
    · exact absurd hzero (Nat.ne_of_gt hpos)
    · exact absurd hu hne

/-- A reader that waited gets the lock. -/
theorem Inv.reader_goes (h : Inv w) {c : Call} (ht : w.phase t = .waiting c .readers true)
    (hzero : w.state.writers = 0) :
    Inv (w.after t c (done ({ w.state with pendingReaders := w.state.pendingReaders - 1 }.addReader t))) where
  sound := by
    have hnone := h.sound.locking_eq_none hzero
    exact Sound.addReader ⟨h.sound.readers_eq, h.sound.writers_pos_iff, h.sound.alone⟩
      fun u hu => absurd (hnone.symm.trans hu) (by simp)
  nodup := h.nodup
  mem_pendingWriters u := by
    rw [World.at_after_done rfl]
    refine (h.mem_pendingWriters u).trans (and_iff_left_of_imp ?_).symm
    rintro hu rfl
    cases (World.at_iff_of_phase ht).mp hu
  pendingReaders_eq := by
    have hcount := World.waiters_after (w := w) (t := t) (c := c) (p := .readers)
      (s := done ({ w.state with pendingReaders := w.state.pendingReaders - 1 }.addReader t))
    rw [ht] at hcount
    exact Nat.sub_eq_of_eq_add (h.pendingReaders_eq.trans hcount.symm)
  idle q u hu := by
    obtain ⟨hu, hut⟩ := (World.at_after_done rfl).mp hu
    obtain ⟨hidle, hne⟩ := h.idle q u hu
    exact ⟨by simpa [done, addReader, Function.update_of_ne hut] using hidle, hne⟩
  readersWoken _ hempty u hu := by
    obtain ⟨hu, hut⟩ := (World.at_after_done rfl).mp hu
    exact World.woken_after.mpr ⟨hut, .inl (h.readersWoken hzero hempty u hu)⟩
  writerWoken _ hnone := absurd hnone (Nat.succ_ne_zero _)

/-- The first of the writers gets the lock. -/
theorem Inv.writer_goes (h : Inv w) {c : Call} (ht : w.phase t = .waiting c .writers true)
    (hnone : w.state.readers = 0) (hhead : w.state.pendingWriters.head? = some t) :
    Inv (w.after t c (done ({ w.state with pendingWriters := w.state.pendingWriters.tail }.addWriter t))) where
  sound := Sound.addWriter ⟨h.sound.readers_eq, h.sound.writers_pos_iff, h.sound.alone⟩ (.inr hnone)
  nodup := h.nodup.tail
  mem_pendingWriters u := by
    rw [World.at_after_done rfl, ← h.mem_pendingWriters]
    obtain ⟨rest, hrest⟩ := List.head?_eq_some_iff.mp hhead
    have hnodup := h.nodup
    rw [hrest, List.nodup_cons] at hnodup
    simp only [done, addWriter, World.state_after, hrest, List.tail_cons, List.mem_cons]
    constructor
    · intro hu
      exact ⟨.inr hu, fun hut => hnodup.1 (hut ▸ hu)⟩
    · rintro ⟨rfl | hu, hut⟩
      · exact absurd rfl hut
      · exact hu
  pendingReaders_eq := by
    have hcount := World.waiters_after (w := w) (t := t) (c := c) (p := .readers)
      (s := done ({ w.state with pendingWriters := w.state.pendingWriters.tail }.addWriter t))
    rw [ht] at hcount
    exact h.pendingReaders_eq.trans hcount.symm
  idle q u hu := by
    obtain ⟨hu, hut⟩ := (World.at_after_done rfl).mp hu
    exact ⟨(h.idle q u hu).1, fun hl => hut (Option.some.inj hl).symm⟩
  readersWoken hzero := absurd hzero (Nat.succ_ne_zero _)
  writerWoken hzero := absurd hzero (Nat.succ_ne_zero _)

theorem Inv.wakeUp (h : Inv w) (t : Thread) : Inv (w.wakeUp t) where
  sound := h.sound
  nodup := h.nodup
  mem_pendingWriters u := (h.mem_pendingWriters u).trans World.at_wakeUp.symm
  pendingReaders_eq := h.pendingReaders_eq.trans World.waiters_wakeUp.symm
  idle p u hu := h.idle p u (World.at_wakeUp.mp hu)
  readersWoken hzero hempty u hu := (h.readersWoken hzero hempty u (World.at_wakeUp.mp hu)).wakeUp t
  writerWoken hzero hnone u hu := (h.writerWoken hzero hnone u hu).wakeUp t

/-! ### Every section keeps it -/

theorem Inv.lockShared (h : Inv w) (ht : w.phase t = .outside) (c : Call) :
    Inv (w.after t c (w.state.lockShared t)) := by
  have hgoes (hfree : ∀ u, w.state.locking = some u → t = u) : Inv (w.after t c (done (w.state.addReader t))) :=
    h.returns ht (h.sound.addReader hfree) rfl rfl (fun u hut => ⟨Function.update_of_ne hut _ _, id⟩)
      (fun hzero _ => .inl hzero) (fun _ hreaders => absurd hreaders (Nat.succ_ne_zero _))
  unfold SharedLock.lockShared
  split
  · rename_i hpos
    split
    · rename_i hother
      refine h.reader_waits ht ⟨?_, hother⟩ (.inl hpos)
      by_contra hreads
      obtain ⟨u, hu⟩ := Option.ne_none_iff_exists'.mp (h.sound.writers_pos_iff.mp hpos)
      exact hother (h.sound.alone u t hu hreads ▸ hu)
    · rename_i hown
      exact hgoes fun u hu => Option.some.inj ((not_not.mp hown).symm.trans hu)
  · rename_i hpos
    have hnone := h.sound.locking_eq_none (Nat.eq_zero_of_not_pos hpos)
    split
    · rename_i hblocked
      exact h.reader_waits ht ⟨hblocked.2, by simp [hnone]⟩ (.inr hblocked.1)
    · exact hgoes fun u hu => absurd (hnone.symm.trans hu) (by simp)

theorem Inv.unlockShared (h : Inv w) (ht : w.phase t = .outside) (c : Call) :
    Inv (w.after t c (w.state.unlockShared t)) := by
  unfold SharedLock.unlockShared
  split
  · exact h.returns ht h.sound rfl rfl (fun u _ => ⟨rfl, id⟩) (fun hzero _ => .inl hzero)
      (fun hzero hnone => .inl ⟨hzero, hnone⟩)
  · rename_i hreads
    have hothers : ∀ u ≠ t, (w.state.removeReader t).threadedReaders u = w.state.threadedReaders u ∧
        ((w.state.removeReader t).locking = some u → w.state.locking = some u) :=
      fun u hut => ⟨Function.update_of_ne hut _ _, id⟩
    split
    · refine h.returns ht (h.sound.removeReader hreads) rfl rfl hothers (fun hzero _ => .inl hzero) fun _ _ => ?_
      refine .inr fun u hu => ?_
      have hhead : w.state.pendingWriters.head? = some u := hu
      simp [notifyWriter, hhead]
    · rename_i hrest
      refine h.returns ht (h.sound.removeReader hreads) rfl rfl hothers (fun hzero _ => .inl hzero) fun hzero hnone => ?_
      refine .inr fun u hu => absurd ⟨hnone, hzero, ?_⟩ hrest
      rintro hempty
      have hhead : w.state.pendingWriters.head? = some u := hu
      rw [hempty] at hhead
      cases hhead

theorem Inv.lock (h : Inv w) (ht : w.phase t = .outside) (c : Call) : Inv (w.after t c (w.state.lock t)) := by
  unfold SharedLock.lock
  split
  · exact h.returns ht h.sound rfl rfl (fun u _ => ⟨rfl, id⟩) (fun hzero _ => .inl hzero)
      (fun hzero hnone => .inl ⟨hzero, hnone⟩)
  · rename_i hreads
    split
    · rename_i hlocking
      exact h.returns ht (h.sound.addWriter (.inl hlocking)) rfl rfl
        (fun u hut => ⟨rfl, fun hu => absurd (Option.some.inj hu).symm hut⟩)
        (fun hzero => absurd hzero (Nat.succ_ne_zero _)) (fun hzero => absurd hzero (Nat.succ_ne_zero _))
    · rename_i hlocking
      unfold lockAgain
      split
      · rename_i hblocked
        exact h.writer_waits ht ⟨not_not.mp hreads, hlocking⟩ hblocked
      · rename_i hfree
        simp only [not_or, Nat.not_lt_eq, Nat.le_zero_eq, not_not] at hfree
        obtain ⟨hnone, hzero, hhead⟩ := hfree
        have hempty : w.state.pendingWriters = [] := by
          cases hp : w.state.pendingWriters with
          | nil => rfl
          | cons v rest =>
            have hmem : t ∈ w.state.pendingWriters := by
              rw [hp, List.cons_append, List.head?_cons] at hhead
              rw [hp, Option.some.inj hhead]
              exact List.mem_cons_self
            exact absurd ((h.mem_pendingWriters t).mp hmem) (World.not_at_of_outside ht)
        refine h.returns ht (Sound.addWriter ⟨h.sound.readers_eq, h.sound.writers_pos_iff, h.sound.alone⟩ (.inr hnone)) ?_
          rfl (fun u hut => ⟨rfl, fun hu => absurd (Option.some.inj hu).symm hut⟩)
          (fun hzero => absurd hzero (Nat.succ_ne_zero _)) (fun hzero => absurd hzero (Nat.succ_ne_zero _))
        simp [addWriter, hempty]

theorem Inv.unlock (h : Inv w) (ht : w.phase t = .outside) (c : Call) : Inv (w.after t c (w.state.unlock t)) := by
  unfold SharedLock.unlock
  split
  · exact h.returns ht h.sound rfl rfl (fun u _ => ⟨rfl, id⟩) (fun hzero _ => .inl hzero)
      (fun hzero hnone => .inl ⟨hzero, hnone⟩)
  split
  · exact h.returns ht h.sound rfl rfl (fun u _ => ⟨rfl, id⟩) (fun hzero _ => .inl hzero)
      (fun hzero hnone => .inl ⟨hzero, hnone⟩)
  rename_i hlocking
  rw [not_not] at hlocking
  split
  · rename_i hlast
    have hsound : Sound { w.state with writers := w.state.writers - 1, locking := none } :=
      ⟨h.sound.readers_eq, by simp [hlast], fun v u hv => by cases hv⟩
    split
    · rename_i hne
      refine h.returns ht hsound rfl rfl (fun u _ => ⟨rfl, fun hu => by cases hu⟩) (fun _ hempty => absurd hempty hne)
        fun _ _ => .inr fun u hu => ?_
      have hhead : w.state.pendingWriters.head? = some u := hu
      simp [notifyWriter, hhead]
    · rename_i hempty
      rw [not_not] at hempty
      split
      · refine h.returns ht hsound rfl rfl (fun u _ => ⟨rfl, fun hu => by cases hu⟩) (fun _ _ => .inr fun u _ => ?_)
          fun _ _ => .inr fun u hu => ?_
        · simp [notifyReaders]
        · have hhead : w.state.pendingWriters.head? = some u := hu
          rw [hempty] at hhead
          cases hhead
      · rename_i hpending
        refine h.returns ht hsound rfl rfl (fun u _ => ⟨rfl, fun hu => by cases hu⟩) (fun _ _ => .inr fun u hu => ?_)
          fun _ _ => .inr fun u hu => ?_
        · rw [h.pendingReaders_eq] at hpending
          exact absurd (World.waiters_pos hu) hpending
        · have hhead : w.state.pendingWriters.head? = some u := hu
          rw [hempty] at hhead
          cases hhead
  · rename_i hmore
    have hsound : Sound { w.state with writers := w.state.writers - 1 } := by
      refine ⟨h.sound.readers_eq, ?_, h.sound.alone⟩
      simp only [hlocking, ne_eq, reduceCtorEq, not_false_eq_true, iff_true]
      exact Nat.pos_of_ne_zero hmore
    exact h.returns ht hsound rfl rfl (fun u _ => ⟨rfl, id⟩) (fun hzero => absurd hzero hmore)
      (fun hzero => absurd hzero hmore)

/-- Whatever a thread does. -/
theorem Inv.step {w' : Threads Thread} {e : Monitor.Event Thread Call} (h : Inv w)
    (hstep : monitor.step w e = some w') : Inv w' := by
  obtain ⟨t, c, rfl, ht, -, rfl⟩ | ⟨t, c, p, rfl, ht, rfl⟩ | ⟨t, c, p, rfl, ht, rfl⟩ := Monitor.step_cases hstep
  · cases c with
    | lock => exact h.lock ht .lock
    | unlock => exact h.unlock ht .unlock
    | lockShared => exact h.lockShared ht .lockShared
    | unlockShared => exact h.unlockShared ht .unlockShared
  · cases p with
    | readers =>
      show Inv (w.after t c (w.state.lockSharedAgain t))
      unfold lockSharedAgain
      split
      · rename_i hblocked
        exact h.waits_again ht (fun _ => hblocked) (fun hp => by cases hp)
      · rename_i hfree
        exact h.reader_goes ht (Nat.eq_zero_of_not_pos fun hpos => hfree (.inl hpos))
    | writers =>
      show Inv (w.after t c (w.state.lockAgain t))
      unfold lockAgain
      split
      · rename_i hblocked
        exact h.waits_again ht (fun hp => by cases hp) (fun _ => hblocked)
      · rename_i hfree
        simp only [not_or, Nat.not_lt_eq, Nat.le_zero_eq, not_not] at hfree
        exact h.writer_goes ht hfree.1 hfree.2.2
  · exact h.wakeUp t

omit [DecidableEq Thread] in
theorem inv_fresh : Inv (fresh : Threads Thread) where
  sound := ⟨by simp [fresh, World.start], by simp [fresh, World.start], fun t u ht => by cases ht⟩
  nodup := List.nodup_nil
  mem_pendingWriters t := by simp [fresh, World.start, World.At, Monitor.Phase.isAt]
  pendingReaders_eq := by simp [fresh, World.start, World.waiters, Monitor.Phase.isAt]
  idle p t ht := absurd ht (World.not_at_of_outside rfl)
  readersWoken _ _ t ht := absurd ht (World.not_at_of_outside rfl)
  writerWoken _ _ t ht := by cases ht

/-- After any calls of any threads, in any order. -/
theorem inv_of_run {events : List (Monitor.Event Thread Call)} (h : monitor.run events fresh = some w) : Inv w :=
  Monitor.run_invariant (K := fun _ => True) (fun _ hw he => hw.step he) (fun _ _ => trivial) inv_fresh h

end Inv

/-! ### What runs guarantee -/

section Runs
variable {t u : Thread} {s : SharedLock Thread}

theorem level_eq_write_iff : s.level t = .write ↔ s.locking = some t := by
  unfold level
  split
  · simp [*]
  · split <;> simp [*]

theorem level_ne_none_iff : s.level t ≠ .none ↔ s.locking = some t ∨ s.threadedReaders t ≠ 0 := by
  unfold level
  split
  · simp [*]
  · split
    · rename_i hpos
      simp [Nat.ne_of_gt hpos]
    · rename_i hlocking hpos
      simp [hlocking, Nat.eq_zero_of_not_pos hpos]

variable [Fintype Thread] {w w' : Threads Thread} {events : List (Monitor.Event Thread Call)}

/-- Who has the lock for writing is the only one that has it. -/
theorem level_write_exclusive (h : monitor.run events fresh = some w) (ht : w.state.level t = .write)
    (hu : w.state.level u ≠ .none) : u = t := by
  have hlocking := level_eq_write_iff.mp ht
  rcases level_ne_none_iff.mp hu with hu | hu
  · exact Option.some.inj (hu.symm.trans hlocking)
  · exact (inv_of_run h).sound.alone t u hlocking hu

/-- A writer that enters twice, and reads, while another thread waits. -/
theorem level_write_exclusive_two :
    ∃ w, monitor.run [.call 0 .lock, .call 1 .lockShared, .call 0 .lock, .call 0 .lockShared]
        (fresh : Threads (Fin 2)) = some w ∧
      w.state.level 0 = .write ∧ ∀ u, w.state.level u ≠ .none → u = 0 := by
  have hrun : monitor.run [.call 0 .lock, .call 1 .lockShared, .call 0 .lock, .call 0 .lockShared]
      (fresh : Threads (Fin 2)) = some _ := rfl
  exact ⟨_, hrun, rfl, fun _ hu => level_write_exclusive hrun rfl hu⟩

end Runs

/-! ### Who overtakes whom -/

section Fair
variable {t u : Thread} {s : SharedLock Thread}

/-- What a section may do: it lets in who has the lock, anyone if no writer is in the
queue, or else the first of the writers; and the queue grows at its end only. -/
def Fair (s s' : SharedLock Thread) : Prop :=
  (∃ joining, s'.pendingWriters = s.pendingWriters ++ joining ∧
    ∀ u, s'.level u ≠ .none → s.level u ≠ .none ∨ s.pendingWriters = []) ∨
  ∃ first, s.pendingWriters = first :: s'.pendingWriters ∧ ∀ u, s'.level u ≠ .none → s.level u ≠ .none ∨ u = first

theorem Fair.of_level {s s' : SharedLock Thread} (hwriters : s'.pendingWriters = s.pendingWriters)
    (hlevel : ∀ u, s'.level u ≠ .none → s.level u ≠ .none ∨ s.pendingWriters = []) : Fair s s' :=
  .inl ⟨[], by rw [hwriters, List.append_nil], hlevel⟩

theorem Fair.refl (s : SharedLock Thread) : Fair s s := .of_level rfl fun _ hu => .inl hu

theorem level_addReader (hu : (s.addReader t).level u ≠ .none) : s.level u ≠ .none ∨ u = t := by
  by_cases hut : u = t
  · exact .inr hut
  · rw [level_ne_none_iff] at hu ⊢
    simpa [addReader, Function.update_of_ne hut, hut] using hu

theorem level_addWriter (hu : (s.addWriter t).level u ≠ .none) : s.level u ≠ .none ∨ u = t := by
  rw [level_ne_none_iff] at hu ⊢
  rcases hu with hu | hu
  · exact .inr (Option.some.inj hu).symm
  · exact .inl (.inr hu)

theorem fair_lockShared (t : Thread) (s : SharedLock Thread) : Fair s (s.lockShared t).state := by
  unfold lockShared
  split
  · split
    · exact .of_level rfl fun _ hu => .inl hu
    · rename_i hown
      refine .of_level rfl fun u hu => .inl ?_
      rcases level_addReader hu with hu | rfl
      · exact hu
      · exact level_ne_none_iff.mpr (.inl (not_not.mp hown))
  · split
    · exact .of_level rfl fun _ hu => .inl hu
    · rename_i hfree
      refine .of_level rfl fun u hu => ?_
      rcases level_addReader hu with hu | rfl
      · exact .inl hu
      · by_cases hempty : s.pendingWriters = []
        · exact .inr hempty
        · exact .inl (level_ne_none_iff.mpr (.inr fun hzero => hfree ⟨hempty, hzero⟩))

theorem fair_lockSharedAgain (t : Thread) (s : SharedLock Thread) : Fair s (s.lockSharedAgain t).state := by
  unfold lockSharedAgain
  split
  · exact .refl s
  · rename_i hfree
    exact .of_level rfl fun u hu => .inr (not_not.mp fun hne => hfree (.inr hne))

theorem fair_unlockShared (t : Thread) (s : SharedLock Thread) : Fair s (s.unlockShared t).state := by
  have hremove : Fair s (s.removeReader t) := by
    refine .of_level rfl fun u hu => .inl ?_
    rw [level_ne_none_iff] at hu ⊢
    by_cases hut : u = t
    · subst hut
      exact hu.imp_right fun hreads hzero => hreads (by simp [removeReader, hzero])
    · simpa [removeReader, Function.update_of_ne hut] using hu
  unfold unlockShared
  split
  · exact .refl s
  · split
    · exact hremove
    · exact hremove

theorem fair_lockAgain (t : Thread) (s : SharedLock Thread) : Fair s (s.lockAgain t).state := by
  unfold lockAgain
  split
  · exact .refl s
  · rename_i hfree
    simp only [not_or, not_not] at hfree
    obtain ⟨rest, hrest⟩ := List.head?_eq_some_iff.mp hfree.2.2
    exact .inr ⟨t, by simp [done, addWriter, hrest], fun u hu => level_addWriter hu⟩

theorem fair_lock {t : Thread} {s : SharedLock Thread} (ht : t ∉ s.pendingWriters) : Fair s (s.lock t).state := by
  unfold lock
  split
  · exact .refl s
  split
  · rename_i hown
    refine .of_level rfl fun u hu => .inl ?_
    rcases level_addWriter hu with hu | rfl
    · exact hu
    · exact level_ne_none_iff.mpr (.inl hown)
  · unfold lockAgain
    split
    · exact .inl ⟨[t], rfl, fun u hu => .inl hu⟩
    · rename_i hfree
      simp only [not_or, not_not] at hfree
      cases hp : s.pendingWriters with
      | nil => exact .of_level (by simp [done, addWriter, hp]) fun u hu => .inr hp
      | cons v rest =>
        have hhead := hfree.2.2
        rw [hp, List.cons_append, List.head?_cons] at hhead
        rw [hp, Option.some.inj hhead] at ht
        exact absurd List.mem_cons_self ht

theorem fair_unlock (t : Thread) (s : SharedLock Thread) : Fair s (s.unlock t).state := by
  have hnone : Fair s { s with writers := s.writers - 1, locking := none } := by
    refine .of_level rfl fun u hu => .inl ?_
    rw [level_ne_none_iff] at hu ⊢
    exact hu.imp_left fun hl => by cases hl
  unfold unlock
  split
  · exact .refl s
  split
  · exact .refl s
  split
  · split
    · exact hnone
    · split
      · exact hnone
      · exact hnone
  · exact .of_level rfl fun _ hu => .inl hu

/-- The writers before one in the queue. -/
def ahead (t : Thread) (s : SharedLock Thread) : List Thread := s.pendingWriters.takeWhile (· ≠ t)

/-- While a writer stays in the queue, a section lets in only who has the lock and who is
before it. -/
theorem Fair.ahead {s s' : SharedLock Thread} (h : Fair s s') (hnodup : s.pendingWriters.Nodup)
    (ht : t ∈ s.pendingWriters) (ht' : t ∈ s'.pendingWriters) :
    (∀ u ∈ ahead t s', u ∈ ahead t s) ∧ ∀ u, s'.level u ≠ .none → s.level u ≠ .none ∨ u ∈ ahead t s := by
  unfold SharedLock.ahead
  rcases h with ⟨joining, hjoin, hlevel⟩ | ⟨first, hfirst, hlevel⟩
  · refine ⟨fun u hu => ?_, fun u hu => (hlevel u hu).imp_right fun hempty => ?_⟩
    · have hstop : ¬ (s.pendingWriters.takeWhile (· ≠ t)).length = s.pendingWriters.length := fun hlength => by
        have hall := List.takeWhile_eq_self_iff.mp ((List.takeWhile_prefix _).eq_of_length hlength) t ht
        simp at hall
      rwa [hjoin, List.takeWhile_append, if_neg hstop] at hu
    · rw [hempty] at ht
      cases ht
  · have hne : first ≠ t := by
      rintro rfl
      rw [hfirst, List.nodup_cons] at hnodup
      exact hnodup.1 ht'
    rw [hfirst, List.takeWhile_cons_of_pos (by simpa using hne)]
    refine ⟨fun u hu => List.mem_cons_of_mem first hu, fun u hu => (hlevel u hu).imp_right ?_⟩
    rintro rfl
    exact List.mem_cons_self

variable [Fintype Thread] {w w' : Threads Thread}

theorem Inv.fair_step {e : Monitor.Event Thread Call} (h : Inv w) (hstep : monitor.step w e = some w') :
    Fair w.state w'.state := by
  obtain ⟨t, c, rfl, ht, -, rfl⟩ | ⟨t, c, p, rfl, ht, rfl⟩ | ⟨t, c, p, rfl, ht, rfl⟩ := Monitor.step_cases hstep
  · cases c with
    | lock => exact fair_lock fun hmem => World.not_at_of_outside ht ((h.mem_pendingWriters t).mp hmem)
    | unlock => exact fair_unlock t w.state
    | lockShared => exact fair_lockShared t w.state
    | unlockShared => exact fair_unlockShared t w.state
  · cases p with
    | readers => exact fair_lockSharedAgain t w.state
    | writers => exact fair_lockAgain t w.state
  · exact .refl w.state

theorem Inv.not_overtaken {events : List (Monitor.Event Thread Call)} (hinv : Inv w)
    (h : monitor.run events w = some w')
    (hstays : ∀ pre w₁, pre <+: events → monitor.run pre w = some w₁ → t ∈ w₁.state.pendingWriters)
    (hu : w'.state.level u ≠ .none) : w.state.level u ≠ .none ∨ u ∈ ahead t w.state := by
  induction events generalizing w with
  | nil =>
    cases h
    exact .inl hu
  | cons e events ih =>
    rw [Monitor.run, List.foldlM_cons, Option.bind_eq_bind, Option.bind_eq_some_iff] at h
    obtain ⟨w₁, he, h⟩ := h
    have hfirst : monitor.run [e] w = some w₁ := by simp [Monitor.run, he]
    have hfair := (hinv.fair_step he).ahead hinv.nodup (hstays [] w List.nil_prefix rfl)
      (hstays [e] w₁ (by simp) hfirst)
    have hrest := ih (hinv.step he) h fun pre w₂ hpre hrun =>
      hstays (e :: pre) w₂ (List.cons_prefix_cons.mpr ⟨rfl, hpre⟩) (by
        rw [Monitor.run, List.foldlM_cons, he]
        exact hrun)
    rcases hrest with hu | hu
    · exact hfair.2 u hu
    · exact .inr (hfair.1 u hu)

/-- While a writer stays in the queue, nobody gets the lock but those that were before it. -/
theorem waiting_writer_not_overtaken {before events : List (Monitor.Event Thread Call)}
    (hbefore : monitor.run before fresh = some w) (h : monitor.run events w = some w')
    (hstays : ∀ pre w₁, pre <+: events → monitor.run pre w = some w₁ → t ∈ w₁.state.pendingWriters)
    (hu : w'.state.level u ≠ .none) : w.state.level u ≠ .none ∨ u ∈ ahead t w.state :=
  (inv_of_run hbefore).not_overtaken h hstays hu

/-- The third thread waits behind the second. -/
theorem waiting_writer_not_overtaken_three :
    ∃ w w', monitor.run [.call 0 .lockShared, .call 1 .lock, .call 2 .lock] (fresh : Threads (Fin 3)) = some w ∧
      monitor.run [.call 0 .unlockShared, .resume 1] w = some w' ∧
      ∀ u, w'.state.level u ≠ .none → w.state.level u ≠ .none ∨ u ∈ ahead 2 w.state := by
  have hbefore : monitor.run [.call 0 .lockShared, .call 1 .lock, .call 2 .lock]
      (fresh : Threads (Fin 3)) = some _ := rfl
  refine ⟨_, _, hbefore, rfl, fun u hu =>
    waiting_writer_not_overtaken (t := 2) hbefore
      (show monitor.run [.call 0 .unlockShared, .resume 1] _ = some _ from rfl) ?_ hu⟩
  intro pre w₁ hpre hrun
  simp only [List.prefix_cons_iff, List.prefix_nil] at hpre
  obtain rfl | ⟨_, rfl, rfl | ⟨_, rfl, rfl⟩⟩ := hpre
  all_goals
    cases hrun
    decide

end Fair

end SharedLock

end StudyDB.WCDB
