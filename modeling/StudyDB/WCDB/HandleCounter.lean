import StudyDB.Locks.Monitor

/-! `HandleCounter`, which lets a thread wait while as many handles are out, or as many
that write, as are allowed. Proved: no more handles are ever out than are allowed; and as
long as threads are woken by others only, a thread waits only while a handle is out, or
one that was woken is about to get one. -/

namespace StudyDB.WCDB

open Monitor (World Queue)

/-! ### Constants -/

inductive HandleType where
  | normal | migrate | compress | backupCipher | backupRead | backupWrite | checkpoint | integrityCheck | assemble
  | assembleCipher | assembleBackupRead | assembleBackupWrite | vacuum | mergeIndex
  deriving DecidableEq, Repr

def HandleType.shouldWaitWhenFull (type : HandleType) : Bool := type = .normal

def maxAllowedHandles : ℕ := 32

def maxAllowedWriters : ℕ := 4

/-! ### The calls -/

structure HandleCounter (Thread : Type*) where
  pendingNormals : List Thread := []
  pendingWriters : List Thread := []
  writerCount : ℕ := 0
  totalCount : ℕ := 0

namespace HandleCounter

/-- The two condition variables. -/
inductive Place where
  | normals | writers
  deriving DecidableEq, Repr

inductive Call where
  | tryIncrease (type : HandleType) (writeHint : Bool)
  | decrease (writeHint : Bool)
  deriving DecidableEq, Repr

variable {Thread : Type*} (t : Thread) (type : HandleType) (writeHint : Bool) (s : HandleCounter Thread)

abbrev Result (Thread : Type*) := Section (HandleCounter Thread) Thread Place Bool

def Full : Prop := maxAllowedHandles ≤ s.totalCount

def WritersFull : Prop := writeHint = true ∧ maxAllowedWriters ≤ s.writerCount

instance : Decidable s.Full := inferInstanceAs (Decidable (_ ≤ _))

instance : Decidable (s.WritersFull writeHint) := inferInstanceAs (Decidable (_ ∧ _))

def increased : HandleCounter Thread :=
  { s with writerCount := if writeHint then s.writerCount + 1 else s.writerCount, totalCount := s.totalCount + 1 }

def decreased : HandleCounter Thread :=
  { s with writerCount := if writeHint then s.writerCount - 1 else s.writerCount, totalCount := s.totalCount - 1 }

/-- Returns false, or waits for any handle. -/
def waitNormal : Result Thread :=
  if type.shouldWaitWhenFull then
    { state := { s with pendingNormals := s.pendingNormals ++ [t] }, ends := .wait .normals }
  else
    { state := s, ends := .done false }

/-- Returns false, or waits for a handle that writes. -/
def waitWriter : Result Thread :=
  if type.shouldWaitWhenFull then
    { state := { s with pendingWriters := s.pendingWriters ++ [t] }, ends := .wait .writers }
  else
    { state := s, ends := .done false }

/-- The loops from the head of the first inner one. -/
def normalLoop : Result Thread :=
  if s.Full then s.waitNormal t type
  else if s.WritersFull writeHint then s.waitWriter t type
  else { state := s.increased writeHint, ends := .done true }

/-- The loops from the head of the second inner one: the outer one goes round if there are
too many handles by now. -/
def writerLoop : Result Thread :=
  if s.WritersFull writeHint then s.waitWriter t type
  else if s.Full then s.waitNormal t type
  else { state := s.increased writeHint, ends := .done true }

/-- Apple's systems notify one thread, the first of a queue. -/
def notify [DecidableEq Thread] (place : Place) (queue : List Thread) : Place → Thread → Bool :=
  fun p u => p = place && queue.head? = some u

def decrease [DecidableEq Thread] (writeHint : Bool) (s : HandleCounter Thread) : Result Thread :=
  if writeHint = true ∧ s.pendingWriters ≠ [] then
    { state := s.decreased writeHint, wakes := notify .writers s.pendingWriters, ends := .done true }
  else if s.pendingNormals ≠ [] then
    { state := s.decreased writeHint, wakes := notify .normals s.pendingNormals, ends := .done true }
  else
    { state := s.decreased writeHint, ends := .done true }

/-- A handle is given back once. -/
def promised : Call → HandleCounter Thread → Bool
  | .tryIncrease _ _, _ => true
  | .decrease true, s => 0 < s.writerCount
  | .decrease false, s => s.writerCount < s.totalCount

def monitor [DecidableEq Thread] : Monitor (HandleCounter Thread) Thread Call Place Bool where
  promised := promised
  enter t
    | .tryIncrease type writeHint => normalLoop t type writeHint
    | .decrease writeHint => decrease writeHint
  resume t
    | .tryIncrease type writeHint, .normals => fun s =>
      { s with pendingNormals := s.pendingNormals.tail }.normalLoop t type writeHint
    | .tryIncrease type writeHint, .writers => fun s =>
      { s with pendingWriters := s.pendingWriters.tail }.writerLoop t type writeHint
    | .decrease _, _ => fun s => { state := s, ends := .done true }

abbrev Threads (Thread : Type*) := World (HandleCounter Thread) Thread Call Place Bool

def fresh : Threads Thread := .start {}

/-! ### What the loops come to -/

/-- What the loops can come to. -/
inductive Loop : Result Thread → Prop
  | refuse (h : type.shouldWaitWhenFull = false) : Loop { state := s, ends := .done false }
  | waitNormal (h : type.shouldWaitWhenFull = true) (hfull : s.Full) :
    Loop { state := { s with pendingNormals := s.pendingNormals ++ [t] }, ends := .wait .normals }
  | waitWriter (h : type.shouldWaitWhenFull = true) (hfull : s.WritersFull writeHint) :
    Loop { state := { s with pendingWriters := s.pendingWriters ++ [t] }, ends := .wait .writers }
  | increase (h : ¬ s.Full) (h' : ¬ s.WritersFull writeHint) :
    Loop { state := s.increased writeHint, ends := .done true }

variable {t type writeHint s}

theorem loop_waitNormal (h : s.Full) : Loop t type writeHint s (s.waitNormal t type) := by
  unfold waitNormal
  split
  · rename_i hwait
    exact .waitNormal hwait h
  · rename_i hwait
    exact .refuse (Bool.eq_false_iff.mpr hwait)

theorem loop_waitWriter (h : s.WritersFull writeHint) : Loop t type writeHint s (s.waitWriter t type) := by
  unfold waitWriter
  split
  · rename_i hwait
    exact .waitWriter hwait h
  · rename_i hwait
    exact .refuse (Bool.eq_false_iff.mpr hwait)

theorem loop_normalLoop (t : Thread) (type : HandleType) (writeHint : Bool) (s : HandleCounter Thread) :
    Loop t type writeHint s (s.normalLoop t type writeHint) := by
  unfold normalLoop
  split
  · exact loop_waitNormal (by assumption)
  · split
    · exact loop_waitWriter (by assumption)
    · exact .increase (by assumption) (by assumption)

theorem loop_writerLoop (t : Thread) (type : HandleType) (writeHint : Bool) (s : HandleCounter Thread) :
    Loop t type writeHint s (s.writerLoop t type writeHint) := by
  unfold writerLoop
  split
  · exact loop_waitWriter (by assumption)
  · split
    · exact loop_waitNormal (by assumption)
    · exact .increase (by assumption) (by assumption)

theorem normalLoop_of_not_full (t : Thread) (type : HandleType) (h : ¬ s.Full) (h' : ¬ s.WritersFull writeHint) :
    s.normalLoop t type writeHint = { state := s.increased writeHint, ends := .done true } := by
  rw [normalLoop, if_neg h, if_neg h']

theorem writerLoop_of_not_full (t : Thread) (type : HandleType) (h : ¬ s.Full) (h' : ¬ s.WritersFull writeHint) :
    s.writerLoop t type writeHint = { state := s.increased writeHint, ends := .done true } := by
  rw [writerLoop, if_neg h', if_neg h]

/-! ### The counts -/

structure Counts (s : HandleCounter Thread) : Prop where
  writers_le : s.writerCount ≤ maxAllowedWriters
  handles_le : s.totalCount ≤ maxAllowedHandles
  writers_le_handles : s.writerCount ≤ s.totalCount

theorem Full.pos (h : s.Full) : 0 < s.totalCount := Nat.lt_of_lt_of_le (by decide) h

theorem WritersFull.pos (h : s.WritersFull writeHint) : 0 < s.writerCount := Nat.lt_of_lt_of_le (by decide) h.2

theorem Counts.loop (h : s.Counts) {r : Result Thread} (hr : Loop t type writeHint s r) : r.state.Counts := by
  cases hr with
  | refuse => exact h
  | waitNormal => exact ⟨h.writers_le, h.handles_le, h.writers_le_handles⟩
  | waitWriter => exact ⟨h.writers_le, h.handles_le, h.writers_le_handles⟩
  | increase hfull hwriters =>
    have hle := h.writers_le_handles
    have hle' := h.writers_le
    simp only [Full, not_le] at hfull
    simp only [WritersFull, not_and, not_le] at hwriters
    refine ⟨?_, hfull, ?_⟩
    · cases writeHint with
      | true => exact hwriters rfl
      | false => exact hle'
    · cases writeHint with
      | true => exact Nat.succ_le_succ hle
      | false => exact Nat.le_succ_of_le hle

theorem Counts.decreased (h : s.Counts) (hs : promised (.decrease writeHint) s = true) :
    (s.decreased writeHint).Counts := by
  obtain ⟨hwriters, hhandles, hle⟩ := h
  cases writeHint with
  | true =>
    simp only [promised, decide_eq_true_eq] at hs
    refine ⟨?_, ?_, ?_⟩ <;> simp only [HandleCounter.decreased, if_true] <;> omega
  | false =>
    simp only [promised, decide_eq_true_eq] at hs
    refine ⟨?_, ?_, ?_⟩ <;> simp only [HandleCounter.decreased, Bool.false_eq_true, if_false] <;> omega

theorem state_decrease [DecidableEq Thread] (s : HandleCounter Thread) :
    (decrease writeHint s).state = s.decreased writeHint := by
  unfold decrease
  split
  · rfl
  · split <;> rfl

/-! ### Who waits -/

variable [DecidableEq Thread] {w w' : Threads Thread} {r : Result Thread}

/-- Each queue holds who waits there, and only its first is woken. A thread waits for a
handle while handles are out or a thread was woken; it waits for one that writes while such
handles are out, or a thread was woken that waits for one, or a thread that wants one waits
for any handle. -/
structure Inv (w : Threads Thread) : Prop where
  counts : w.state.Counts
  normals : Queue w .normals w.state.pendingNormals
  writers : Queue w .writers w.state.pendingWriters
  calls : ∀ t c p, w.Waits c p t →
    ∃ type writeHint, c = .tryIncrease type writeHint ∧ type.shouldWaitWhenFull = true ∧ (p = .writers → writeHint = true)
  normalAlert : ∀ t, w.At .normals t → 0 < w.state.totalCount ∨ ∃ p u, w.Woken p u
  writerAlert : ∀ t, w.At .writers t → 0 < w.state.writerCount ∨ (∃ u, w.Woken .writers u) ∨
    ∃ type u, w.Waits (.tryIncrease type true) .normals u

section Loop
omit [DecidableEq Thread]
variable (h : Loop t type writeHint s r)
include h

theorem Loop.wakes (p : Place) (u : Thread) : r.wakes p u = false := by
  cases h <;> rfl

theorem Loop.calls {p : Place} (hends : r.ends = .wait p) :
    type.shouldWaitWhenFull = true ∧ (p = .writers → writeHint = true) := by
  cases h with
  | refuse => cases hends
  | waitNormal hwait =>
    cases hends
    exact ⟨hwait, fun hp => by cases hp⟩
  | waitWriter hwait hfull => exact ⟨hwait, fun _ => hfull.1⟩
  | increase => cases hends

theorem Loop.totalCount_le : s.totalCount ≤ r.state.totalCount := by
  cases h with
  | increase => exact Nat.le_succ _
  | _ => exact Nat.le_refl _

theorem Loop.writerCount_le : s.writerCount ≤ r.state.writerCount := by
  cases h with
  | increase =>
    cases writeHint with
    | true => exact Nat.le_succ _
    | false => exact Nat.le_refl _
  | _ => exact Nat.le_refl _

/-- A call that is not refused leaves a handle out. -/
theorem Loop.totalCount_pos (hs : s.Counts) (hends : r.ends ≠ .done false) : 0 < r.state.totalCount := by
  cases h with
  | refuse => exact absurd rfl hends
  | waitNormal _ hfull => exact hfull.pos
  | waitWriter _ hfull => exact Nat.lt_of_lt_of_le hfull.pos hs.writers_le_handles
  | increase => exact Nat.succ_pos _

theorem Loop.writerCount_pos (hends : r.ends = .wait .writers) : 0 < r.state.writerCount := by
  cases h with
  | waitWriter _ hfull => exact hfull.pos
  | _ => cases hends

/-- A call for a handle that writes leaves one out, or waits for any. -/
theorem Loop.writerCount_pos_or (hhint : writeHint = true) (hends : r.ends ≠ .done false) :
    0 < r.state.writerCount ∨ r.ends = .wait .normals := by
  cases h with
  | refuse => exact absurd rfl hends
  | waitNormal => exact .inr rfl
  | waitWriter _ hfull => exact .inl hfull.pos
  | increase =>
    subst hhint
    exact .inl (Nat.succ_pos _)

end Loop

/-- A call that begins. -/
theorem Inv.enter (h : Inv w) (ht : w.phase t = .outside) (hr : Loop t type writeHint w.state r) :
    Inv (w.after t (.tryIncrease type writeHint) r) := by
  have hat : ∀ p, ¬ w.At p t := fun p => World.not_at_of_outside ht
  have hwoken : ∀ p u, w.Woken p u → (w.after t (.tryIncrease type writeHint) r).Woken p u := by
    intro p u hu
    refine World.woken_after.mpr ⟨?_, .inl hu⟩
    rintro rfl
    exact hat p hu.at
  have hwakes : ∀ (p : Place) (queue : List Thread) u, r.wakes p u = true → queue.head? = some u :=
    fun p _ u hu => absurd ((hr.wakes p u).symm.trans hu) (by decide)
  refine ⟨h.counts.loop hr, ?_, ?_, fun u c p hu => ?_, fun u hu => ?_, fun u hu => ?_⟩
  · cases hr with
    | waitNormal => exact h.normals.push (hat _) rfl fun _ => rfl
    | _ => exact h.normals.keep (hat _) (by simp) (hwakes _ _)
  · cases hr with
    | waitWriter => exact h.writers.push (hat _) rfl fun _ => rfl
    | _ => exact h.writers.keep (hat _) (by simp) (hwakes _ _)
  · rcases World.waits_after.mp hu with ⟨-, hu⟩ | ⟨-, rfl, hends⟩
    · exact h.calls u c p hu
    · exact ⟨type, writeHint, rfl, hr.calls hends⟩
  · by_cases hends : r.ends = .done false
    · rw [World.at_after_of_outside ht hends] at hu
      rcases h.normalAlert u hu with hpos | ⟨p, v, hv⟩
      · exact .inl (Nat.lt_of_lt_of_le hpos hr.totalCount_le)
      · exact .inr ⟨p, v, hwoken p v hv⟩
    · exact .inl (hr.totalCount_pos h.counts hends)
  · by_cases hends : r.ends = .wait .writers
    · exact .inl (hr.writerCount_pos hends)
    · have hu : w.At .writers u := by
        cases he : r.ends with
        | done a => exact (World.at_after_of_outside ht he).mp hu
        | wait p =>
          rcases (World.at_after_wait he).mp hu with ⟨hu, -⟩ | ⟨-, hp⟩
          · exact hu
          · exact absurd (hp ▸ he) hends
      rcases h.writerAlert u hu with hpos | ⟨v, hv⟩ | ⟨type', v, hv⟩
      · exact .inl (Nat.lt_of_lt_of_le hpos hr.writerCount_le)
      · exact .inr (.inl ⟨v, hwoken .writers v hv⟩)
      · refine .inr (.inr ⟨type', v, World.waits_after.mpr (.inl ⟨?_, hv⟩)⟩)
        rintro rfl
        obtain ⟨_, hv⟩ := hv
        cases ht.symm.trans hv

omit [DecidableEq Thread] in
theorem Inv.not_refused (h : Inv w) {p : Place} (ht : w.phase t = .waiting (.tryIncrease type writeHint) p true)
    (hr : Loop t type writeHint s r) : r.ends ≠ .done false := by
  obtain ⟨type', writeHint', heq, hwait, -⟩ := h.calls t _ p ⟨true, ht⟩
  cases heq
  cases hr with
  | refuse hrefuse => cases hwait.symm.trans hrefuse
  | _ => simp

/-- A call that was woken where it waited for any handle. -/
theorem Inv.resume_normals (h : Inv w) (ht : w.phase t = .waiting (.tryIncrease type writeHint) .normals true)
    (hr : Loop t type writeHint { w.state with pendingNormals := w.state.pendingNormals.tail } r) :
    Inv (w.after t (.tryIncrease type writeHint) r) := by
  have hcounts : Counts { w.state with pendingNormals := w.state.pendingNormals.tail } :=
    ⟨h.counts.writers_le, h.counts.handles_le, h.counts.writers_le_handles⟩
  have hends := h.not_refused ht hr
  have hwoken : w.Woken .normals t := by simp [World.Woken, ht, Monitor.Phase.isWoken]
  have hat : ¬ w.At .writers t := by simp [World.at_iff_of_phase ht]
  refine ⟨hcounts.loop hr, ?_, ?_, fun u c p hu => ?_, fun u _ => .inl (hr.totalCount_pos hcounts hends),
    fun u hu => ?_⟩
  · cases hr with
    | waitNormal => exact h.normals.popPush hwoken rfl fun _ => rfl
    | _ => exact h.normals.pop hwoken (by simp) fun _ => rfl
  · cases hr with
    | waitWriter => exact h.writers.push hat rfl fun _ => rfl
    | _ => exact h.writers.keep hat (by simp) fun u hu => by cases hu
  · rcases World.waits_after.mp hu with ⟨-, hu⟩ | ⟨-, rfl, hwait⟩
    · exact h.calls u c p hu
    · exact ⟨type, writeHint, rfl, hr.calls hwait⟩
  · by_cases hwait : r.ends = .wait .writers
    · exact .inl (hr.writerCount_pos hwait)
    · have hu : w.At .writers u := by
        cases he : r.ends with
        | done a => exact ((World.at_after_done he).mp hu).1
        | wait p =>
          rcases (World.at_after_wait he).mp hu with ⟨hu, -⟩ | ⟨-, hp⟩
          · exact hu
          · exact absurd (hp ▸ he) hwait
      rcases h.writerAlert u hu with hpos | ⟨v, hv⟩ | ⟨type', v, hv⟩
      · exact .inl (Nat.lt_of_lt_of_le hpos hr.writerCount_le)
      · refine .inr (.inl ⟨v, World.woken_after.mpr ⟨?_, .inl hv⟩⟩)
        rintro rfl
        exact hat hv.at
      · by_cases hvt : v = t
        · subst hvt
          obtain ⟨_, hv⟩ := hv
          cases ht.symm.trans hv
          rcases hr.writerCount_pos_or rfl hends with hpos | hnormals
          · exact .inl hpos
          · exact .inr (.inr ⟨_, v, World.waits_after.mpr (.inr ⟨rfl, rfl, hnormals⟩)⟩)
        · exact .inr (.inr ⟨type', v, World.waits_after.mpr (.inl ⟨hvt, hv⟩)⟩)

/-- A call that was woken where it waited for a handle that writes. -/
theorem Inv.resume_writers (h : Inv w) (ht : w.phase t = .waiting (.tryIncrease type writeHint) .writers true)
    (hr : Loop t type writeHint { w.state with pendingWriters := w.state.pendingWriters.tail } r) :
    Inv (w.after t (.tryIncrease type writeHint) r) := by
  have hcounts : Counts { w.state with pendingWriters := w.state.pendingWriters.tail } :=
    ⟨h.counts.writers_le, h.counts.handles_le, h.counts.writers_le_handles⟩
  have hends := h.not_refused ht hr
  have hwoken : w.Woken .writers t := by simp [World.Woken, ht, Monitor.Phase.isWoken]
  have hat : ¬ w.At .normals t := by simp [World.at_iff_of_phase ht]
  have hhint : writeHint = true := by
    obtain ⟨type', writeHint', heq, -, hhint⟩ := h.calls t _ .writers ⟨true, ht⟩
    cases heq
    exact hhint rfl
  refine ⟨hcounts.loop hr, ?_, ?_, fun u c p hu => ?_, fun u _ => .inl (hr.totalCount_pos hcounts hends),
    fun u hu => ?_⟩
  · cases hr with
    | waitNormal => exact h.normals.push hat rfl fun _ => rfl
    | _ => exact h.normals.keep hat (by simp) fun u hu => by cases hu
  · cases hr with
    | waitWriter => exact h.writers.popPush hwoken rfl fun _ => rfl
    | _ => exact h.writers.pop hwoken (by simp) fun _ => rfl
  · rcases World.waits_after.mp hu with ⟨-, hu⟩ | ⟨-, rfl, hwait⟩
    · exact h.calls u c p hu
    · exact ⟨type, writeHint, rfl, hr.calls hwait⟩
  · subst hhint
    rcases hr.writerCount_pos_or rfl hends with hpos | hnormals
    · exact .inl hpos
    · exact .inr (.inr ⟨type, t, World.waits_after.mpr (.inr ⟨rfl, rfl, hnormals⟩)⟩)

/-- A handle is given back, and the first thread of a queue is woken, if there is one that
the handle is for. -/
theorem Inv.gives_back (h : Inv w) (ht : w.phase t = .outside) (hs : promised (.decrease writeHint) w.state = true)
    {wakes : Place → Thread → Bool} (hnormals : ∀ u, wakes .normals u = true → w.state.pendingNormals.head? = some u)
    (hwriters : ∀ u, wakes .writers u = true → w.state.pendingWriters.head? = some u)
    (hnormal : ∀ u, w.At .normals u → ∃ p v, w.At p v ∧ wakes p v = true)
    (hwriter : writeHint = true → ∀ u, w.At .writers u → ∃ v, w.At .writers v ∧ wakes .writers v = true) :
    Inv (w.after t (.decrease writeHint)
      { state := w.state.decreased writeHint, wakes := wakes, ends := .done true }) := by
  have hat : ∀ p, ¬ w.At p t := fun p => World.not_at_of_outside ht
  have hne : ∀ p v, w.At p v → v ≠ t := by
    rintro p v hv rfl
    exact hat p hv
  refine ⟨h.counts.decreased hs, h.normals.keep (hat _) (by simp) hnormals, h.writers.keep (hat _) (by simp) hwriters,
    fun u c p hu => ?_, fun u hu => ?_, fun u hu => ?_⟩
  · rcases World.waits_after.mp hu with ⟨-, hu⟩ | ⟨-, -, hends⟩
    · exact h.calls u c p hu
    · cases hends
  · obtain ⟨p, v, hv, hwake⟩ := hnormal u ((World.at_after_of_outside ht rfl).mp hu)
    exact .inr ⟨p, v, World.woken_after.mpr ⟨hne p v hv, .inr ⟨hv, hwake⟩⟩⟩
  · have hat : w.At .writers u := (World.at_after_of_outside ht rfl).mp hu
    cases writeHint with
    | true =>
      obtain ⟨v, hv, hwake⟩ := hwriter rfl u hat
      exact .inr (.inl ⟨v, World.woken_after.mpr ⟨hne _ v hv, .inr ⟨hv, hwake⟩⟩⟩)
    | false =>
      rcases h.writerAlert u hat with hpos | ⟨v, hv⟩ | ⟨type', v, hv⟩
      · exact .inl hpos
      · exact .inr (.inl ⟨v, World.woken_after.mpr ⟨hne _ v hv.at, .inl hv⟩⟩)
      · refine .inr (.inr ⟨type', v, World.waits_after.mpr (.inl ⟨?_, hv⟩)⟩)
        rintro rfl
        obtain ⟨_, hv⟩ := hv
        cases ht.symm.trans hv

theorem exists_notified {p : Place} {queue : List Thread} (h : Queue w p queue) (hne : queue ≠ []) :
    ∃ v, w.At p v ∧ notify p queue p v = true := by
  obtain ⟨v, rest, rfl⟩ := List.exists_cons_of_ne_nil hne
  exact ⟨v, (h.mem_iff v).mp List.mem_cons_self, by simp [notify]⟩

theorem Inv.decrease (h : Inv w) (ht : w.phase t = .outside) (hs : promised (.decrease writeHint) w.state = true) :
    Inv (w.after t (.decrease writeHint) (HandleCounter.decrease writeHint w.state)) := by
  unfold HandleCounter.decrease
  split
  · rename_i hpending
    have hnotified := exists_notified h.writers hpending.2
    refine h.gives_back ht hs (fun u hu => by simp [notify] at hu) (fun u hu => by simpa [notify] using hu)
      (fun _ _ => ?_) (fun _ _ _ => hnotified)
    exact ⟨.writers, hnotified⟩
  · rename_i hwriters
    have hwriter : writeHint = true → ∀ u, ¬ w.At .writers u := fun hhint u hu =>
      hwriters ⟨hhint, List.ne_nil_of_mem ((h.writers.mem_iff u).mpr hu)⟩
    split
    · rename_i hpending
      refine h.gives_back ht hs (fun u hu => by simpa [notify] using hu) (fun u hu => by simp [notify] at hu)
        (fun _ _ => ?_) (fun hhint u hu => absurd hu (hwriter hhint u))
      exact ⟨.normals, exists_notified h.normals hpending⟩
    · rename_i hpending
      refine h.gives_back ht hs (fun u hu => by cases hu) (fun u hu => by cases hu)
        (fun u hu => ?_) (fun hhint u hu => absurd hu (hwriter hhint u))
      exact absurd (List.ne_nil_of_mem ((h.normals.mem_iff u).mpr hu)) hpending

/-- Whatever a thread does. -/
theorem Inv.step {e : Monitor.Event Thread Call} (he : ∀ t, e ≠ .spurious t) (h : Inv w)
    (hstep : monitor.step w e = some w') : Inv w' := by
  obtain ⟨t, c, rfl, ht, hs, rfl⟩ | ⟨t, c, p, rfl, ht, rfl⟩ | ⟨t, c, p, rfl, ht, rfl⟩ := Monitor.step_cases hstep
  · cases c with
    | tryIncrease type writeHint => exact h.enter ht (loop_normalLoop t type writeHint w.state)
    | decrease writeHint => exact h.decrease ht hs
  · obtain ⟨type, writeHint, rfl, -, -⟩ := h.calls t c p ⟨true, ht⟩
    cases p with
    | normals => exact h.resume_normals ht (loop_normalLoop t type writeHint _)
    | writers => exact h.resume_writers ht (loop_writerLoop t type writeHint _)
  · exact absurd rfl (he t)

omit [DecidableEq Thread] in
theorem counts_fresh : (fresh : Threads Thread).state.Counts := ⟨Nat.zero_le _, Nat.zero_le _, Nat.le_refl _⟩

omit [DecidableEq Thread] in
theorem queue_fresh (p : Place) : Queue (fresh : Threads Thread) p [] where
  nodup := List.nodup_nil
  mem_iff _ := iff_of_false List.not_mem_nil (World.not_at_of_outside rfl)
  head_of_woken _ ht := absurd ht.at (World.not_at_of_outside rfl)

omit [DecidableEq Thread] in
theorem inv_fresh : Inv (fresh : Threads Thread) where
  counts := counts_fresh
  normals := queue_fresh .normals
  writers := queue_fresh .writers
  calls _ _ _ ht := by
    obtain ⟨_, ht⟩ := ht
    cases ht
  normalAlert _ ht := absurd ht (World.not_at_of_outside rfl)
  writerAlert _ ht := absurd ht (World.not_at_of_outside rfl)

theorem Counts.step {e : Monitor.Event Thread Call} (h : w.state.Counts) (hstep : monitor.step w e = some w') :
    w'.state.Counts := by
  obtain ⟨t, c, rfl, ht, hs, rfl⟩ | ⟨t, c, p, rfl, ht, rfl⟩ | ⟨t, c, p, rfl, ht, rfl⟩ := Monitor.step_cases hstep
  · cases c with
    | tryIncrease type writeHint => exact h.loop (loop_normalLoop t type writeHint w.state)
    | decrease writeHint =>
      show Counts (HandleCounter.decrease writeHint w.state).state
      rw [state_decrease]
      exact h.decreased hs
  · cases c with
    | tryIncrease type writeHint =>
      cases p with
      | normals =>
        exact Counts.loop (s := { w.state with pendingNormals := w.state.pendingNormals.tail })
          ⟨h.writers_le, h.handles_le, h.writers_le_handles⟩ (loop_normalLoop t type writeHint _)
      | writers =>
        exact Counts.loop (s := { w.state with pendingWriters := w.state.pendingWriters.tail })
          ⟨h.writers_le, h.handles_le, h.writers_le_handles⟩ (loop_writerLoop t type writeHint _)
    | decrease writeHint => exact h
  · exact h

/-! ### The handles that are out -/

/-- One handle, of those that write or of the others, if the call returns true. -/
def taken (writes writeHint : Bool) (answer : Option Bool) : ℤ :=
  if writeHint = writes ∧ answer = some true then 1 else 0

/-- The handles that an event gives out, less those that it takes back. -/
def given (writes : Bool) (w : Threads Thread) (e : Monitor.Event Thread Call) (w' : Threads Thread) : ℤ :=
  match e with
  | .call t (.tryIncrease _ writeHint) => taken writes writeHint (w'.answer t)
  | .call _ (.decrease writeHint) => if writeHint = writes then -1 else 0
  | .resume t =>
    match w.phase t with
    | .waiting (.tryIncrease _ writeHint) _ _ => taken writes writeHint (w'.answer t)
    | _ => 0
  | .spurious _ => 0

/-- The handles that are out after a run. -/
def handlesOut (writes : Bool) (events : List (Monitor.Event Thread Call)) : ℤ :=
  monitor.tally (given writes) events fresh

omit [DecidableEq Thread] in
theorem Loop.taken (h : Loop t type writeHint s r) :
    (r.state.writerCount : ℤ) = s.writerCount + taken true writeHint (Monitor.answerOfEnds r.ends) ∧
    (r.state.totalCount : ℤ) = s.totalCount + (taken true writeHint (Monitor.answerOfEnds r.ends) +
      taken false writeHint (Monitor.answerOfEnds r.ends)) := by
  cases h with
  | increase => cases writeHint <;> simp [HandleCounter.taken, increased, Monitor.answerOfEnds]
  | _ => simp [HandleCounter.taken, Monitor.answerOfEnds]

/-- Every event changes the counts by the handles that it gives out. -/
theorem Counts.given {e : Monitor.Event Thread Call} (h : w.state.Counts) (hstep : monitor.step w e = some w') :
    (w'.state.writerCount : ℤ) = w.state.writerCount + given true w e w' ∧
    (w'.state.totalCount : ℤ) = w.state.totalCount + (given true w e w' + given false w e w') := by
  obtain ⟨t, c, rfl, ht, hs, rfl⟩ | ⟨t, c, p, rfl, ht, rfl⟩ | ⟨t, c, p, rfl, ht, rfl⟩ := Monitor.step_cases hstep
  · cases c with
    | tryIncrease type writeHint =>
      simpa [HandleCounter.given, World.after, monitor] using (loop_normalLoop t type writeHint w.state).taken
    | decrease writeHint =>
      have hle := h.writers_le_handles
      have hstate : (w.after t (.decrease writeHint) (monitor.enter t (.decrease writeHint) w.state)).state =
          w.state.decreased writeHint := state_decrease w.state
      rw [hstate]
      replace hs : promised (.decrease writeHint) w.state = true := hs
      cases writeHint with
      | true =>
        simp only [promised, decide_eq_true_eq] at hs
        simp only [HandleCounter.decreased, HandleCounter.given, if_true, Bool.true_eq_false, if_false]
        omega
      | false =>
        simp only [promised, decide_eq_true_eq] at hs
        simp only [HandleCounter.decreased, HandleCounter.given, if_true, Bool.false_eq_true, if_false]
        omega
  · cases c with
    | tryIncrease type writeHint =>
      cases p with
      | normals =>
        simpa [HandleCounter.given, World.after, monitor, ht] using (loop_normalLoop t type writeHint
          { w.state with pendingNormals := w.state.pendingNormals.tail }).taken
      | writers =>
        simpa [HandleCounter.given, World.after, monitor, ht] using (loop_writerLoop t type writeHint
          { w.state with pendingWriters := w.state.pendingWriters.tail }).taken
    | decrease writeHint => simp [HandleCounter.given, ht, monitor]
  · simp [HandleCounter.given, World.wakeUp]

variable {events : List (Monitor.Event Thread Call)}

theorem counts_of_run (h : monitor.run events fresh = some w) : w.state.Counts :=
  Monitor.run_invariant (I := fun w => w.state.Counts) (K := fun _ => True) (fun _ hw he => hw.step he)
    (fun _ _ => trivial) counts_fresh h

theorem writerCount_of_run (h : monitor.run events fresh = some w) :
    (w.state.writerCount : ℤ) = handlesOut true events := by
  have htally := Monitor.tally_of_run (I := fun w => w.state.Counts) (fun hw he => ⟨hw.step he, (hw.given he).1⟩)
    counts_fresh h
  rw [htally]
  exact Int.zero_add _

theorem totalCount_of_run (h : monitor.run events fresh = some w) :
    (w.state.totalCount : ℤ) = handlesOut true events + handlesOut false events := by
  have htally := Monitor.tally_of_run (I := fun w => w.state.Counts) (fun hw he => ⟨hw.step he, (hw.given he).2⟩)
    counts_fresh h
  rw [htally, Monitor.tally_add]
  exact Int.zero_add _

/-! ### What runs guarantee -/

/-- However the threads are woken, the counts are those of the handles that are out, and
these are no more than are allowed. -/
theorem handles_bounded (h : monitor.run events fresh = some w) :
    (w.state.writerCount : ℤ) = handlesOut true events ∧
    (w.state.totalCount : ℤ) = handlesOut true events + handlesOut false events ∧
    handlesOut true events ≤ maxAllowedWriters ∧
    handlesOut true events + handlesOut false events ≤ maxAllowedHandles := by
  have hcounts := counts_of_run h
  have hwriters := writerCount_of_run h
  have htotal := totalCount_of_run h
  refine ⟨hwriters, htotal, ?_, ?_⟩
  · rw [← hwriters]
    exact Int.ofNat_le.mpr hcounts.writers_le
  · rw [← htotal]
    exact Int.ofNat_le.mpr hcounts.handles_le

/-- The fifth that wants to write waits, and goes on when one handle is given back. -/
theorem handles_bounded_five :
    let take (t : Fin 5) : Monitor.Event (Fin 5) Call := .call t (.tryIncrease .normal true)
    let events := [take 0, take 1, take 2, take 3, take 4, .call 0 (.decrease true), .resume 4]
    ∃ w, monitor.run events fresh = some w ∧ w.answer 4 = some true ∧
      (w.state.writerCount : ℤ) = handlesOut true events ∧
      (w.state.totalCount : ℤ) = handlesOut true events + handlesOut false events ∧
      handlesOut true events ≤ maxAllowedWriters ∧
      handlesOut true events + handlesOut false events ≤ maxAllowedHandles := by
  intro take events
  have hrun : monitor.run events fresh = some _ := rfl
  exact ⟨_, hrun, rfl, handles_bounded hrun⟩

theorem inv_of_run (hevents : ∀ e ∈ events, ∀ t, e ≠ .spurious t) (h : monitor.run events fresh = some w) : Inv w :=
  Monitor.run_invariant (K := fun e => ∀ t, e ≠ .spurious t) (fun he hw hstep => hw.step he hstep) hevents inv_fresh h

/-- One wake-up for no reason: the fifth thread is out of the queue, and stays behind. -/
theorem spurious_strands :
    let take (t : Fin 6) : Monitor.Event (Fin 6) Call := .call t (.tryIncrease .normal true)
    let give (t : Fin 6) : Monitor.Event (Fin 6) Call := .call t (.decrease true)
    ∃ w, monitor.run [take 0, take 1, take 2, take 3, take 4, take 5, .spurious 5, .resume 5,
        give 0, give 1, give 2, give 3, .resume 5, give 5] fresh = some w ∧
      w.state.totalCount = 0 ∧ w.At .writers 4 ∧ ∀ p u, ¬ w.Woken p u := by
  refine ⟨_, rfl, rfl, rfl, fun p => ?_⟩
  cases p with
  | normals => decide
  | writers => decide

end HandleCounter

end StudyDB.WCDB
