import StudyDB.Locks.ReadWriteLock

/-! Methods of an object behind a read-write lock, as code that calls the lock
itself. An object carries its contents and the calls made on its lock so far, so
that a method's use of the lock is a fact about its run. A method that takes the
lock in one mode, works on the contents and gives the lock back is `Locked`; a
class of such methods is a `Discipline`. -/

namespace StudyDB

open ReadWriteLock (Mode Discipline)

universe u v

/-- A call on the lock. -/
inductive LockCall where
  | lock (mode : Mode)
  | unlock
  deriving DecidableEq, Repr

/-- The contents, and the calls on the lock, the last one last. -/
structure Object (σ : Type u) where
  contents : σ
  lockCalls : List LockCall

/-- Code on the contents alone; an error is the end of the process. -/
abbrev Body (ε : Type v) (σ α : Type u) := StateT σ (Except ε) α

/-- Code on the contents and the lock. -/
abbrev Method (ε : Type v) (σ α : Type u) := StateT (Object σ) (Except ε) α

variable {ε : Type v} {σ α : Type u}

namespace Body

theorem run_bind {β : Type u} {body : Body ε σ α} {x y : σ} {a : α} (h : body x = .ok (a, y))
    (next : α → Body ε σ β) : (body >>= next) x = next a y := by
  show (body x).bind _ = _
  rw [h]
  rfl

theorem run_lift (a : α) (x : σ) : (liftM (.ok a : Except ε α) : Body ε σ α) x = .ok (a, x) := rfl

theorem run_get_bind (next : σ → Body ε σ α) (x : σ) : (get >>= next) x = next x x := rfl

/-- The code leaves the contents alone. -/
def Reads (body : Body ε σ α) : Prop := ∀ x a y, body x = .ok (a, y) → y = x

theorem Reads.pure (a : α) : Reads (pure a : Body ε σ α) := by
  intro x b y h
  cases h
  rfl

theorem Reads.get : Reads (get : Body ε σ σ) := by
  intro x b y h
  cases h
  rfl

theorem Reads.throw (e : ε) : Reads (throw e : Body ε σ α) := by
  intro x b y h
  cases h

/-- Code that only computes a result, or fails. -/
theorem Reads.lift (result : Except ε α) : Reads (liftM result : Body ε σ α) := by
  intro x b y h
  cases result with
  | error e => cases h
  | ok a =>
    cases h
    rfl

theorem Reads.bind {β : Type u} {body : Body ε σ α} {next : α → Body ε σ β} (h : Reads body)
    (hnext : ∀ a, Reads (next a)) : Reads (body >>= next) := by
  intro x b z hrun
  replace hrun : (body x).bind (fun r => next r.1 r.2) = .ok (b, z) := hrun
  cases hbody : body x with
  | error e =>
    rw [hbody] at hrun
    cases hrun
  | ok r =>
    rw [hbody] at hrun
    rw [hnext r.1 _ _ _ hrun, h _ _ _ hbody]

end Body

namespace Method

def lockCall (call : LockCall) : Method ε σ PUnit :=
  modify fun o => ⟨o.contents, o.lockCalls ++ [call]⟩

def rdlock : Method ε σ PUnit := lockCall (.lock .read)

def wrlock : Method ε σ PUnit := lockCall (.lock .write)

def unlock : Method ε σ PUnit := lockCall .unlock

/-- The contents worked on by code that does not touch the lock. -/
def onContents (body : Body ε σ α) : Method ε σ α := fun o =>
  (body o.contents).map fun (a, contents) => (a, { o with contents := contents })

/-- `defer { cleanup }` before `body`: `cleanup` runs wherever `body` returns. -/
def deferring (cleanup : Method ε σ PUnit) (body : Method ε σ α) : Method ε σ α := do
  let a ← body
  cleanup
  return a

/-- Run for its effect alone. -/
def ignoring (method : Method ε σ α) : Method ε σ PUnit := do
  let _ ← method
  return ⟨⟩

/-- The method is `body` between a lock in one mode and an unlock. -/
def Locked (mode : Mode) (method : Method ε σ α) (body : Body ε σ α) : Prop :=
  ∀ o, method o = (body o.contents).map fun (a, contents) =>
    (a, ⟨contents, o.lockCalls ++ [.lock mode, .unlock]⟩)

/-- The method returns `a` and leaves the contents alone. -/
def Returns (method : Method ε σ α) (o : Object σ) (a : α) : Prop :=
  ∃ calls, method o = .ok (a, ⟨o.contents, calls⟩)

/-- The unlock is deferred first, the lock taken next. -/
theorem locked_deferring (mode : Mode) (body : Body ε σ α) :
    Locked mode (deferring unlock do lockCall (.lock mode); onContents body) body := by
  intro o
  change ((body o.contents).map _ >>= _) = _
  cases body o.contents with
  | error e => rfl
  | ok r =>
    change Except.ok (r.1, (⟨r.2, o.lockCalls ++ [.lock mode] ++ [.unlock]⟩ : Object σ)) = _
    rw [List.append_assoc]
    rfl

/-- The lock is taken first, the unlock deferred next. -/
theorem locked_lock_deferring (mode : Mode) (body : Body ε σ α) :
    Locked mode (do lockCall (.lock mode); deferring unlock (onContents body)) body :=
  locked_deferring mode body

section Locked
variable {mode : Mode} {method : Method ε σ α} {body : Body ε σ α}

/-- A body that returns makes the method return, the lock given back. -/
theorem Locked.run (h : Locked mode method body) {o : Object σ} {a : α} {contents : σ}
    (hbody : body o.contents = .ok (a, contents)) :
    method o = .ok (a, ⟨contents, o.lockCalls ++ [.lock mode, .unlock]⟩) := by
  rw [h o, hbody]
  rfl

/-- A method that returns does so from its body, the lock given back. -/
theorem Locked.of_run (h : Locked mode method body) {o o' : Object σ} {a : α}
    (hrun : method o = .ok (a, o')) :
    body o.contents = .ok (a, o'.contents) ∧ o'.lockCalls = o.lockCalls ++ [.lock mode, .unlock] := by
  rw [h o] at hrun
  cases hb : body o.contents with
  | error e =>
    rw [hb] at hrun
    cases hrun
  | ok r =>
    rw [hb] at hrun
    cases hrun
    exact ⟨rfl, rfl⟩

theorem Locked.returns (h : Locked mode method body) {o : Object σ} {a : α}
    (hbody : body o.contents = .ok (a, o.contents)) : Returns method o a :=
  ⟨_, h.run hbody⟩

theorem Returns.unique {o : Object σ} {a b : α} (ha : Returns method o a) (hb : Returns method o b) :
    a = b := by
  obtain ⟨calls, ha⟩ := ha
  obtain ⟨calls', hb⟩ := hb
  rw [ha] at hb
  cases hb
  rfl

theorem Locked.ignoring (h : Locked mode method body) :
    Locked mode (Method.ignoring method) (body >>= fun _ => pure ⟨⟩) := by
  intro o
  change (method o >>= _) = Except.map _ (body o.contents >>= _)
  rw [h o]
  cases body o.contents <;> rfl

end Locked

theorem run_bind {β : Type u} {method : Method ε σ α} {o o' : Object σ} {a : α} (h : method o = .ok (a, o'))
    (next : α → Method ε σ β) : (method >>= next) o = next a o' := by
  show (method o).bind _ = _
  rw [h]
  rfl

end Method

open Method (Locked)

/-- The methods of a class with a lock. Each takes the lock once, in one mode,
around its body; a body not marked as modifying leaves the contents alone. -/
structure LockedClass (ε : Type v) (Call σ : Type u) where
  method : Call → Method ε σ PUnit
  mode : Call → Mode
  modifies : Call → Prop
  locked : ∀ c, ∃ body, Locked (mode c) (method c) body ∧ (¬ modifies c → body.Reads)

namespace LockedClass

variable {Call : Type u} (C : LockedClass ε Call σ)

/-- What threads see of the class. A body does what the method does to the contents
of an object; one that ends the process does not step. -/
def discipline : Discipline Call σ where
  mode := C.mode
  modifies := C.modifies
  body c x y := ∃ calls, C.method c ⟨x, []⟩ = .ok (⟨⟩, ⟨y, calls⟩)

/-- A call that returns has locked once and unlocked once, and has changed the
contents only if it is marked so. -/
theorem of_run {c : Call} {o o' : Object σ} {u : PUnit} (h : C.method c o = .ok (u, o')) :
    o'.lockCalls = o.lockCalls ++ [.lock (C.mode c), .unlock] ∧
      (¬ C.modifies c → o'.contents = o.contents) := by
  obtain ⟨body, hlocked, hreads⟩ := C.locked c
  obtain ⟨hbody, hcalls⟩ := hlocked.of_run h
  exact ⟨hcalls, fun hmod => hreads hmod _ _ _ hbody⟩

end LockedClass

end StudyDB
