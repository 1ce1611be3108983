import StudyDB.Foundation.Collections
import StudyDB.Locks.Linearization

/-! The operations of `NSMutableArray` and `NSMutableDictionary` with each access of
the contents a step of its own, so that other threads may come in between. That an access
is one step is what the classes promise where no other thread changes them meanwhile; of
programs that race these steps say nothing. Proved: run whole, they are the operations. -/

namespace StudyDB

/-! ### NSMutableArray -/

namespace NSMutableArray.Access

variable {Obj : Type}

def count : Code Fault (List Obj) ℕ := return (← get).length

def firstObject : Code Fault (List Obj) (Option Obj) := return (← get).head?

def lastObject : Code Fault (List Obj) (Option Obj) := return (← get).getLast?

def position (index : ℤ) (bound : ℕ) : Code Fault (List Obj) ℕ :=
  if 0 ≤ index ∧ index < bound then pure index.toNat else .throw .range

def object (index : ℤ) : Code Fault (List Obj) Obj := do
  let objects ← get
  match objects[← position index objects.length]? with
  | some object => return object
  | none => .throw .range

def replaceObject (index : ℤ) (object : Obj) : Code Fault (List Obj) PUnit := do
  let i ← position index (← count)
  modify fun objects => objects.set i object

def addObjects (objects : List Obj) : Code Fault (List Obj) PUnit :=
  modify fun old => old ++ objects

def insert (object : Obj) (index : ℤ) : Code Fault (List Obj) PUnit := do
  let i ← position index ((← count) + 1)
  modify fun objects => objects.insertIdx i object

def removeObject (index : ℤ) : Code Fault (List Obj) PUnit := do
  let i ← position index (← count)
  modify fun objects => objects.eraseIdx i

variable (index : ℤ) (o : Obj)

theorem exec_position (bound : ℕ) :
    (position index bound : Code Fault (List Obj) ℕ).exec = NSMutableArray.position index bound := by
  unfold position NSMutableArray.position
  split_ifs <;> rfl

theorem exec_object : (object index : Code Fault (List Obj) Obj).exec = NSMutableArray.object index := by
  unfold object NSMutableArray.object
  rw [Code.exec_bind]
  congr 1
  funext objects
  rw [Code.exec_bind, exec_position]
  congr 1
  funext i
  cases objects[i]? <;> rfl

theorem exec_replaceObject : (replaceObject index o).exec = NSMutableArray.replaceObject index o := by
  unfold replaceObject NSMutableArray.replaceObject
  rw [Code.exec_bind]
  congr 1
  funext n
  rw [Code.exec_bind, exec_position]
  rfl

theorem exec_insert : (insert o index).exec = NSMutableArray.insert o index := by
  unfold insert NSMutableArray.insert
  rw [Code.exec_bind]
  congr 1
  funext n
  rw [Code.exec_bind, exec_position]
  rfl

theorem exec_removeObject :
    (removeObject index : Code Fault (List Obj) PUnit).exec = NSMutableArray.removeObject index := by
  unfold removeObject NSMutableArray.removeObject
  rw [Code.exec_bind]
  congr 1
  funext n
  rw [Code.exec_bind, exec_position]
  rfl

theorem readOnly_position (bound : ℕ) :
    (position index bound : Code Fault (List Obj) ℕ).ReadOnly := by
  unfold position
  split_ifs <;> trivial

theorem readOnly_object : (object index : Code Fault (List Obj) Obj).ReadOnly := by
  refine .bind (fun _ => trivial) fun objects => .bind (readOnly_position index _) fun i => ?_
  cases objects[i]? <;> trivial

theorem within_position (bound : ℕ) : (position index bound : Code Fault (List Obj) ℕ).Within 0 := by
  unfold position
  split_ifs <;> trivial

theorem within_object : (object index : Code Fault (List Obj) Obj).Within 1 := by
  refine .bind (m := 1) (n := 0) (fun _ => trivial) fun objects =>
    .bind (m := 0) (n := 0) (within_position index _) fun i => ?_
  cases objects[i]? <;> trivial

theorem within_replaceObject : (replaceObject index o).Within 3 :=
  .bind (m := 1) (n := 2) (fun _ => trivial) fun _ =>
    .bind (m := 0) (n := 2) (within_position index _) fun _ => fun _ => trivial

theorem within_insert : (insert o index).Within 3 :=
  .bind (m := 1) (n := 2) (fun _ => trivial) fun _ =>
    .bind (m := 0) (n := 2) (within_position index _) fun _ => fun _ => trivial

theorem within_removeObject : (removeObject index : Code Fault (List Obj) PUnit).Within 3 :=
  .bind (m := 1) (n := 2) (fun _ => trivial) fun _ =>
    .bind (m := 0) (n := 2) (within_position index _) fun _ => fun _ => trivial

end NSMutableArray.Access

/-! ### NSMutableDictionary -/

namespace NSMutableDictionary.Access

variable {KObj VObj : Type} {isEqual : KeyEq KObj}

def count : Code Fault (KeyMap KObj VObj isEqual) ℕ := return (← get).count

def object (key : KObj) : Code Fault (KeyMap KObj VObj isEqual) (Option VObj) := return (← get).get key

def setObject (object : VObj) (key : KObj) : Code Fault (KeyMap KObj VObj isEqual) PUnit :=
  modify fun elements => elements.set key object

def removeObject (key : KObj) : Code Fault (KeyMap KObj VObj isEqual) PUnit :=
  modify fun elements => elements.remove key

def setSubscript (key : KObj) : Option VObj → Code Fault (KeyMap KObj VObj isEqual) PUnit
  | some object => setObject object key
  | none => removeObject key

theorem exec_setSubscript (k : KObj) (object : Option VObj) :
    (setSubscript k object : Code Fault (KeyMap KObj VObj isEqual) PUnit).exec =
      NSMutableDictionary.setSubscript k object := by
  cases object <;> rfl

theorem within_setSubscript (k : KObj) (object : Option VObj) :
    (setSubscript k object : Code Fault (KeyMap KObj VObj isEqual) PUnit).Within 2 := by
  cases object <;> exact fun _ => trivial

end NSMutableDictionary.Access

end StudyDB
