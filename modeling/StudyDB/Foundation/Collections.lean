import StudyDB.Data.KeyMap
import StudyDB.Locks.Method
import Mathlib.Data.List.InsertIdx

/-! Swift values as Foundation objects; `NSMutableArray`, a list of objects that
raises on an index out of range; and `NSMutableDictionary`, a map of objects by
keys that are compared with `isEqual:`. -/

namespace StudyDB

/-- What ends the process: an `NSRangeException`, or a forced cast that fails. -/
inductive Fault where
  | range | cast
  deriving DecidableEq, Repr

/-! ### Bridging -/

/-- How the values of a type become objects; casting the object of a value gives
the value back. -/
structure Bridge (Value Obj : Type) where
  toObject : Value → Obj
  cast? : Obj → Option Value
  cast?_toObject : ∀ v, cast? (toObject v) = some v

namespace Bridge

variable {Value Obj : Type} (bridge : Bridge Value Obj)

/-- `as? [Value]`: every object is cast, or none is. -/
def castAll? (objects : List Obj) : Option (List Value) := objects.mapM bridge.cast?

/-- `as! Value`. -/
def forceCast (object : Obj) : Except Fault Value :=
  match bridge.cast? object with
  | some value => .ok value
  | none => .error .cast

@[simp] theorem castAll?_map (values : List Value) :
    bridge.castAll? (values.map bridge.toObject) = some values := by
  induction values with
  | nil => rfl
  | cons v values ih =>
    rw [castAll?] at ih ⊢
    simp [bridge.cast?_toObject, ih]

@[simp] theorem forceCast_toObject (v : Value) : bridge.forceCast (bridge.toObject v) = .ok v := by
  rw [forceCast, bridge.cast?_toObject]

theorem cast?_comp_toObject : bridge.cast? ∘ bridge.toObject = some := by
  funext v
  exact bridge.cast?_toObject v

/-- A filter that casts each object before it asks keeps the objects of the values
that are to stay. -/
theorem filterM_forceCast (isIncluded : Value → Bool) (values : List Value) :
    ((values.map bridge.toObject).filterM fun item => return isIncluded (← bridge.forceCast item)) =
      .ok ((values.filter isIncluded).map bridge.toObject) := by
  have key : ∀ (values : List Value) (kept : List Obj),
      (values.map bridge.toObject).filterAuxM (fun item => return isIncluded (← bridge.forceCast item)) kept =
        .ok (((values.filter isIncluded).map bridge.toObject).reverse ++ kept) := by
    intro values
    induction values with
    | nil =>
      intro kept
      rfl
    | cons v values ih =>
      intro kept
      rw [List.map_cons, List.filterAuxM, bridge.forceCast_toObject]
      show List.filterAuxM _ _ (cond (isIncluded v) (bridge.toObject v :: kept) kept) = _
      rw [ih]
      cases hv : isIncluded v <;> simp [hv]
  rw [List.filterM, key]
  show Except.ok (List.reverse _) = _
  rw [List.append_nil, List.reverse_reverse]

/-- Pairs, cast side by side. -/
def prod {Value' Obj' : Type} (bridge' : Bridge Value' Obj') : Bridge (Value × Value') (Obj × Obj') where
  toObject := Prod.map bridge.toObject bridge'.toObject
  cast? e := do return (← bridge.cast? e.1, ← bridge'.cast? e.2)
  cast?_toObject v := by simp [bridge.cast?_toObject, bridge'.cast?_toObject]

/-- A type whose values are their own objects. -/
def self (Value : Type) : Bridge Value Value := ⟨id, some, fun _ => rfl⟩

end Bridge

/-! ### NSMutableArray -/

namespace NSMutableArray

variable {Obj : Type}

def count : Body Fault (List Obj) ℕ := return (← get).length

def firstObject : Body Fault (List Obj) (Option Obj) := return (← get).head?

def lastObject : Body Fault (List Obj) (Option Obj) := return (← get).getLast?

/-- The position of an index below a bound; any other index raises. -/
def position (index : ℤ) (bound : ℕ) : Body Fault (List Obj) ℕ :=
  if 0 ≤ index ∧ index < bound then pure index.toNat else throw .range

def object (index : ℤ) : Body Fault (List Obj) Obj := do
  let objects ← get
  match objects[← position index objects.length]? with
  | some object => return object
  | none => throw .range

def replaceObject (index : ℤ) (object : Obj) : Body Fault (List Obj) PUnit := do
  let i ← position index (← count)
  modify fun objects => objects.set i object

def addObjects (objects : List Obj) : Body Fault (List Obj) PUnit :=
  modify fun old => old ++ objects

/-- One past the last index is in range here. -/
def insert (object : Obj) (index : ℤ) : Body Fault (List Obj) PUnit := do
  let i ← position index ((← count) + 1)
  modify fun objects => objects.insertIdx i object

def removeObject (index : ℤ) : Body Fault (List Obj) PUnit := do
  let i ← position index (← count)
  modify fun objects => objects.eraseIdx i

theorem reads_count : Body.Reads (count : Body Fault (List Obj) ℕ) := .bind .get fun _ => .pure _

theorem reads_position (index : ℤ) (bound : ℕ) :
    Body.Reads (position index bound : Body Fault (List Obj) ℕ) := by
  unfold position
  split
  · exact .pure _
  · exact .throw _

theorem reads_object (index : ℤ) : Body.Reads (object index : Body Fault (List Obj) Obj) := by
  refine .bind .get fun objects => .bind (reads_position index _) fun i => ?_
  split
  · exact .pure _
  · exact .throw _

variable {index : ℤ} {objects : List Obj}

theorem count_run : NSMutableArray.count objects = .ok (objects.length, objects) := rfl

theorem position_run {bound : ℕ} (h : 0 ≤ index ∧ index < bound) :
    position index bound objects = .ok (index.toNat, objects) := by
  rw [position, if_pos h]
  rfl

theorem object_run (h : 0 ≤ index ∧ index < objects.length) :
    ∃ object, objects[index.toNat]? = some object ∧
      NSMutableArray.object index objects = .ok (object, objects) := by
  have hlt : index.toNat < objects.length := by omega
  refine ⟨objects[index.toNat], List.getElem?_eq_getElem hlt, ?_⟩
  rw [object, Body.run_get_bind, Body.run_bind (position_run h), List.getElem?_eq_getElem hlt]
  rfl

theorem replaceObject_run (h : 0 ≤ index ∧ index < objects.length) (object : Obj) :
    replaceObject index object objects = .ok (⟨⟩, objects.set index.toNat object) := by
  rw [replaceObject, Body.run_bind count_run, Body.run_bind (position_run h)]
  rfl

theorem insert_run (h : 0 ≤ index ∧ index ≤ objects.length) (object : Obj) :
    insert object index objects = .ok (⟨⟩, objects.insertIdx index.toNat object) := by
  rw [insert, Body.run_bind count_run, Body.run_bind (position_run ⟨h.1, by omega⟩)]
  rfl

theorem removeObject_run (h : 0 ≤ index ∧ index < objects.length) :
    removeObject index objects = .ok (⟨⟩, objects.eraseIdx index.toNat) := by
  rw [removeObject, Body.run_bind count_run, Body.run_bind (position_run h)]
  rfl

end NSMutableArray

/-! ### NSMutableDictionary -/

namespace NSMutableDictionary

variable {KObj VObj : Type} {isEqual : KeyEq KObj}

def count : Body Fault (KeyMap KObj VObj isEqual) ℕ := return (← get).count

def object (key : KObj) : Body Fault (KeyMap KObj VObj isEqual) (Option VObj) := return (← get).get key

def setObject (object : VObj) (key : KObj) : Body Fault (KeyMap KObj VObj isEqual) PUnit :=
  modify fun elements => elements.set key object

def removeObject (key : KObj) : Body Fault (KeyMap KObj VObj isEqual) PUnit :=
  modify fun elements => elements.remove key

/-- The subscript setter, where nil removes. -/
def setSubscript (key : KObj) : Option VObj → Body Fault (KeyMap KObj VObj isEqual) PUnit
  | some object => setObject object key
  | none => removeObject key

end NSMutableDictionary

end StudyDB
