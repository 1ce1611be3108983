import StudyDB.Foundation.Collections

/-! `PThreadSafeArray`: an `NSMutableArray` of objects bridged from elements, and
thirteen methods that lock it. Proved: whoever calls whatever, no method that
changes the elements runs beside another, and a call gives the lock back; and
under any sequence of calls the array is the list that the same calls make of a
list. -/

namespace StudyDB.PThreadSafeArray

open Method ReadWriteLock

variable {Element Obj : Type} (bridge : Bridge Element Obj)

/-! ### The methods -/

/-- The array with no calls on its lock yet. -/
def ofList (list : List Element) : Object (List Obj) := ⟨list.map bridge.toObject, []⟩

def values : Method Fault (List Obj) (List Element) :=
  deferring unlock do
    rdlock
    onContents do
      if let some values := bridge.castAll? (← get) then
        return values
      return []

def setValues (newValue : List Element) : Method Fault (List Obj) PUnit :=
  deferring unlock do
    wrlock
    onContents do
      set (newValue.map bridge.toObject)

def count : Method Fault (List Obj) ℕ :=
  deferring unlock do
    rdlock
    onContents do
      return ← NSMutableArray.count

def first : Method Fault (List Obj) (Option Element) :=
  deferring unlock do
    rdlock
    onContents do
      return (← NSMutableArray.firstObject).bind bridge.cast?

def last : Method Fault (List Obj) (Option Element) :=
  deferring unlock do
    rdlock
    onContents do
      return (← NSMutableArray.lastObject).bind bridge.cast?

def subscript (index : ℤ) : Method Fault (List Obj) (Option Element) :=
  deferring unlock do
    rdlock
    onContents do
      if 0 ≤ index ∧ index < (← NSMutableArray.count) then
        if let some value := bridge.cast? (← NSMutableArray.object index) then
          return some value
      return none

def setSubscript (index : ℤ) (newValue : Option Element) : Method Fault (List Obj) PUnit :=
  deferring unlock do
    wrlock
    onContents do
      if let some value := newValue then
        if 0 ≤ index ∧ index < (← NSMutableArray.count) then
          NSMutableArray.replaceObject index (bridge.toObject value)

def appendItems (items : Option (List Element)) : Method Fault (List Obj) PUnit :=
  deferring unlock do
    wrlock
    onContents do
      let some items := items | return
      unless items.length > 0 do return
      NSMutableArray.addObjects (items.map bridge.toObject)

def appendItem (item : Option Element) : Method Fault (List Obj) PUnit :=
  deferring unlock do
    wrlock
    onContents do
      let some item := item | return
      NSMutableArray.addObjects [bridge.toObject item]

def insert (item : Option Element) (i : Option ℤ) : Method Fault (List Obj) PUnit :=
  deferring unlock do
    wrlock
    onContents do
      let some item := item | return
      let some i := i | return
      unless 0 ≤ i ∧ i ≤ (← NSMutableArray.count) do return
      NSMutableArray.insert (bridge.toObject item) i

def remove (position : ℤ) : Method Fault (List Obj) PUnit :=
  deferring unlock do
    wrlock
    onContents do
      if (← NSMutableArray.count) ≤ position ∨ position < 0 then
        return
      NSMutableArray.removeObject position

/-- The offsets and the elements. -/
def enumerated : Method Fault (List Obj) (List (ℕ × Element)) :=
  deferring unlock do
    rdlock
    onContents do
      if let some values := bridge.castAll? (← get) then
        return values.zipIdx.map Prod.swap
      return []

/-- The write lock is asked for, though nothing is written. -/
def filter (isIncluded : Element → Bool) : Method Fault (List Obj) (List Element) :=
  deferring unlock do
    wrlock
    onContents do
      let elements ← ((← get).filterM fun item => return isIncluded (← bridge.forceCast item) :
        Except Fault (List Obj))
      if let some array := bridge.castAll? elements then
        return array
      return []

/-! ### Calls -/

/-- A call of a method, with its arguments. -/
inductive Call (Element : Type) where
  | values
  | setValues (newValue : List Element)
  | count
  | first
  | last
  | subscript (index : ℤ)
  | setSubscript (index : ℤ) (newValue : Option Element)
  | appendItems (items : Option (List Element))
  | appendItem (item : Option Element)
  | insert (item : Option Element) (i : Option ℤ)
  | remove (position : ℤ)
  | enumerated
  | filter (isIncluded : Element → Bool)

namespace Call

/-- The call, its result not used. -/
def method : Call Element → Method Fault (List Obj) PUnit
  | values => ignoring (PThreadSafeArray.values bridge)
  | setValues newValue => PThreadSafeArray.setValues bridge newValue
  | count => ignoring PThreadSafeArray.count
  | first => ignoring (PThreadSafeArray.first bridge)
  | last => ignoring (PThreadSafeArray.last bridge)
  | subscript index => ignoring (PThreadSafeArray.subscript bridge index)
  | setSubscript index newValue => PThreadSafeArray.setSubscript bridge index newValue
  | appendItems items => PThreadSafeArray.appendItems bridge items
  | appendItem item => PThreadSafeArray.appendItem bridge item
  | insert item i => PThreadSafeArray.insert bridge item i
  | remove position => PThreadSafeArray.remove position
  | enumerated => ignoring (PThreadSafeArray.enumerated bridge)
  | filter isIncluded => ignoring (PThreadSafeArray.filter bridge isIncluded)

/-- The mode in which the method locks. -/
def mode : Call Element → Mode
  | values | count | first | last | subscript _ | enumerated => .read
  | setValues _ | setSubscript .. | appendItems _ | appendItem _ | insert .. | remove _ | filter _ => .write

/-- The method is one that changes the elements. -/
def modifies : Call Element → Bool
  | setValues _ | setSubscript .. | appendItems _ | appendItem _ | insert .. | remove _ => true
  | values | count | first | last | subscript _ | enumerated | filter _ => false

/-- Every method locks in its mode around its body, and changes the elements only if
it is marked so. -/
theorem locked (c : Call Element) :
    ∃ body, Locked c.mode (c.method bridge) body ∧ (¬ c.modifies = true → body.Reads) := by
  cases c with
  | values =>
    refine ⟨_, (locked_deferring .read _).ignoring,
      fun _ => .bind (.bind .get fun objects => ?_) fun _ => .pure _⟩
    split
    all_goals exact .pure _
  | count =>
    exact ⟨_, (locked_deferring .read _).ignoring,
      fun _ => .bind NSMutableArray.reads_count fun _ => .pure _⟩
  | first | last =>
    exact ⟨_, (locked_deferring .read _).ignoring,
      fun _ => .bind (.bind (.bind .get fun _ => .pure _) fun _ => .pure _) fun _ => .pure _⟩
  | subscript index =>
    refine ⟨_, (locked_deferring .read _).ignoring,
      fun _ => .bind (.bind NSMutableArray.reads_count fun count => ?_) fun _ => .pure _⟩
    split
    · refine .bind (NSMutableArray.reads_object index) fun object => ?_
      split
      all_goals exact .pure _
    · exact .pure _
  | enumerated =>
    refine ⟨_, (locked_deferring .read _).ignoring,
      fun _ => .bind (.bind .get fun objects => ?_) fun _ => .pure _⟩
    split
    all_goals exact .pure _
  | filter isIncluded =>
    refine ⟨_, (locked_deferring .write _).ignoring,
      fun _ => .bind (.bind .get fun objects => .bind (.lift _) fun elements => ?_) fun _ => .pure _⟩
    split
    all_goals exact .pure _
  | setValues | setSubscript | appendItems | appendItem | insert | remove =>
    exact ⟨_, locked_deferring .write _, fun h => absurd rfl h⟩

end Call

/-! ### The elements -/

/-- What a call makes of a list of elements. -/
def Call.onList : Call Element → List Element → List Element
  | setValues newValue, _ => newValue
  | setSubscript index (some value), list =>
    if 0 ≤ index ∧ index < list.length then list.set index.toNat value else list
  | appendItems (some items), list => list ++ items
  | appendItem (some item), list => list ++ [item]
  | insert (some item) (some i), list =>
    if 0 ≤ i ∧ i ≤ list.length then list.insertIdx i.toNat item else list
  | remove position, list =>
    if 0 ≤ position ∧ position < list.length then list.eraseIdx position.toNat else list
  | _, list => list

/-- Every method that reads the array answers from the list. -/
structure Shows (o : Object (List Obj)) (list : List Element) : Prop where
  values : Returns (values bridge) o list
  count : Returns count o list.length
  first : Returns (first bridge) o list.head?
  last : Returns (last bridge) o list.getLast?
  subscript : ∀ index, Returns (subscript bridge index) o (if 0 ≤ index then list[index.toNat]? else none)
  enumerated : Returns (enumerated bridge) o (list.zipIdx.map Prod.swap)
  filter : ∀ isIncluded, Returns (filter bridge isIncluded) o (list.filter isIncluded)

section Run
variable {bridge} {o : Object (List Obj)} {list : List Element}

theorem subscript_returns (h : o.contents = list.map bridge.toObject) (index : ℤ) :
    Returns (subscript bridge index) o (if 0 ≤ index then list[index.toNat]? else none) := by
  refine (locked_deferring .read _).returns ?_
  rw [Body.run_bind NSMutableArray.count_run, h, List.length_map]
  by_cases hin : 0 ≤ index ∧ index < list.length
  · have hin' : 0 ≤ index ∧ index < (list.map bridge.toObject).length := by rwa [List.length_map]
    obtain ⟨object, hobject, hrun⟩ := NSMutableArray.object_run hin'
    rw [if_pos hin, Body.run_bind hrun, if_pos hin.1]
    rw [List.getElem?_map, Option.map_eq_some_iff] at hobject
    obtain ⟨value, hvalue, rfl⟩ := hobject
    rw [hvalue, bridge.cast?_toObject]
    rfl
  · have hnone : (if 0 ≤ index then list[index.toNat]? else none) = none := by
      rw [ite_eq_right_iff]
      intro h0
      rw [List.getElem?_eq_none_iff]
      omega
    rw [if_neg hin, hnone]
    rfl

theorem filter_returns (h : o.contents = list.map bridge.toObject) (isIncluded : Element → Bool) :
    Returns (filter bridge isIncluded) o (list.filter isIncluded) := by
  refine (locked_deferring .write _).returns ?_
  rw [Body.run_get_bind, h, bridge.filterM_forceCast, Body.run_bind (Body.run_lift ..), bridge.castAll?_map]
  rfl

theorem shows_of_contents (h : o.contents = list.map bridge.toObject) : Shows bridge o list where
  values := by
    refine (locked_deferring .read _).returns ?_
    rw [Body.run_get_bind, h, bridge.castAll?_map]
    rfl
  count := by
    refine (locked_deferring .read _).returns ?_
    rw [h, NSMutableArray.count_run, List.length_map]
  first := by
    refine (locked_deferring .read _).returns ?_
    rw [h]
    show Except.ok ((list.map bridge.toObject).head?.bind bridge.cast?, _) = _
    rw [List.head?_map, Option.bind_map, bridge.cast?_comp_toObject, Option.bind_fun_some]
  last := by
    refine (locked_deferring .read _).returns ?_
    rw [h]
    show Except.ok ((list.map bridge.toObject).getLast?.bind bridge.cast?, _) = _
    rw [List.getLast?_map, Option.bind_map, bridge.cast?_comp_toObject, Option.bind_fun_some]
  subscript := subscript_returns h
  enumerated := by
    refine (locked_deferring .read _).returns ?_
    rw [Body.run_get_bind, h, bridge.castAll?_map]
    rfl
  filter := filter_returns h

/-- The method returns and leaves the objects of `list'`. -/
def Leaves (bridge : Bridge Element Obj) (method : Method Fault (List Obj) PUnit) (o : Object (List Obj))
    (list' : List Element) : Prop :=
  ∃ o', method o = .ok (⟨⟩, o') ∧ o'.contents = list'.map bridge.toObject

theorem leaves_ignoring {α : Type} {method : Method Fault (List Obj) α} {a : α} (hr : Returns method o a)
    (h : o.contents = list.map bridge.toObject) : Leaves bridge (ignoring method) o list := by
  obtain ⟨calls, hrun⟩ := hr
  exact ⟨⟨o.contents, calls⟩, run_bind hrun _, h⟩

theorem leaves_of_body {body : Body Fault (List Obj) PUnit} {list' : List Element}
    (hbody : body o.contents = .ok (⟨⟩, list'.map bridge.toObject)) :
    Leaves bridge (deferring unlock do wrlock; onContents body) o list' :=
  ⟨_, (locked_deferring .write body).run hbody, rfl⟩

variable (h : o.contents = list.map bridge.toObject)
include h

theorem setSubscript_leaves (index : ℤ) (newValue : Option Element) :
    Leaves bridge (setSubscript bridge index newValue) o
      (Call.onList (.setSubscript index newValue) list) := by
  apply leaves_of_body
  rw [h]
  cases newValue with
  | none => rfl
  | some value =>
    show (NSMutableArray.count >>= _) _ = _
    rw [Body.run_bind NSMutableArray.count_run, List.length_map, Call.onList]
    split_ifs with hin
    · rw [NSMutableArray.replaceObject_run (by rwa [List.length_map]), List.map_set]
    · rfl

theorem appendItems_leaves (items : Option (List Element)) :
    Leaves bridge (appendItems bridge items) o (Call.onList (.appendItems items) list) := by
  apply leaves_of_body
  rw [h]
  rcases items with _ | _ | ⟨item, items⟩
  · rfl
  · rw [Call.onList, List.append_nil]
    rfl
  · rw [Call.onList, List.map_append]
    rfl

theorem appendItem_leaves (item : Option Element) :
    Leaves bridge (appendItem bridge item) o (Call.onList (.appendItem item) list) := by
  apply leaves_of_body
  rw [h]
  cases item with
  | none => rfl
  | some item =>
    rw [Call.onList, List.map_append]
    rfl

theorem insert_leaves (item : Option Element) (i : Option ℤ) :
    Leaves bridge (insert bridge item i) o (Call.onList (.insert item i) list) := by
  apply leaves_of_body
  rw [h]
  rcases item with _ | item
  · rfl
  · rcases i with _ | i
    · rfl
    · show (NSMutableArray.count >>= _) _ = _
      rw [Body.run_bind NSMutableArray.count_run, List.length_map, Call.onList]
      split_ifs with hin
      · show NSMutableArray.insert _ _ _ = _
        rw [NSMutableArray.insert_run (by rwa [List.length_map]), List.map_insertIdx]
      · rfl

theorem remove_leaves (position : ℤ) :
    Leaves bridge (remove position) o (Call.onList (.remove position) list) := by
  apply leaves_of_body
  rw [Body.run_bind NSMutableArray.count_run, h, List.length_map, Call.onList]
  by_cases hin : 0 ≤ position ∧ position < list.length
  · rw [if_neg (by omega), if_pos hin]
    show NSMutableArray.removeObject _ _ = _
    rw [NSMutableArray.removeObject_run (by rwa [List.length_map]), List.eraseIdx_map]
  · rw [if_pos (by omega), if_neg hin]
    rfl

/-- One call, on the objects of a list, returns and leaves what it makes of the list. -/
theorem Call.leaves (c : Call Element) : Leaves bridge (c.method bridge) o (c.onList list) := by
  have hs := shows_of_contents h
  cases c with
  | values => exact leaves_ignoring hs.values h
  | setValues newValue => exact leaves_of_body rfl
  | count => exact leaves_ignoring hs.count h
  | first => exact leaves_ignoring hs.first h
  | last => exact leaves_ignoring hs.last h
  | subscript index => exact leaves_ignoring (hs.subscript index) h
  | setSubscript index newValue => exact setSubscript_leaves h index newValue
  | appendItems items => exact appendItems_leaves h items
  | appendItem item => exact appendItem_leaves h item
  | insert item i => exact insert_leaves h item i
  | remove position => exact remove_leaves h position
  | enumerated => exact leaves_ignoring hs.enumerated h
  | filter isIncluded => exact leaves_ignoring (hs.filter isIncluded) h

/-- So do any number of calls, one after the other. -/
theorem leaves_calls (calls : List (Call Element)) :
    Leaves bridge (calls.forM (Call.method bridge)) o (calls.foldl (fun list c => c.onList list) list) := by
  induction calls generalizing o list with
  | nil => exact ⟨o, rfl, h⟩
  | cons c calls ih =>
    obtain ⟨o', hrun, hcontents⟩ := c.leaves h
    obtain ⟨o'', hrun', hcontents'⟩ := ih hcontents
    exact ⟨o'', (run_bind hrun _).trans hrun', hcontents'⟩

end Run

/-- Any calls, in any order, on an array made from any list, all return, and the array
then shows the list that they make of that list. -/
theorem refines_list (list : List Element) (calls : List (Call Element)) :
    ∃ o, calls.forM (Call.method bridge) (ofList bridge list) = .ok (⟨⟩, o) ∧
      Shows bridge o (calls.foldl (fun list c => c.onList list) list) := by
  obtain ⟨o, hrun, hcontents⟩ := leaves_calls (o := ofList bridge list) rfl calls
  exact ⟨o, hrun, shows_of_contents hcontents⟩

/-! ### Exclusion -/

/-- The methods as a class with a lock. -/
def methods : LockedClass Fault (Call Element) (List Obj) where
  method := Call.method bridge
  mode := Call.mode
  modifies c := c.modifies = true
  locked := Call.locked bridge

theorem mode_of_modifies (c : Call Element) (h : c.modifies = true) : c.mode = .write := by
  cases c <;> first | rfl | cases h

/-- Whatever threads call, no method that changes the elements is run beside another
method; a call that returns has given the lock back once for the once it was taken,
having changed the elements only if it is marked so; and on an array of elements
every call returns. -/
theorem exclusive_and_unlocked {Thread : Type*} [DecidableEq Thread] :
    (∀ (prog : Thread → List (Call Element)) (objects : List Obj) s,
      Run (methods bridge).discipline (State.initial prog objects) s →
        s.Exclusive (methods bridge).discipline) ∧
    (∀ (c : Call Element) (o o' : Object (List Obj)), c.method bridge o = .ok (⟨⟩, o') →
      o'.lockCalls = o.lockCalls ++ [.lock c.mode, .unlock] ∧
        (c.modifies = false → o'.contents = o.contents)) ∧
    ∀ (c : Call Element) (list : List Element) (lockCalls : List LockCall),
      ∃ o', c.method bridge ⟨list.map bridge.toObject, lockCalls⟩ = .ok (⟨⟩, o') := by
  refine ⟨fun prog objects s => exclusive_of_write mode_of_modifies, ?_, ?_⟩
  · intro c o o' hrun
    obtain ⟨hcalls, hreads⟩ := (methods bridge).of_run hrun
    exact ⟨hcalls, fun hmod => hreads (by simp [methods, hmod])⟩
  · intro c list lockCalls
    obtain ⟨o', hrun, _⟩ : Leaves bridge (c.method bridge) ⟨list.map bridge.toObject, lockCalls⟩ _ :=
      c.leaves rfl
    exact ⟨o', hrun⟩

end StudyDB.PThreadSafeArray
