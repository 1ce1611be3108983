import StudyDB.Foundation.Collections

/-! `PThreadSafeDictionary`: an `NSMutableDictionary` of bridged keys and values, and
nine methods that lock it, one of which writes under a read lock. Proved: exactly
which programs of the threads keep the writers apart, and exactly which writes keep
the dictionary what Swift's own would be. -/

namespace StudyDB.PThreadSafeDictionary

open Method ReadWriteLock

variable {Key Value KObj VObj : Type}

/-- The contents: objects by keys that are compared with `isEqual:`. -/
abbrev Elements (KObj VObj : Type) (isEqual : KeyEq KObj) := KeyMap KObj VObj isEqual

/-! ### The methods -/

section Methods

variable {equals : KeyEq Key} {isEqual : KeyEq KObj} (key : Bridge Key KObj) (value : Bridge Value VObj)

/-- A dictionary with nothing in it, and no calls on its lock yet. -/
def new : Object (Elements KObj VObj isEqual) := ⟨.empty, []⟩

/-- The cast to a Swift dictionary compares keys as Swift does. -/
def elements : Method Fault (Elements KObj VObj isEqual) (KeyMap Key Value equals) := do
  rdlock
  deferring unlock <| onContents do
    if let some tempElements := (key.prod value).castAll? (← get).entries then
      return .ofList tempElements
    return .empty

def setElements (newValue : KeyMap Key Value equals) : Method Fault (Elements KObj VObj isEqual) PUnit := do
  wrlock
  deferring unlock <| onContents do
    set (.ofList (newValue.entries.map (key.prod value).toObject) : Elements KObj VObj isEqual)

def values : Method Fault (Elements KObj VObj isEqual) (List Value) := do
  rdlock
  deferring unlock <| onContents do
    return (value.castAll? (← get).values).getD []

def keys : Method Fault (Elements KObj VObj isEqual) (List Key) := do
  rdlock
  deferring unlock <| onContents do
    return (key.castAll? (← get).keys).getD []

def subscript (k : Key) : Method Fault (Elements KObj VObj isEqual) (Option Value) := do
  rdlock
  deferring unlock <| onContents do
    return (← NSMutableDictionary.object (key.toObject k)).bind value.cast?

def setSubscript (k : Key) (newValue : Option Value) : Method Fault (Elements KObj VObj isEqual) PUnit := do
  wrlock
  deferring unlock <| onContents do
    NSMutableDictionary.setSubscript (key.toObject k) (newValue.map value.toObject)

def count : Method Fault (Elements KObj VObj isEqual) ℕ := do
  rdlock
  deferring unlock <| onContents do
    NSMutableDictionary.count

/-- Takes the read lock, and writes. `isCopying` tells of which keys the cast to
`NSCopying` succeeds; the key stored is the same either way. -/
def testSetByObjectForKey (isCopying : Key → Bool) (k : Key) (item : Option Value) :
    Method Fault (Elements KObj VObj isEqual) PUnit := do
  rdlock
  deferring unlock <| onContents do
    if let some item := item then
      if isCopying k then
        NSMutableDictionary.setObject (value.toObject item) (key.toObject k)
      else
        NSMutableDictionary.setSubscript (key.toObject k) (some (value.toObject item))
    else
      NSMutableDictionary.removeObject (key.toObject k)

def testGetByObjectForKey (k : Key) : Method Fault (Elements KObj VObj isEqual) (Option Value) := do
  rdlock
  deferring unlock <| onContents do
    return (← NSMutableDictionary.object (key.toObject k)).bind value.cast?

end Methods

/-! ### Calls -/

/-- A call of a method, with its arguments. -/
inductive Call (Key Value : Type) (equals : KeyEq Key) where
  | elements
  | setElements (newValue : KeyMap Key Value equals)
  | values
  | keys
  | subscript (k : Key)
  | setSubscript (k : Key) (newValue : Option Value)
  | count
  | testSetByObjectForKey (k : Key) (item : Option Value)
  | testGetByObjectForKey (k : Key)

section Calls

variable {equals : KeyEq Key} {isEqual : KeyEq KObj} (key : Bridge Key KObj) (value : Bridge Value VObj)
  (isCopying : Key → Bool)

namespace Call

/-- The call, its result not used. -/
def method : Call Key Value equals → Method Fault (Elements KObj VObj isEqual) PUnit
  | elements => ignoring (PThreadSafeDictionary.elements key value : Method _ _ (KeyMap Key Value equals))
  | setElements newValue => PThreadSafeDictionary.setElements key value newValue
  | values => ignoring (PThreadSafeDictionary.values value)
  | keys => ignoring (PThreadSafeDictionary.keys key)
  | subscript k => ignoring (PThreadSafeDictionary.subscript key value k)
  | setSubscript k newValue => PThreadSafeDictionary.setSubscript key value k newValue
  | count => ignoring PThreadSafeDictionary.count
  | testSetByObjectForKey k item => PThreadSafeDictionary.testSetByObjectForKey key value isCopying k item
  | testGetByObjectForKey k => ignoring (PThreadSafeDictionary.testGetByObjectForKey key value k)

/-- The mode in which the method locks. -/
def mode : Call Key Value equals → Mode
  | setElements _ | setSubscript .. => .write
  | elements | values | keys | subscript _ | count | testSetByObjectForKey .. | testGetByObjectForKey _ =>
    .read

/-- The method is one that changes the elements. -/
def modifies : Call Key Value equals → Bool
  | setElements _ | setSubscript .. | testSetByObjectForKey .. => true
  | elements | values | keys | subscript _ | count | testGetByObjectForKey _ => false

/-- Every method locks in its mode around its body, and changes the elements only if
it is marked so. -/
theorem locked (c : Call Key Value equals) :
    ∃ body, Locked c.mode (c.method key value isCopying : Method Fault (Elements KObj VObj isEqual) _) body ∧
      (¬ c.modifies = true → body.Reads) := by
  cases c with
  | elements =>
    refine ⟨_, (locked_lock_deferring .read _).ignoring,
      fun _ => .bind (.bind .get fun entries => ?_) fun _ => .pure _⟩
    split
    all_goals exact .pure _
  | values | keys =>
    exact ⟨_, (locked_lock_deferring .read _).ignoring,
      fun _ => .bind (.bind .get fun _ => .pure _) fun _ => .pure _⟩
  | subscript | testGetByObjectForKey =>
    exact ⟨_, (locked_lock_deferring .read _).ignoring,
      fun _ => .bind (.bind (.bind .get fun _ => .pure _) fun _ => .pure _) fun _ => .pure _⟩
  | count =>
    exact ⟨_, (locked_lock_deferring .read _).ignoring,
      fun _ => .bind (.bind .get fun _ => .pure _) fun _ => .pure _⟩
  | setElements | setSubscript => exact ⟨_, locked_lock_deferring .write _, fun h => absurd rfl h⟩
  | testSetByObjectForKey => exact ⟨_, locked_lock_deferring .read _, fun h => absurd rfl h⟩

end Call

variable (isEqual) in
/-- The methods as a class with a lock. -/
def methods : LockedClass Fault (Call Key Value equals) (Elements KObj VObj isEqual) where
  method := Call.method key value isCopying
  mode := Call.mode
  modifies c := c.modifies = true
  locked := Call.locked key value isCopying

end Calls

/-! ### What the methods do -/

section Runs

variable {equals : KeyEq Key} {isEqual : KeyEq KObj} (key : Bridge Key KObj) (value : Bridge Value VObj)
  (isCopying : Key → Bool) (o : Object (Elements KObj VObj isEqual))

/-- The method returns, having assigned the object of `v` under the object of `k`. -/
def Assigns (method : Method Fault (Elements KObj VObj isEqual) PUnit)
    (o : Object (Elements KObj VObj isEqual)) (k : Key) (v : Option Value) : Prop :=
  ∃ calls, method o = .ok (⟨⟩, ⟨o.contents.assign (key.toObject k) (v.map value.toObject), calls⟩)

theorem setSubscript_assigns (k : Key) (v : Option Value) :
    Assigns key value (setSubscript key value k v) o k v := by
  refine ⟨_, (locked_lock_deferring .write _).run ?_⟩
  cases v <;> rfl

theorem testSetByObjectForKey_assigns (k : Key) (v : Option Value) :
    Assigns key value (testSetByObjectForKey key value isCopying k v) o k v := by
  refine ⟨_, (locked_lock_deferring .read _).run ?_⟩
  cases v with
  | none => rfl
  | some v =>
    dsimp only
    split_ifs <;> rfl

theorem elements_returns :
    Returns (elements key value : Method Fault _ (KeyMap Key Value equals)) o
      (((key.prod value).castAll? o.contents.entries).elim .empty .ofList) := by
  refine (locked_lock_deferring .read _).returns ?_
  rw [Body.run_get_bind]
  cases (key.prod value).castAll? o.contents.entries <;> rfl

theorem values_returns : Returns (values value) o ((value.castAll? o.contents.values).getD []) :=
  (locked_lock_deferring .read _).returns rfl

theorem keys_returns : Returns (keys key) o ((key.castAll? o.contents.keys).getD []) :=
  (locked_lock_deferring .read _).returns rfl

theorem subscript_returns (k : Key) :
    Returns (subscript key value k) o ((o.contents.get (key.toObject k)).bind value.cast?) :=
  (locked_lock_deferring .read _).returns rfl

theorem testGetByObjectForKey_returns (k : Key) :
    Returns (testGetByObjectForKey key value k) o ((o.contents.get (key.toObject k)).bind value.cast?) :=
  (locked_lock_deferring .read _).returns rfl

theorem count_returns : Returns count o o.contents.count := (locked_lock_deferring .read _).returns rfl

theorem ignoring_returns {α : Type} {method : Method Fault (Elements KObj VObj isEqual) α} {a : α}
    (h : Returns method o a) : ∃ y calls, ignoring method o = .ok (⟨⟩, ⟨y, calls⟩) := by
  obtain ⟨calls, hrun⟩ := h
  exact ⟨o.contents, calls, run_bind hrun _⟩

theorem Call.returns (c : Call Key Value equals) :
    ∃ y calls, c.method key value isCopying o = .ok (⟨⟩, ⟨y, calls⟩) := by
  cases c with
  | elements => exact ignoring_returns o (elements_returns key value o)
  | setElements newValue => exact ⟨_, _, (locked_lock_deferring .write _).run rfl⟩
  | values => exact ignoring_returns o (values_returns value o)
  | keys => exact ignoring_returns o (keys_returns key o)
  | subscript k => exact ignoring_returns o (subscript_returns key value o k)
  | setSubscript k newValue => exact ⟨_, setSubscript_assigns key value o k newValue⟩
  | count => exact ignoring_returns o (count_returns o)
  | testSetByObjectForKey k item => exact ⟨_, testSetByObjectForKey_assigns key value isCopying o k item⟩
  | testGetByObjectForKey k => exact ignoring_returns o (testGetByObjectForKey_returns key value o k)

theorem total (isEqual : KeyEq KObj) :
    (methods isEqual key value isCopying : LockedClass _ (Call Key Value equals) _).discipline.Total := by
  intro c x
  exact Call.returns key value isCopying ⟨x, []⟩ c

end Runs

/-! ### Exclusion -/

section Exclusion

variable {Thread : Type*} {equals : KeyEq Key} (isEqual : KeyEq KObj)
  (key : Bridge Key KObj) (value : Bridge Value VObj) (isCopying : Key → Bool)

theorem races_iff {prog : Thread → List (Call Key Value equals)} {t u : Thread} :
    (methods isEqual key value isCopying).discipline.Races prog t u ↔
      (∃ k item, .testSetByObjectForKey k item ∈ prog t) ∧ ∃ d ∈ prog u, d.mode = .read := by
  constructor
  · rintro ⟨c, hc, hmod, hmode, hread⟩
    refine ⟨?_, hread⟩
    cases c with
    | testSetByObjectForKey k item => exact ⟨k, item, hc⟩
    | setElements | setSubscript => cases hmode
    | elements | values | keys | subscript | count | testGetByObjectForKey => cases hmod
  · rintro ⟨⟨k, item, hc⟩, hread⟩
    exact ⟨_, hc, rfl, rfl, hread⟩

/-- In every reachable state a writer is alone, exactly when no two threads are such
that one calls `testSetByObjectForKey` and the other a method that takes the read lock. -/
theorem exclusive_iff_testSet [DecidableEq Thread] (prog : Thread → List (Call Key Value equals))
    (elements : Elements KObj VObj isEqual) :
    (∀ s, Run (methods isEqual key value isCopying).discipline (State.initial prog elements) s →
      s.Exclusive (methods isEqual key value isCopying).discipline) ↔
    ∀ t u, t ≠ u → (∃ k item, .testSetByObjectForKey k item ∈ prog t) → ∀ d ∈ prog u, d.mode = .write := by
  rw [exclusive_iff (total key value isCopying isEqual)]
  apply forall₃_congr
  intro t u hne
  rw [races_iff, not_and]
  apply imp_congr_right
  intro _
  simp only [not_exists, not_and]
  apply forall₂_congr
  intro d _
  cases d.mode <;> simp

/-- One thread that stores a value and one that counts. -/
def storeAndCount : Bool → List (Call String String (.ofDecidableEq String))
  | true => [.testSetByObjectForKey "key" (some "value")]
  | false => [.count]

/-- The class at strings that are their own objects. -/
def stringMethods :
    LockedClass Fault (Call String String (.ofDecidableEq String))
      (Elements String String (.ofDecidableEq String)) :=
  methods (.ofDecidableEq String) (.self String) (.self String) fun _ => true

/-- The two threads can be brought inside their methods at the same time. -/
theorem not_exclusive_storeAndCount :
    ¬ ∀ s, Run stringMethods.discipline (State.initial storeAndCount .empty) s →
      s.Exclusive stringMethods.discipline := by
  intro h
  have hraces : stringMethods.discipline.Races storeAndCount true false := by
    apply (races_iff ..).mpr
    exact ⟨⟨"key", some "value", List.mem_singleton_self _⟩, .count, List.mem_singleton_self _, rfl⟩
  have hne : true ≠ false := by decide
  obtain ⟨s, c, d, hrun, hc, hmod, hd⟩ := exists_run_of_races (total _ _ _ _) hne hraces .empty
  exact h s hrun true false c d hne hc hmod hd

end Exclusion

/-! ### The elements -/

section Refinement

variable {equals : KeyEq Key} {isEqual : KeyEq KObj} (key : Bridge Key KObj) (value : Bridge Value VObj)
  (isCopying : Key → Bool)

/-- The two ways to write. -/
inductive Path where
  | subscript | testSetByObjectForKey

/-- A write: which way, under which key, and the value, none to remove. -/
structure Write (Key Value : Type) where
  path : Path
  key : Key
  value : Option Value

def Write.method (w : Write Key Value) : Method Fault (Elements KObj VObj isEqual) PUnit :=
  match w.path with
  | .subscript => setSubscript key value w.key w.value
  | .testSetByObjectForKey => testSetByObjectForKey key value isCopying w.key w.value

/-- The writes, one after the other, make `o` of a new dictionary. -/
def WritesTo (writes : List (Write Key Value)) (o : Object (Elements KObj VObj isEqual)) : Prop :=
  writes.forM (Write.method key value isCopying) new = .ok (⟨⟩, o)

/-- What Swift's dictionary is after the same assignments. -/
def assigned (equals : KeyEq Key) (writes : List (Write Key Value)) : KeyMap Key Value equals :=
  writes.foldl (fun dict w => dict.assign w.key w.value) .empty

/-- Every method that reads the dictionary answers as `dict` would, in some order. -/
structure Shows (o : Object (Elements KObj VObj isEqual)) (dict : KeyMap Key Value equals) : Prop where
  subscript : ∀ k, Returns (subscript key value k) o (dict.get k)
  testGetByObjectForKey : ∀ k, Returns (testGetByObjectForKey key value k) o (dict.get k)
  count : Returns count o dict.count
  keys : ∃ ks, Returns (keys key) o ks ∧ ks.Perm dict.keys
  values : ∃ vs, Returns (values value) o vs ∧ vs.Perm dict.values
  elements : ∃ m : KeyMap Key Value equals, Returns (elements key value) o m ∧ m.entries.Perm dict.entries

/-- Swift's `==` of the key with any other is `isEqual:` of their objects. -/
def Plain (equals : KeyEq Key) (isEqual : KeyEq KObj) (key : Bridge Key KObj) (k : Key) : Prop :=
  KeyMap.Respects equals isEqual key.toObject k

/-- The objects after the same assignments. -/
def stored (isEqual : KeyEq KObj) (writes : List (Write Key Value)) : Elements KObj VObj isEqual :=
  writes.foldl (fun m w => m.assign (key.toObject w.key) (w.value.map value.toObject)) .empty

theorem Write.assigns (w : Write Key Value) (o : Object (Elements KObj VObj isEqual)) :
    Assigns key value (w.method key value isCopying) o w.key w.value := by
  obtain ⟨path, k, v⟩ := w
  cases path with
  | subscript => exact setSubscript_assigns key value o k v
  | testSetByObjectForKey => exact testSetByObjectForKey_assigns key value isCopying o k v

/-- Both ways to write assign. -/
theorem exists_writesTo (isEqual : KeyEq KObj) (writes : List (Write Key Value)) :
    ∃ o, WritesTo key value isCopying writes o ∧ o.contents = stored key value isEqual writes := by
  suffices h : ∀ o : Object (Elements KObj VObj isEqual),
      ∃ o', writes.forM (Write.method key value isCopying) o = .ok (⟨⟩, o') ∧
        o'.contents = writes.foldl (fun m w => m.assign (key.toObject w.key) (w.value.map value.toObject))
          o.contents from h new
  induction writes with
  | nil =>
    intro o
    exact ⟨o, rfl, rfl⟩
  | cons w writes ih =>
    intro o
    obtain ⟨calls, hrun⟩ := w.assigns key value isCopying o
    obtain ⟨o', hrun', hcontents⟩ := ih ⟨_, calls⟩
    exact ⟨o', (run_bind hrun _).trans hrun', hcontents⟩

theorem WritesTo.contents {isCopying : Key → Bool} {writes : List (Write Key Value)}
    {o : Object (Elements KObj VObj isEqual)} (h : WritesTo key value isCopying writes o) :
    o.contents = stored key value isEqual writes := by
  obtain ⟨o', hrun, hcontents⟩ := exists_writesTo key value isCopying isEqual writes
  have heq : o = o' := congrArg Prod.snd (Except.ok.inj (h.symm.trans hrun))
  rw [heq, hcontents]

section Image
variable {key value} {o : Object (Elements KObj VObj isEqual)} {dict : KeyMap Key Value equals}

/-- Where the objects are those of `dict` and its keys are plain, the methods show it. -/
theorem shows_of_image (h : KeyMap.Image key.toObject value.toObject dict o.contents)
    (hplain : ∀ e ∈ dict.entries, Plain equals isEqual key e.1) : Shows key value o dict where
  subscript := by
    intro k
    have hr := subscript_returns key value o k
    rwa [h.get hplain, Option.bind_map, value.cast?_comp_toObject, Option.bind_fun_some] at hr
  testGetByObjectForKey := by
    intro k
    have hr := testGetByObjectForKey_returns key value o k
    rwa [h.get hplain, Option.bind_map, value.cast?_comp_toObject, Option.bind_fun_some] at hr
  count := by
    have hr := count_returns o
    rwa [KeyMap.count, h, List.length_map] at hr
  keys := by
    refine ⟨dict.keys, ?_, List.Perm.refl _⟩
    have hkeys : o.contents.keys = dict.keys.map key.toObject := by
      rw [KeyMap.keys, h, KeyMap.keys, List.map_map, List.map_map]
      rfl
    have hr := keys_returns key o
    rwa [hkeys, key.castAll?_map] at hr
  values := by
    refine ⟨dict.values, ?_, List.Perm.refl _⟩
    have hvalues : o.contents.values = dict.values.map value.toObject := by
      rw [KeyMap.values, h, KeyMap.values, List.map_map, List.map_map]
      rfl
    have hr := values_returns value o
    rwa [hvalues, value.castAll?_map] at hr
  elements := by
    refine ⟨dict, ?_, List.Perm.refl _⟩
    have hcast : (key.prod value).castAll? o.contents.entries = some dict.entries := by
      rw [h]
      exact (key.prod value).castAll?_map dict.entries
    have hr : Returns (elements key value : Method Fault _ (KeyMap Key Value equals)) o _ :=
      elements_returns key value o
    rwa [hcast, Option.elim_some, KeyMap.ofList_entries] at hr

theorem assigned_append (writes : List (Write Key Value)) (w : Write Key Value) :
    assigned equals (writes ++ [w]) = (assigned equals writes).assign w.key w.value := by
  rw [assigned, List.foldl_append]
  rfl

theorem stored_append (writes : List (Write Key Value)) (w : Write Key Value) :
    stored key value isEqual (writes ++ [w]) =
      (stored key value isEqual writes).assign (key.toObject w.key) (w.value.map value.toObject) := by
  rw [stored, List.foldl_append]
  rfl

variable (value) in
/-- While the keys that get a value are plain, the objects are those of the dictionary,
and its keys are plain. -/
theorem image_of_plain {writes : List (Write Key Value)}
    (h : ∀ w ∈ writes, w.value ≠ none → Plain equals isEqual key w.key) :
    KeyMap.Image key.toObject value.toObject (assigned equals writes) (stored key value isEqual writes) ∧
      ∀ e ∈ (assigned equals writes).entries, Plain equals isEqual key e.1 := by
  induction writes using List.reverseRecOn with
  | nil => exact ⟨.empty, fun e he => absurd he List.not_mem_nil⟩
  | append_singleton writes w ih =>
    obtain ⟨himage, hplain⟩ := ih fun w' hw' => h w' (List.mem_append_left _ hw')
    rw [assigned_append, stored_append]
    refine ⟨himage.assign hplain w.key w.value, fun e he => ?_⟩
    rcases KeyMap.fst_mem_assign he with ⟨e', he', hfst⟩ | ⟨hfst, hvalue⟩
    · rw [← hfst]
      exact hplain e' he'
    · rw [hfst]
      exact h w (List.mem_append_right _ (List.mem_singleton_self w)) hvalue

/-- A value whose key the methods then show right has a plain key. -/
theorem plain_of_shows {writes : List (Write Key Value)} {w : Write Key Value}
    (h : ∀ w ∈ writes, w.value ≠ none → Plain equals isEqual key w.key) (hvalue : w.value ≠ none)
    (ho : o.contents = stored key value isEqual (writes ++ [w]))
    (hshows : Shows key value o (assigned equals (writes ++ [w]))) : Plain equals isEqual key w.key := by
  obtain ⟨himage, hplain⟩ := image_of_plain value h
  obtain ⟨v, hv⟩ := Option.ne_none_iff_exists'.mp hvalue
  rw [assigned_append] at hshows
  rw [stored_append] at ho
  rw [hv] at hshows ho
  refine himage.respects_of_get hplain (value.cast?_toObject v) fun k' => ?_
  have hr := subscript_returns key value o k'
  rw [ho] at hr
  exact hr.unique (hshows.subscript k')

end Image

/-- After every write of a sequence the methods show what Swift's dictionary would be,
exactly when every key that is given a value is plain. -/
theorem shows_iff (writes : List (Write Key Value)) :
    (∀ ws, ws <+: writes → ∃ o : Object (Elements KObj VObj isEqual),
      WritesTo key value isCopying ws o ∧ Shows key value o (assigned equals ws)) ↔
    ∀ w ∈ writes, w.value ≠ none → Plain equals isEqual key w.key := by
  constructor
  · intro h
    induction writes using List.reverseRecOn with
    | nil =>
      intro w hw
      cases hw
    | append_singleton writes w ih =>
      have hwrites := ih fun ws hws => h ws (hws.trans (List.prefix_append writes [w]))
      intro w' hw' hvalue
      rcases List.mem_append.mp hw' with hw' | hw'
      · exact hwrites w' hw' hvalue
      · obtain rfl := List.mem_singleton.mp hw'
        obtain ⟨o, hrun, hshows⟩ := h _ (List.prefix_refl _)
        exact plain_of_shows hwrites hvalue hrun.contents hshows
  · intro h ws hws
    obtain ⟨o, hrun, hcontents⟩ := exists_writesTo key value isCopying isEqual ws
    obtain ⟨himage, hplain⟩ := image_of_plain value fun w hw => h w (hws.subset hw)
    rw [← hcontents] at himage
    exact ⟨o, hrun, shows_of_image himage hplain⟩

/-- The part of canonical equivalence that concerns U+00E9, which decomposes into
U+0065 and U+0301. -/
def canonical : KeyEq String :=
  .on fun s => s.toList.flatMap fun c => if c.toNat = 0xE9 then [Char.ofNat 0x65, Char.ofNat 0x301] else [c]

def composed : String := String.ofList [Char.ofNat 0xE9]

def decomposed : String := String.ofList [Char.ofNat 0x65, Char.ofNat 0x301]

/-- A value stored under a key is not found under another spelling of the key. Strings
are equal for `isEqual:` when their UTF-16 code units are, that is, when they are equal. -/
theorem not_shows_composed :
    ¬ ∀ ws, ws <+: [⟨.subscript, composed, some "value"⟩] →
      ∃ o : Object (Elements String String (.ofDecidableEq String)),
        WritesTo (.self String) (.self String) (fun _ => true) ws o ∧
          Shows (.self String) (.self String) o (assigned canonical ws) := by
  intro h
  obtain ⟨o, hrun, hshows⟩ := h _ (List.prefix_refl _)
  have hr := subscript_returns (.self String) (.self String) o decomposed
  rw [hrun.contents] at hr
  have heq := hr.unique (hshows.subscript decomposed)
  revert heq
  decide

end Refinement

end StudyDB.PThreadSafeDictionary
