import StudyDB.Foundation.Accesses
import StudyDB.SafeCollection.PThreadSafeDictionary
import Mathlib.Data.Multiset.MapFold

/-! `PThreadSafeDictionary` shared by threads, with the accesses that its methods make
of the `NSMutableDictionary` as the steps that interleave. An access is one step also where
two threads race, which the class does not promise; so the results are about programs
without races. Proved: where no thread calls `testSetByObjectForKey` beside another's call
under the read lock, what threads see of each other is a Swift dictionary worked on by whole
calls in the order of their unlocks; and with finitely many threads every call comes to its
unlock. -/

namespace StudyDB.PThreadSafeDictionary

open Method ReadWriteLock Guarded

variable {Key Value KObj VObj : Type} {equals : KeyEq Key} {isEqual : KeyEq KObj} (key : Bridge Key KObj)
  (value : Bridge Value VObj) (isCopying : Key → Bool)

/-! ### The code of the methods -/

/-- What a call returns. No order is promised of keys, values and entries, so they are
counted with their multiplicities only. -/
inductive Answer (Key Value : Type) where
  | done
  | elements (entries : Multiset (Key × Value))
  | values (values : Multiset Value)
  | keys (keys : Multiset Key)
  | value (value : Option Value)
  | number (n : ℕ)

namespace Call

/-- The call with its result. -/
def answering : Call Key Value equals → Method Fault (Elements KObj VObj isEqual) (Answer Key Value)
  | elements =>
    (fun m : KeyMap Key Value equals => .elements m.entries) <$> PThreadSafeDictionary.elements key value
  | setElements newValue => (fun _ => .done) <$> PThreadSafeDictionary.setElements key value newValue
  | values => (fun vs : List Value => .values vs) <$> PThreadSafeDictionary.values value
  | keys => (fun ks : List Key => .keys ks) <$> PThreadSafeDictionary.keys key
  | subscript k => Answer.value <$> PThreadSafeDictionary.subscript key value k
  | setSubscript k newValue => (fun _ => .done) <$> PThreadSafeDictionary.setSubscript key value k newValue
  | count => Answer.number <$> PThreadSafeDictionary.count
  | testSetByObjectForKey k item =>
    (fun _ => .done) <$> PThreadSafeDictionary.testSetByObjectForKey key value isCopying k item
  | testGetByObjectForKey k => Answer.value <$> PThreadSafeDictionary.testGetByObjectForKey key value k

/-- What the method does between the lock and the unlock, access by access. -/
def code : Call Key Value equals → Code Fault (Elements KObj VObj isEqual) (Answer Key Value)
  | elements => (fun m : KeyMap Key Value equals => .elements m.entries) <$> do
      if let some tempElements := (key.prod value).castAll? (← get).entries then
        return .ofList tempElements
      return .empty
  | setElements newValue => (fun _ => .done) <$>
      set (.ofList (newValue.entries.map (key.prod value).toObject) : Elements KObj VObj isEqual)
  | values => (fun vs : List Value => .values vs) <$> do
      return (value.castAll? (← get).values).getD []
  | keys => (fun ks : List Key => .keys ks) <$> do
      return (key.castAll? (← get).keys).getD []
  | subscript k => Answer.value <$> do
      return (← NSMutableDictionary.Access.object (key.toObject k)).bind value.cast?
  | setSubscript k newValue => (fun _ => .done) <$>
      NSMutableDictionary.Access.setSubscript (key.toObject k) (newValue.map value.toObject)
  | count => Answer.number <$> NSMutableDictionary.Access.count
  | testSetByObjectForKey k item => (fun _ => .done) <$> do
      if let some item := item then
        if isCopying k then
          NSMutableDictionary.Access.setObject (value.toObject item) (key.toObject k)
        else
          NSMutableDictionary.Access.setSubscript (key.toObject k) (some (value.toObject item))
      else
        NSMutableDictionary.Access.removeObject (key.toObject k)
  | testGetByObjectForKey k => Answer.value <$> do
      return (← NSMutableDictionary.Access.object (key.toObject k)).bind value.cast?

/-- The method is its code between the lock and the unlock. -/
theorem locked_code (c : Call Key Value equals) :
    Locked c.mode (c.answering key value isCopying : Method Fault (Elements KObj VObj isEqual) _)
      (c.code key value isCopying).exec := by
  cases c with
  | elements =>
    refine Code.locked_map (locked_lock_deferring .read _) ?_ _
    rw [Code.exec_bind]
    congr 1
    funext objects
    cases (key.prod value).castAll? objects.entries <;> rfl
  | setElements =>
    refine Code.locked_map (locked_lock_deferring .write _) ?_ _
    rfl
  | values | keys | subscript | count | testGetByObjectForKey =>
    refine Code.locked_map (locked_lock_deferring .read _) ?_ _
    rfl
  | setSubscript k newValue =>
    refine Code.locked_map (locked_lock_deferring .write _) ?_ _
    exact NSMutableDictionary.Access.exec_setSubscript _ _
  | testSetByObjectForKey k item =>
    refine Code.locked_map (locked_lock_deferring .read _) ?_ _
    cases item with
    | none => rfl
    | some item =>
      dsimp only
      split_ifs <;> rfl

/-- A method that does not change the elements only reads them. -/
theorem code_readOnly (c : Call Key Value equals) (h : ¬ c.modifies = true) :
    (c.code key value isCopying : Code Fault (Elements KObj VObj isEqual) _).ReadOnly := by
  cases c with
  | elements =>
    refine .bind (.bind (fun _ => trivial) fun objects => ?_) fun _ => trivial
    cases (key.prod value).castAll? objects.entries <;> trivial
  | values | keys | subscript | testGetByObjectForKey =>
    exact .bind (.bind (fun _ => trivial) fun _ => trivial) fun _ => trivial
  | count => exact .bind (fun _ => trivial) fun _ => trivial
  | setElements | setSubscript | testSetByObjectForKey => exact absurd rfl h

/-- No method accesses the elements more than twice. -/
theorem code_within (c : Call Key Value equals) :
    (c.code key value isCopying : Code Fault (Elements KObj VObj isEqual) _).Within 2 := by
  cases c with
  | elements =>
    refine .bind (m := 2) (n := 0) (.bind (m := 1) (n := 1) (fun _ => trivial) fun objects => ?_)
      fun _ => trivial
    cases (key.prod value).castAll? objects.entries <;> trivial
  | setElements => exact .bind (m := 2) (n := 0) trivial fun _ => trivial
  | values | keys | subscript | testGetByObjectForKey =>
    exact .bind (m := 2) (n := 0) (.bind (m := 1) (n := 1) (fun _ => trivial) fun _ => trivial)
      fun _ => trivial
  | count => exact .bind (m := 2) (n := 0) (fun _ => trivial) fun _ => trivial
  | setSubscript k newValue =>
    exact .bind (m := 2) (n := 0) (NSMutableDictionary.Access.within_setSubscript _ _) fun _ => trivial
  | testSetByObjectForKey k item =>
    refine .bind (m := 2) (n := 0) ?_ fun _ => trivial
    cases item with
    | none => exact fun _ => trivial
    | some item =>
      dsimp only
      split_ifs <;> exact fun _ => trivial

/-- No method throws. -/
theorem code_noThrow (c : Call Key Value equals) :
    (c.code key value isCopying : Code Fault (Elements KObj VObj isEqual) _).NoThrow := by
  cases c with
  | elements =>
    refine .bind (.bind (fun _ => trivial) fun objects => ?_) fun _ => trivial
    cases (key.prod value).castAll? objects.entries <;> trivial
  | setElements => exact .bind trivial fun _ => trivial
  | values | keys | subscript | testGetByObjectForKey =>
    exact .bind (.bind (fun _ => trivial) fun _ => trivial) fun _ => trivial
  | count => exact .bind (fun _ => trivial) fun _ => trivial
  | setSubscript k newValue =>
    refine .bind ?_ fun _ => trivial
    cases newValue <;> exact fun _ => trivial
  | testSetByObjectForKey k item =>
    refine .bind ?_ fun _ => trivial
    cases item with
    | none => exact fun _ => trivial
    | some item =>
      dsimp only
      split_ifs <;> exact fun _ => trivial

/-! ### The calls on a Swift dictionary -/

/-- What a call answers, of a dictionary. -/
def answer : Call Key Value equals → KeyMap Key Value equals → Answer Key Value
  | elements, dict => .elements dict.entries
  | values, dict => .values dict.values
  | keys, dict => .keys dict.keys
  | subscript k, dict | testGetByObjectForKey k, dict => .value (dict.get k)
  | count, dict => .number dict.count
  | setElements _, _ | setSubscript .., _ | testSetByObjectForKey .., _ => .done

/-- What a call makes of a dictionary. -/
def onDict : Call Key Value equals → KeyMap Key Value equals → KeyMap Key Value equals
  | setElements newValue, _ => newValue
  | setSubscript k v, dict | testSetByObjectForKey k v, dict => dict.assign k v
  | _, dict => dict

/-- The call on a dictionary. -/
def run (c : Call Key Value equals) : Body Fault (KeyMap Key Value equals) (Answer Key Value) :=
  fun dict => .ok (c.answer dict, c.onDict dict)

/-- Every key to which the call gives a value is plain. -/
def PlainKeys (isEqual : KeyEq KObj) (key : Bridge Key KObj) : Call Key Value equals → Prop
  | setElements newValue => ∀ e ∈ newValue.entries, Plain equals isEqual key e.1
  | setSubscript k v | testSetByObjectForKey k v => v ≠ none → Plain equals isEqual key k
  | _ => True

end Call

/-- The objects are those of a dictionary with plain keys. -/
def Holds (key : Bridge Key KObj) (value : Bridge Value VObj) (dict : KeyMap Key Value equals)
    (objects : Elements KObj VObj isEqual) : Prop :=
  KeyMap.Image key.toObject value.toObject dict objects ∧
    ∀ e ∈ dict.entries, Plain equals isEqual key e.1

section Holds
variable {key value isCopying} {dict : KeyMap Key Value equals} {objects : Elements KObj VObj isEqual}

/-- The objects of the entries of a dictionary with plain keys stay apart. -/
theorem holds_ofList (h : ∀ e ∈ dict.entries, Plain equals isEqual key e.1) :
    Holds key value dict (.ofList (dict.entries.map (key.prod value).toObject) : Elements KObj VObj isEqual) := by
  have hdistinct : (dict.entries.map (key.prod value).toObject).Pairwise fun a b => isEqual.eqv a.1 b.1 = false := by
    rw [List.pairwise_map]
    exact dict.distinct.imp_of_mem fun {a b} ha _ hab => ((h a ha b.1).symm.trans hab)
  refine ⟨?_, h⟩
  rw [KeyMap.ofList_eq hdistinct]
  rfl

theorem Holds.assign (h : Holds key value dict objects) {k : Key} {v : Option Value}
    (hk : v ≠ none → Plain equals isEqual key k) :
    Holds key value (dict.assign k v) (objects.assign (key.toObject k) (v.map value.toObject)) := by
  refine ⟨h.1.assign h.2 k v, fun e he => ?_⟩
  rcases KeyMap.fst_mem_assign he with ⟨e', he', hfst⟩ | ⟨hfst, hvalue⟩
  · rw [← hfst]
    exact h.2 e' he'
  · rw [hfst]
    exact hk hvalue

variable (key value) in
theorem setElements_run (o : Object (Elements KObj VObj isEqual)) (newValue : KeyMap Key Value equals) :
    ∃ calls, setElements key value newValue o =
      .ok (⟨⟩, ⟨.ofList (newValue.entries.map (key.prod value).toObject), calls⟩) :=
  ⟨_, (locked_lock_deferring .write _).run rfl⟩

theorem answering_of_returns {α : Type} {method : Method Fault (Elements KObj VObj isEqual) α} {a : α}
    {o : Object (Elements KObj VObj isEqual)} (f : α → Answer Key Value) (hr : Returns method o a) :
    ∃ o', (f <$> method) o = .ok (f a, o') ∧ o'.contents = o.contents := by
  obtain ⟨calls, hrun⟩ := hr
  exact ⟨_, run_map hrun f, rfl⟩

variable (isCopying) in
/-- On the objects of a dictionary, a call answers as on the dictionary, and leaves the
objects of what it makes of the dictionary. -/
theorem Holds.answering_run (c : Call Key Value equals) (hc : c.PlainKeys isEqual key)
    {o : Object (Elements KObj VObj isEqual)} (h : Holds key value dict o.contents) :
    ∃ o', c.answering key value isCopying o = .ok (c.answer dict, o') ∧
      Holds key value (c.onDict dict) o'.contents := by
  have hs := shows_of_image h.1 h.2
  -- a method that only reads leaves the objects as they are
  have hread : ∀ {α : Type} {method : Method Fault (Elements KObj VObj isEqual) α} {a : α}
      (f : α → Answer Key Value), Returns method o a →
      ∃ o', (f <$> method) o = .ok (f a, o') ∧ Holds key value dict o'.contents := by
    intro α method a f hr
    obtain ⟨o', hrun, ho'⟩ := answering_of_returns f hr
    exact ⟨o', hrun, ho' ▸ h⟩
  cases c with
  | elements =>
    obtain ⟨m, hm, hperm⟩ := hs.elements
    obtain ⟨o', hrun, ho'⟩ := hread (fun m : KeyMap Key Value equals => .elements m.entries) hm
    exact ⟨o', by rw [Call.answer, ← Multiset.coe_eq_coe.mpr hperm]; exact hrun, ho'⟩
  | setElements newValue =>
    obtain ⟨calls, hrun⟩ := setElements_run key value o newValue
    exact ⟨_, run_map hrun _, holds_ofList hc⟩
  | values =>
    obtain ⟨vs, hvs, hperm⟩ := hs.values
    obtain ⟨o', hrun, ho'⟩ := hread (fun vs : List Value => .values vs) hvs
    exact ⟨o', by rw [Call.answer, ← Multiset.coe_eq_coe.mpr hperm]; exact hrun, ho'⟩
  | keys =>
    obtain ⟨ks, hks, hperm⟩ := hs.keys
    obtain ⟨o', hrun, ho'⟩ := hread (fun ks : List Key => .keys ks) hks
    exact ⟨o', by rw [Call.answer, ← Multiset.coe_eq_coe.mpr hperm]; exact hrun, ho'⟩
  | subscript k => exact hread _ (hs.subscript k)
  | setSubscript k v =>
    obtain ⟨calls, hrun⟩ := setSubscript_assigns key value o k v
    exact ⟨_, run_map hrun _, h.assign hc⟩
  | count => exact hread _ hs.count
  | testSetByObjectForKey k v =>
    obtain ⟨calls, hrun⟩ := testSetByObjectForKey_assigns key value isCopying o k v
    exact ⟨_, run_map hrun _, h.assign hc⟩
  | testGetByObjectForKey k => exact hread _ (hs.testGetByObjectForKey k)

variable (isCopying) in
/-- The code of a call, run whole on the objects of a dictionary, is the call on the
dictionary. -/
theorem Holds.exec_code (c : Call Key Value equals) (hc : c.PlainKeys isEqual key)
    (h : Holds key value dict objects) :
    ∃ objects', (c.code key value isCopying).exec objects = .ok (c.answer dict, objects') ∧
      Holds key value (c.onDict dict) objects' := by
  obtain ⟨o', hrun, ho'⟩ := Holds.answering_run isCopying (o := ⟨objects, []⟩) c hc h
  exact ⟨o'.contents, (Call.locked_code key value isCopying c).of_run hrun |>.1, ho'⟩

end Holds

/-! ### Threads -/

variable (isEqual) in
/-- The methods as threads run them. -/
def threads : Guarded (Call Key Value equals) Fault (Elements KObj VObj isEqual) (Answer Key Value) where
  mode := Call.mode
  modifies c := c.modifies = true
  code := Call.code key value isCopying
  readOnly := Call.code_readOnly key value isCopying

section Threads
variable {Thread : Type} [DecidableEq Thread] (prog : Thread → List (Call Key Value equals))
  {dict : KeyMap Key Value equals} {objects : Elements KObj VObj isEqual}

omit [DecidableEq Thread] in
/-- `testSetByObjectForKey` is the only method that changes the elements under the read lock. -/
theorem raceFree
    (hrace : ∀ t u, t ≠ u → (∃ k item, .testSetByObjectForKey k item ∈ prog t) → ∀ d ∈ prog u, d.mode = .write) :
    RaceFree (threads isEqual key value isCopying) prog := by
  rintro t u hne ⟨c, hc, hmod, hmode, d, hd, hdmode⟩
  cases c with
  | testSetByObjectForKey k item =>
    have hwrite := hrace t u hne ⟨k, item, hc⟩ d hd
    rw [show d.mode = .read from hdmode] at hwrite
    cases hwrite
  | setElements | setSubscript => cases hmode
  | elements | values | keys | subscript | count | testGetByObjectForKey => cases hmod

variable {s : Guarded.State Thread (Call Key Value equals) Fault (Elements KObj VObj isEqual) (Answer Key Value)}

theorem exists_replays
    (hrace : ∀ t u, t ≠ u → (∃ k item, .testSetByObjectForKey k item ∈ prog t) → ∀ d ∈ prog u, d.mode = .write)
    (hplain : ∀ t, ∀ c ∈ prog t, c.PlainKeys isEqual key) (hdict : Holds key value dict objects)
    (hrun : Guarded.Run (threads isEqual key value isCopying) (.initial prog objects) s) :
    ∃ dict', Replays Call.run s.history dict dict' ∧
      ((∀ t c, s.outline.Inside t c → c.modifies = false) → Holds key value dict' s.shared) := by
  obtain ⟨x, hx⟩ := Explained.run (raceFree key value isCopying prog hrace) hrun
  obtain ⟨dict', hdict', hholds⟩ := hx.replays.of_simulation Call.run (Holds key value)
    (fun c => c.PlainKeys isEqual key)
    (fun c hc m objects a objects' hm hexec => by
      obtain ⟨objects'', hexec', hm'⟩ := Holds.exec_code isCopying c hc hm
      obtain ⟨rfl, rfl⟩ := Prod.mk.inj (Except.ok.inj (hexec'.symm.trans hexec))
      exact ⟨_, rfl, hm'⟩)
    (fun entry he => hplain entry.thread entry.call (hrun.mem_of_history he)) hdict
  refine ⟨dict', hdict', fun h => ?_⟩
  rw [hx.settled fun t c hc => Bool.eq_false_iff.mp (h t c hc)]
  exact hholds

/-- One thread that stores under the write lock, and one that counts. -/
def subscriptAndCount : Bool → List (Call String String (.ofDecidableEq String))
  | true => [.setSubscript "key" (some "value")]
  | false => [.count]

theorem subscriptAndCount_raceFree (t u : Bool) (_ : t ≠ u)
    (h : ∃ k item, .testSetByObjectForKey k item ∈ subscriptAndCount t) (d) (_ : d ∈ subscriptAndCount u) :
    d.mode = .write := by
  obtain ⟨k, item, hmem⟩ := h
  cases t <;> simp [subscriptAndCount] at hmem

theorem subscriptAndCount_plainKeys (t : Bool) (c) (hc : c ∈ subscriptAndCount t) :
    c.PlainKeys (.ofDecidableEq String) (.self String) := by
  cases t with
  | true =>
    obtain rfl := List.mem_singleton.mp hc
    exact fun _ k => rfl
  | false =>
    obtain rfl := List.mem_singleton.mp hc
    trivial

theorem holds_empty : Holds (.self String) (.self String) (.empty : KeyMap String String (.ofDecidableEq String))
    (.empty : Elements String String (.ofDecidableEq String)) :=
  ⟨.empty, fun _ he => absurd he List.not_mem_nil⟩

/-- With finitely many threads, none of which calls `testSetByObjectForKey` while another's
program has a method that takes the read lock, every run ends, after at most four steps for
each call. Where no thread can take a step, every call has come to its unlock, and the objects
are those of the dictionary that the calls, whole and in the order of their unlocks, make of
the first. -/
theorem terminates_dictionary [Fintype Thread]
    (hrace : ∀ t u, t ≠ u → (∃ k item, .testSetByObjectForKey k item ∈ prog t) → ∀ d ∈ prog u, d.mode = .write)
    (hplain : ∀ t, ∀ c ∈ prog t, c.PlainKeys isEqual key) (hdict : Holds key value dict objects) :
    (∀ states, (Guarded.State.initial prog objects :: states).IsChain (Step (threads isEqual key value isCopying)) →
      states.length ≤ ∑ t, 4 * (prog t).length) ∧
    ∀ s, Guarded.Run (threads isEqual key value isCopying) (.initial prog objects) s →
      (¬ ∃ s', Step (threads isEqual key value isCopying) s s') →
        (∀ t, (s.history.filter fun entry => entry.thread = t).map Entry.call = prog t) ∧
          ∃ dict', Replays Call.run s.history dict dict' ∧ Holds key value dict' s.shared := by
  constructor
  · intro states hchain
    have hlen := length_le (fun _ => 2) (Call.code_within key value isCopying) hchain
    simpa [mul_comm] using hlen
  · intro s hrun hstuck
    obtain ⟨hout, hreturned⟩ := hrun.returned (hrun.not_ended (Call.code_noThrow key value isCopying)) hstuck
    obtain ⟨dict', hdict', hsettled⟩ := exists_replays key value isCopying prog hrace hplain hdict hrun
    refine ⟨hreturned, dict', hdict', hsettled fun t c hc => ?_⟩
    obtain ⟨rest, hrest⟩ := State.inside_outline.mp hc
    rw [hout t] at hrest
    cases hrest

/-- The two threads take at most eight steps, and then the store and the count are over. -/
theorem terminates_store :
    let G := threads (.ofDecidableEq String) (.self String) (.self String) fun _ => true
    let start := Guarded.State.initial subscriptAndCount (.empty : Elements String String (.ofDecidableEq String))
    (∀ states, (start :: states).IsChain (Step G) → states.length ≤ 8) ∧
    ∀ s, Guarded.Run G start s → (¬ ∃ s', Step G s s') →
      (∀ t, (s.history.filter fun entry => entry.thread = t).map Entry.call = subscriptAndCount t) ∧
        ∃ dict', Replays Call.run s.history .empty dict' ∧ Holds (.self String) (.self String) dict' s.shared :=
  terminates_dictionary (.self String) (.self String) (fun _ => true) subscriptAndCount subscriptAndCount_raceFree
    subscriptAndCount_plainKeys holds_empty

end Threads

end StudyDB.PThreadSafeDictionary
