import StudyDB.Foundation.Accesses
import StudyDB.SafeCollection.PThreadSafeArray

/-! `PThreadSafeArray` shared by threads, with the accesses that its methods make of
the `NSMutableArray` as the steps that interleave. The predicate of `filter` is a function
of the element: one that called the array again would wait for the lock of its own call.
Proved: what threads see of each other is a list worked on by whole calls in the order of
their unlocks; and any finite number of threads with any calls comes to an end with every
call past its unlock. -/

namespace StudyDB.PThreadSafeArray

open Method ReadWriteLock Guarded

variable {Element Obj : Type} (bridge : Bridge Element Obj)

/-! ### The code of the methods -/

/-- What a call returns. -/
inductive Answer (Element : Type) where
  | done
  | elements (list : List Element)
  | number (n : ℕ)
  | element (value : Option Element)
  | pairs (list : List (ℕ × Element))

namespace Call

/-- The call with its result. -/
def answering : Call Element → Method Fault (List Obj) (Answer Element)
  | values => Answer.elements <$> PThreadSafeArray.values bridge
  | setValues newValue => (fun _ => .done) <$> PThreadSafeArray.setValues bridge newValue
  | count => Answer.number <$> PThreadSafeArray.count
  | first => Answer.element <$> PThreadSafeArray.first bridge
  | last => Answer.element <$> PThreadSafeArray.last bridge
  | subscript index => Answer.element <$> PThreadSafeArray.subscript bridge index
  | setSubscript index newValue => (fun _ => .done) <$> PThreadSafeArray.setSubscript bridge index newValue
  | appendItems items => (fun _ => .done) <$> PThreadSafeArray.appendItems bridge items
  | appendItem item => (fun _ => .done) <$> PThreadSafeArray.appendItem bridge item
  | insert item i => (fun _ => .done) <$> PThreadSafeArray.insert bridge item i
  | remove position => (fun _ => .done) <$> PThreadSafeArray.remove position
  | enumerated => Answer.pairs <$> PThreadSafeArray.enumerated bridge
  | filter isIncluded => Answer.elements <$> PThreadSafeArray.filter bridge isIncluded

/-- What the method does between the lock and the unlock, access by access. -/
def code : Call Element → Code Fault (List Obj) (Answer Element)
  | values => Answer.elements <$> do
      if let some list := bridge.castAll? (← get) then
        return list
      return []
  | setValues newValue => (fun _ => .done) <$> set (newValue.map bridge.toObject)
  | count => Answer.number <$> do
      return ← NSMutableArray.Access.count
  | first => Answer.element <$> do
      return (← NSMutableArray.Access.firstObject).bind bridge.cast?
  | last => Answer.element <$> do
      return (← NSMutableArray.Access.lastObject).bind bridge.cast?
  | subscript index => Answer.element <$> do
      if 0 ≤ index ∧ index < (← NSMutableArray.Access.count) then
        if let some value := bridge.cast? (← NSMutableArray.Access.object index) then
          return some value
      return none
  | setSubscript index newValue => (fun _ => .done) <$> do
      if let some value := newValue then
        if 0 ≤ index ∧ index < (← NSMutableArray.Access.count) then
          NSMutableArray.Access.replaceObject index (bridge.toObject value)
  | appendItems items => (fun _ => .done) <$> do
      let some items := items | return
      unless items.length > 0 do return
      NSMutableArray.Access.addObjects (items.map bridge.toObject)
  | appendItem item => (fun _ => .done) <$> do
      let some item := item | return
      NSMutableArray.Access.addObjects [bridge.toObject item]
  | insert item i => (fun _ => .done) <$> do
      let some item := item | return
      let some i := i | return
      unless 0 ≤ i ∧ i ≤ (← NSMutableArray.Access.count) do return
      NSMutableArray.Access.insert (bridge.toObject item) i
  | remove position => (fun _ => .done) <$> do
      if (← NSMutableArray.Access.count) ≤ position ∨ position < 0 then
        return
      NSMutableArray.Access.removeObject position
  | enumerated => Answer.pairs <$> do
      if let some list := bridge.castAll? (← get) then
        return list.zipIdx.map Prod.swap
      return []
  | filter isIncluded => Answer.elements <$> do
      let elements ← ((← get).filterM fun item => return isIncluded (← bridge.forceCast item) :
        Except Fault (List Obj))
      if let some array := bridge.castAll? elements then
        return array
      return []

/-- The method is its code between the lock and the unlock. -/
theorem locked_code (c : Call Element) : Locked c.mode (c.answering bridge) (c.code bridge).exec := by
  cases c with
  | values | enumerated =>
    refine Code.locked_map (locked_deferring .read _) ?_ _
    rw [Code.exec_bind]
    congr 1
    funext objects
    cases bridge.castAll? objects <;> rfl
  | setValues =>
    refine Code.locked_map (locked_deferring .write _) ?_ _
    rfl
  | count | first | last =>
    refine Code.locked_map (locked_deferring .read _) ?_ _
    rfl
  | subscript index =>
    refine Code.locked_map (locked_deferring .read _) ?_ _
    rw [Code.exec_bind]
    congr 1
    funext n
    split_ifs
    · rw [Code.exec_bind, NSMutableArray.Access.exec_object]
      congr 1
      funext object
      cases bridge.cast? object <;> rfl
    · rfl
  | setSubscript index newValue =>
    refine Code.locked_map (locked_deferring .write _) ?_ _
    cases newValue with
    | none => rfl
    | some value =>
      dsimp only
      rw [Code.exec_bind]
      congr 1
      funext n
      split_ifs
      · exact NSMutableArray.Access.exec_replaceObject index _
      · rfl
  | appendItems items =>
    refine Code.locked_map (locked_deferring .write _) ?_ _
    cases items with
    | none => rfl
    | some items =>
      dsimp only
      split_ifs <;> rfl
  | appendItem item =>
    refine Code.locked_map (locked_deferring .write _) ?_ _
    cases item <;> rfl
  | insert item i =>
    refine Code.locked_map (locked_deferring .write _) ?_ _
    rcases item with _ | item
    · rfl
    · rcases i with _ | i
      · rfl
      · dsimp only
        rw [Code.exec_bind]
        congr 1
        funext n
        split_ifs
        · exact NSMutableArray.Access.exec_insert i _
        · rfl
  | remove position =>
    refine Code.locked_map (locked_deferring .write _) ?_ _
    rw [Code.exec_bind]
    congr 1
    funext n
    split_ifs
    · rfl
    · exact NSMutableArray.Access.exec_removeObject position
  | filter isIncluded =>
    refine Code.locked_map (locked_deferring .write _) ?_ _
    rw [Code.exec_bind]
    congr 1
    funext objects
    rw [Code.exec_bind]
    congr 1
    · exact Code.exec_lift _
    · funext elements
      cases bridge.castAll? elements <;> rfl

/-- A method that does not change the elements only reads them. -/
theorem code_readOnly (c : Call Element) (h : ¬ c.modifies = true) : (c.code bridge).ReadOnly := by
  cases c with
  | values | enumerated =>
    refine .bind (.bind (fun _ => trivial) fun objects => ?_) fun _ => trivial
    cases bridge.castAll? objects <;> trivial
  | count | first | last => exact .bind (.bind (fun _ => trivial) fun _ => trivial) fun _ => trivial
  | subscript index =>
    refine .bind (.bind (fun _ => trivial) fun n => ?_) fun _ => trivial
    split_ifs
    · refine .bind (NSMutableArray.Access.readOnly_object index) fun object => ?_
      cases bridge.cast? object <;> trivial
    · trivial
  | filter isIncluded =>
    refine .bind (.bind (fun _ => trivial) fun objects => .bind (.lift _) fun elements => ?_)
      fun _ => trivial
    cases bridge.castAll? elements <;> trivial
  | setValues | setSubscript | appendItems | appendItem | insert | remove => exact absurd rfl h

/-- No method accesses the elements more than four times. -/
theorem code_within (c : Call Element) : (c.code bridge).Within 4 := by
  cases c with
  | values | enumerated =>
    refine .bind (m := 4) (n := 0) (.bind (m := 1) (n := 3) (fun _ => trivial) fun objects => ?_) fun _ => trivial
    cases bridge.castAll? objects <;> trivial
  | setValues => exact .bind (m := 4) (n := 0) trivial fun _ => trivial
  | count | first | last =>
    exact .bind (m := 4) (n := 0) (.bind (m := 1) (n := 3) (fun _ => trivial) fun _ => trivial) fun _ => trivial
  | subscript index =>
    refine .bind (m := 4) (n := 0) (.bind (m := 1) (n := 3) (fun _ => trivial) fun n => ?_) fun _ => trivial
    split_ifs
    · refine .bind (m := 1) (n := 2) (NSMutableArray.Access.within_object index) fun object => ?_
      cases bridge.cast? object <;> trivial
    · trivial
  | setSubscript index newValue =>
    refine .bind (m := 4) (n := 0) ?_ fun _ => trivial
    cases newValue with
    | none => trivial
    | some value =>
      refine .bind (m := 1) (n := 3) (fun _ => trivial) fun n => ?_
      split_ifs
      · exact NSMutableArray.Access.within_replaceObject index _
      · trivial
  | appendItems items =>
    refine .bind (m := 4) (n := 0) ?_ fun _ => trivial
    cases items with
    | none => trivial
    | some items =>
      dsimp only
      split_ifs
      · exact fun _ => trivial
      · trivial
  | appendItem item =>
    refine .bind (m := 4) (n := 0) ?_ fun _ => trivial
    cases item with
    | none => trivial
    | some item => exact fun _ => trivial
  | insert item i =>
    refine .bind (m := 4) (n := 0) ?_ fun _ => trivial
    rcases item with _ | item
    · trivial
    · rcases i with _ | i
      · trivial
      · refine .bind (m := 1) (n := 3) (fun _ => trivial) fun n => ?_
        split_ifs
        · exact NSMutableArray.Access.within_insert i _
        · trivial
  | remove position =>
    refine .bind (m := 4) (n := 0) (.bind (m := 1) (n := 3) (fun _ => trivial) fun n => ?_) fun _ => trivial
    split_ifs
    · trivial
    · exact NSMutableArray.Access.within_removeObject position
  | filter isIncluded =>
    refine .bind (m := 4) (n := 0) (.bind (m := 1) (n := 3) (fun _ => trivial) fun objects =>
      .bind (m := 0) (n := 3) (.lift _ _) fun elements => ?_) fun _ => trivial
    cases bridge.castAll? elements <;> trivial

/-- What a call answers, of a list. -/
def answer : Call Element → List Element → Answer Element
  | values, list => .elements list
  | count, list => .number list.length
  | first, list => .element list.head?
  | last, list => .element list.getLast?
  | subscript index, list => .element (if 0 ≤ index then list[index.toNat]? else none)
  | enumerated, list => .pairs (list.zipIdx.map Prod.swap)
  | filter isIncluded, list => .elements (list.filter isIncluded)
  | setValues _, _ | setSubscript .., _ | appendItems _, _ | appendItem _, _ | insert .., _ | remove _, _ =>
    .done

/-- The call on a list. -/
def run (c : Call Element) : Body Fault (List Element) (Answer Element) :=
  fun list => .ok (c.answer list, c.onList list)

section Exec
variable {bridge} {list : List Element}

theorem answering_of_returns {α : Type} {method : Method Fault (List Obj) α} {a : α} {o : Object (List Obj)}
    (f : α → Answer Element) (hr : Returns method o a) (ho : o.contents = list.map bridge.toObject) :
    ∃ o', (f <$> method) o = .ok (f a, o') ∧ o'.contents = list.map bridge.toObject := by
  obtain ⟨calls, hrun⟩ := hr
  exact ⟨_, run_map hrun f, ho⟩

theorem answering_of_leaves {method : Method Fault (List Obj) PUnit} {o : Object (List Obj)}
    (hl : Leaves bridge method o list) :
    ∃ o', ((fun _ => (.done : Answer Element)) <$> method) o = .ok (.done, o') ∧ o'.contents = list.map bridge.toObject := by
  obtain ⟨o', hrun, ho'⟩ := hl
  exact ⟨o', run_map hrun _, ho'⟩

/-- On the objects of a list, a call answers as on the list, and leaves the objects of
what it makes of the list. -/
theorem answering_run (c : Call Element) {o : Object (List Obj)} (ho : o.contents = list.map bridge.toObject) :
    ∃ o', c.answering bridge o = .ok (c.answer list, o') ∧
      o'.contents = (c.onList list).map bridge.toObject := by
  have hs := shows_of_contents ho
  cases c with
  | values => exact answering_of_returns _ hs.values ho
  | setValues newValue => exact answering_of_leaves (leaves_of_body rfl)
  | count => exact answering_of_returns _ hs.count ho
  | first => exact answering_of_returns _ hs.first ho
  | last => exact answering_of_returns _ hs.last ho
  | subscript index => exact answering_of_returns _ (hs.subscript index) ho
  | setSubscript index newValue => exact answering_of_leaves (setSubscript_leaves ho index newValue)
  | appendItems items => exact answering_of_leaves (appendItems_leaves ho items)
  | appendItem item => exact answering_of_leaves (appendItem_leaves ho item)
  | insert item i => exact answering_of_leaves (insert_leaves ho item i)
  | remove position => exact answering_of_leaves (remove_leaves ho position)
  | enumerated => exact answering_of_returns _ hs.enumerated ho
  | filter isIncluded => exact answering_of_returns _ (hs.filter isIncluded) ho

/-- The code of a call, run whole on the objects of a list, is the call on the list. -/
theorem exec_code (c : Call Element) (list : List Element) :
    (c.code bridge).exec (list.map bridge.toObject) =
      (c.run list).map fun r => (r.1, r.2.map bridge.toObject) := by
  have ho : (ofList bridge list).contents = list.map bridge.toObject := rfl
  obtain ⟨o', hrun, ho'⟩ := c.answering_run ho
  obtain ⟨hexec, _⟩ := (locked_code bridge c).of_run hrun
  rw [ho'] at hexec
  exact hexec

end Exec

end Call

/-! ### Threads -/

/-- The methods as threads run them. -/
def threads : Guarded (Call Element) Fault (List Obj) (Answer Element) where
  mode := Call.mode
  modifies c := c.modifies = true
  code := Call.code bridge
  readOnly := Call.code_readOnly bridge

variable {Thread : Type} [DecidableEq Thread] (prog : Thread → List (Call Element)) (list : List Element)

omit [DecidableEq Thread] in
theorem raceFree : RaceFree (threads bridge) prog := by
  rintro t u - ⟨c, -, hmod, hmode, -⟩
  rw [show (threads bridge).discipline.mode c = .write from mode_of_modifies c hmod] at hmode
  cases hmode

theorem exists_replays {s : Guarded.State Thread (Call Element) Fault (List Obj) (Answer Element)}
    (hrun : Guarded.Run (threads bridge) (.initial prog (list.map bridge.toObject)) s) :
    ∃ list', Replays Call.run s.history list list' ∧
      Explained (threads bridge) (list.map bridge.toObject) s (list'.map bridge.toObject) := by
  obtain ⟨x, hx⟩ := Explained.run (raceFree bridge prog) hrun
  obtain ⟨list', hlist', rfl⟩ := hx.replays.of_simulation Call.run
    (fun list objects => objects = list.map bridge.toObject) (fun _ => True)
    (fun c _ list objects a objects' ho hexec => by
      rw [ho] at hexec
      obtain ⟨rfl, rfl⟩ := Prod.mk.inj (Except.ok.inj ((Call.exec_code c list).symm.trans hexec))
      exact ⟨_, rfl, rfl⟩)
    (fun _ _ => trivial) rfl
  exact ⟨list', hlist', hx⟩

theorem not_ended {s : Guarded.State Thread (Call Element) Fault (List Obj) (Answer Element)}
    (hrun : Guarded.Run (threads bridge) (.initial prog (list.map bridge.toObject)) s) (e : Fault) :
    ¬ s.Ended e := by
  intro hended
  obtain ⟨list', _, hx⟩ := exists_replays bridge prog list hrun
  obtain ⟨c, _, hthrow⟩ := hx.throws hended
  rw [show (threads bridge).code c = c.code bridge from rfl, Call.exec_code] at hthrow
  cases hthrow

/-- One thread that appends an element, and one that counts. -/
def appendAndCount : Bool → List (Call ℕ)
  | true => [.appendItem (some 7)]
  | false => [.count]

/-- With finitely many threads every run ends, after at most six steps for each call;
where no thread can take a step, every call has come to its unlock, and the array is the
list that the calls, whole and in the order of their unlocks, make of the first. -/
theorem terminates_list [Fintype Thread] :
    (∀ states, (Guarded.State.initial prog (list.map bridge.toObject) :: states).IsChain (Step (threads bridge)) →
      states.length ≤ ∑ t, 6 * (prog t).length) ∧
    ∀ s, Guarded.Run (threads bridge) (.initial prog (list.map bridge.toObject)) s →
      (¬ ∃ s', Step (threads bridge) s s') →
        (∀ t, (s.history.filter fun entry => entry.thread = t).map Entry.call = prog t) ∧
          ∃ list', Replays Call.run s.history list list' ∧ s.shared = list'.map bridge.toObject := by
  constructor
  · intro states hchain
    have hlen := length_le (fun _ => 4) (Call.code_within bridge) hchain
    simpa [mul_comm] using hlen
  · intro s hrun hstuck
    obtain ⟨hout, hreturned⟩ := hrun.returned (not_ended bridge prog list hrun) hstuck
    obtain ⟨list', hlist', hx⟩ := exists_replays bridge prog list hrun
    refine ⟨hreturned, list', hlist', hx.settled fun t c hc => ?_⟩
    obtain ⟨rest, hrest⟩ := State.inside_outline.mp hc
    rw [hout t] at hrest
    cases hrest

end StudyDB.PThreadSafeArray
